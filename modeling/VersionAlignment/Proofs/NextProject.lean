import VersionAlignment.Alignment.Transitive
import VersionAlignment.Proofs.ChangedProject

set_option autoImplicit false

namespace VersionAlignment

open Property

namespace Change

def Manages : Change → Prop
  | .manage .. => True
  | _ => False

def managed? (index : Nat) : Change → Option Declaration
  | .manage owner c version exclusions _ =>
    if owner = index then
      some { coordinate := c, version := some version, exclusions, place := .management }
    else none
  | _ => none

theorem managed?_manage {index owner : Nat} {c : Coordinate} {version former : String}
    {exclusions : List Exclusion} {d : Declaration} :
    (manage owner c version exclusions former).managed? index = some d ↔ owner = index ∧
      { coordinate := c, version := some version, exclusions, place := .management } = d := by
  simp [managed?]

end Change

theorem boundBy_append_manages {changes more : List Change}
    (manages : ∀ change ∈ more, change.Manages) : boundBy (changes ++ more) = boundBy changes := by
  funext spot
  refine boundBy_append_unbound fun change member => ?_
  have managing := manages change member
  cases change with
  | manage => rfl
  | setProperty | injectProperty | overrideVersion => exact managing.elim

namespace Module

theorem revised_append (m : Module) (index : Nat) (changes more : List Change) :
    m.revised index (changes ++ more) = (m.revised index changes).revised index more := by
  simp [revised, List.filter_append]

theorem declarations_revised_manages (m : Module) (index : Nat) {more : List Change}
    (manages : ∀ change ∈ more, change.Manages) :
    (m.revised index more).declarations = m.declarations ++ more.filterMap (·.managed? index) := by
  induction more generalizing m with
  | nil => simp [revised]
  | cons change rest ih =>
    have managing := manages change List.mem_cons_self
    rw [revised_cons, ih _ fun other member => manages other (List.mem_cons_of_mem _ member)]
    cases change with
    | setProperty | injectProperty | overrideVersion => exact managing.elim
    | manage owner c version exclusions former =>
      by_cases own : owner = index
      · simp [own, Change.owner, Change.revise, Module.manage, Change.managed?]
      · simp [own, Change.owner, Change.managed?]

theorem declarations_next (m : Module) (index : Nat) {changes more : List Change}
    (plain : ∀ owner c version exclusions former,
      .manage owner c version exclusions former ∉ changes)
    (manages : ∀ change ∈ more, change.Manages) :
    (m.revised index (changes ++ more)).declarations =
      m.declarations.map (·.revised index changes) ++ more.filterMap (·.managed? index) := by
  rw [revised_append, declarations_revised_manages _ index manages,
    declarations_revised m index plain]

end Module

namespace Project

theorem identities_applyAll (p : Project) (changes : List Change) :
    (p.applyAll changes).modules.map Module.identity = p.modules.map Module.identity := by
  refine List.ext_getElem? fun index => ?_
  have revised := p.module?_revised changes index
  simp only [module?] at revised
  rw [List.getElem?_map, List.getElem?_map, revised, Option.map_map]
  congr 1
  funext m
  exact (m.kept_revised index changes).1

theorem find?_eq (p : Project) (group artifact : String) :
    p.find? group artifact = (p.modules.map Module.identity).findIdx?
      fun identity => identity.coordinate.group == group &&
        identity.coordinate.artifact == artifact := by
  rw [List.findIdx?_map]
  rfl

theorem owns_applyAll (p : Project) (changes : List Change) (c : Coordinate) :
    (p.applyAll changes).owns c = p.owns c := by
  simp only [owns, find?_eq, identities_applyAll]

theorem indexed_applyAll (p : Project) (changes : List Change) :
    (p.applyAll changes).indexed =
      p.indexed.map fun entry => (entry.1.revised entry.2 changes, entry.2) := by
  refine List.ext_getElem? fun index => ?_
  have revised := p.module?_revised changes index
  simp only [module?] at revised
  simp only [indexed, List.getElem?_map, List.getElem?_zipIdx, revised, Option.map_map]
  congr 1
  funext m
  simp

theorem mem_declaredCoordinates {p : Project} {c : Coordinate} :
    c ∈ p.declaredCoordinates ↔ ∃ index m, p.module? index = some m ∧
      (m.identity.coordinate = c ∨ ∃ d ∈ m.declarations, d.coordinate = c) := by
  simp only [declaredCoordinates, List.mem_append, List.mem_map, List.mem_flatMap, module?]
  constructor
  · rintro (⟨m, member, same⟩ | ⟨m, member, declared⟩)
    · obtain ⟨index, inside⟩ := List.mem_iff_getElem?.1 member
      exact ⟨index, m, inside, .inl same⟩
    · obtain ⟨index, inside⟩ := List.mem_iff_getElem?.1 member
      exact ⟨index, m, inside, .inr declared⟩
  · rintro ⟨index, m, inside, same | declared⟩
    · exact .inl ⟨m, List.mem_iff_getElem?.2 ⟨index, inside⟩, same⟩
    · exact .inr ⟨m, List.mem_iff_getElem?.2 ⟨index, inside⟩, declared⟩

theorem mem_declaredCoordinates_next {p : Project} {changes more : List Change}
    (plain : ∀ owner c version exclusions former,
      .manage owner c version exclusions former ∉ changes)
    (manages : ∀ change ∈ more, change.Manages) {c : Coordinate} :
    c ∈ (p.applyAll (changes ++ more)).declaredCoordinates ↔
      c ∈ p.declaredCoordinates ∨ ∃ index m d, p.module? index = some m ∧
        d ∈ more.filterMap (·.managed? index) ∧ d.coordinate = c := by
  have coordinate (d : Declaration) (index : Nat) :
      (d.revised index changes).coordinate = d.coordinate := (d.kept_revised index changes).1
  simp only [mem_declaredCoordinates, module?_revised, Option.map_eq_some_iff]
  constructor
  · rintro ⟨index, _, ⟨m, inside, rfl⟩, same | ⟨d, member, same⟩⟩
    · rw [(m.kept_revised index (changes ++ more)).1] at same
      exact .inl ⟨index, m, inside, .inl same⟩
    · rw [m.declarations_next index plain manages, List.mem_append, List.mem_map] at member
      rcases member with ⟨old, member, rfl⟩ | managed
      · exact .inl ⟨index, m, inside, .inr ⟨old, member, (coordinate old index).symm.trans same⟩⟩
      · exact .inr ⟨index, m, d, inside, managed, same⟩
  · rintro (⟨index, m, inside, same | ⟨d, member, same⟩⟩ | ⟨index, m, d, inside, managed, same⟩)
    · refine ⟨index, _, ⟨m, inside, rfl⟩, .inl ?_⟩
      rw [(m.kept_revised index (changes ++ more)).1, same]
    · refine ⟨index, _, ⟨m, inside, rfl⟩, .inr ⟨d.revised index changes, ?_, ?_⟩⟩
      · rw [m.declarations_next index plain manages, List.mem_append]
        exact .inl (List.mem_map_of_mem member)
      · rw [coordinate, same]
    · refine ⟨index, _, ⟨m, inside, rfl⟩, .inr ⟨d, ?_, same⟩⟩
      rw [m.declarations_next index plain manages, List.mem_append]
      exact .inr managed

end Project

end VersionAlignment
