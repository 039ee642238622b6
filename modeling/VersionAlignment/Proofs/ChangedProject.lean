import VersionAlignment.Proofs.Settlement

set_option autoImplicit false

namespace VersionAlignment

open Property

/-- The value that the last change to a place binds there. -/
def boundBy (changes : List Change) (spot : Spot Nat) : Option String :=
  changes.reverse.findSome? (·.bound? spot)

theorem boundBy_cons (change : Change) (rest : List Change) (spot : Spot Nat) :
    boundBy (change :: rest) spot = (boundBy rest spot).or (change.bound? spot) := by
  simp [boundBy, List.findSome?_append]

theorem boundBy_append_unbound {changes more : List Change} {spot : Spot Nat}
    (unbound : ∀ change ∈ more, change.bound? spot = none) :
    boundBy (changes ++ more) spot = boundBy changes spot := by
  have nothing : more.reverse.findSome? (·.bound? spot) = none := by
    simpa [List.findSome?_eq_none_iff] using unbound
  simp [boundBy, List.findSome?_append, nothing]

theorem mem_of_boundBy {changes : List Change} {spot : Spot Nat} {value : String}
    (bound : boundBy changes spot = some value) :
    ∃ site, site.spot = spot ∧ propertyWrite site value ∈ changes := by
  obtain ⟨change, present, binds⟩ := List.exists_of_findSome?_eq_some bound
  obtain ⟨site, here, rfl⟩ := Change.bound?_eq_some.1 binds
  exact ⟨site, here, List.mem_reverse.1 present⟩

theorem unwritten_of_boundBy {changes : List Change} {site : Site} {value : String}
    (unbound : boundBy changes site.spot = none) : propertyWrite site value ∉ changes := by
  intro present
  have nothing := List.findSome?_eq_none_iff.1 unbound _ (List.mem_reverse.2 present)
  have binds : (propertyWrite site value).bound? site.spot = some value :=
    Change.bound?_eq_some.2 ⟨site, rfl, rfl⟩
  simp [binds] at nothing

theorem Run.Consistent.eq_of_boundBy {s : Setting} {run : Run} (consistent : Consistent s run)
    {site : Site} {lock : Lock} {value : String} (locked : run.locks.get? site = some lock)
    (bound : boundBy run.changes.changes site.spot = some value) : value = lock.value := by
  -- The write goes to the spot of the lock, so it is the write of the lock's value.
  obtain ⟨other, here, present⟩ := mem_of_boundBy bound
  have write := consistent.write_of_bound? locked present
    (Change.bound?_eq_some.2 ⟨other, here, rfl⟩)
  exact (propertyWrite_inj.1 write).2

theorem Run.Consistent.write_of_boundBy {s : Setting} {run : Run} (consistent : Consistent s run)
    {owner : Nat} {name value : String} {r : Resolution}
    (found : s.resolve owner name = .ok (some r))
    (bound : boundBy run.changes.changes r.site.spot = some value) :
    propertyWrite r.site value ∈ run.changes.changes := by
  obtain ⟨site, here, written⟩ := mem_of_boundBy bound
  obtain ⟨lock, locked, -⟩ := consistent.written site value written
  have placed := consistent.placed site lock locked
  exact placed.eq_of_spot (ends_of_resolve found).hasSite here ▸ written

namespace Module

def revised (m : Module) (index : Nat) (changes : List Change) : Module :=
  (changes.filter (·.owner == index)).foldl (fun m change => change.revise m) m

theorem revised_cons (m : Module) (index : Nat) (change : Change) (rest : List Change) :
    m.revised index (change :: rest) =
      (if change.owner = index then change.revise m else m).revised index rest := by
  by_cases own : change.owner = index <;> simp [revised, own]

theorem property?_revise (m : Module) (change : Change) (name : String) :
    (change.revise m).property? name =
      (change.bound? ⟨change.owner, name⟩).or (m.property? name) := by
  cases change with
  | setProperty owner n value | injectProperty owner n value =>
    by_cases same : name = n
    · simp [Change.revise, Change.bound?, Change.owner, same]
    · simp [Change.revise, Change.bound?, Change.owner, same, Ne.symm same]
  | overrideVersion | manage => simp [Change.revise, Change.bound?]

theorem property?_revised (m : Module) (index : Nat) (changes : List Change) (name : String) :
    (m.revised index changes).property? name =
      (boundBy changes ⟨index, name⟩).or (m.property? name) := by
  -- The module grows along with the changes, and a later binding goes before an earlier one.
  induction changes generalizing m with
  | nil => simp [revised, boundBy]
  | cons change rest ih =>
    rw [revised_cons, ih, boundBy_cons, Option.or_assoc]
    by_cases own : change.owner = index
    · rw [if_pos own, property?_revise, own]
    · have elsewhere : change.bound? ⟨index, name⟩ = none := by
        cases change <;> simp_all [Change.bound?, Change.owner]
      rw [if_neg own, elsewhere, Option.none_or]

theorem kept_revised (m : Module) (index : Nat) (changes : List Change) :
    (m.revised index changes).identity = m.identity ∧
      (m.revised index changes).parent = m.parent := by
  induction changes generalizing m with
  | nil => exact ⟨rfl, rfl⟩
  | cons change rest ih =>
    rw [revised_cons]
    have kept := change.identity_revise m
    split
    · exact ⟨(ih _).1.trans kept.1, (ih _).2.trans kept.2.1⟩
    · exact ih m

end Module

namespace Declaration

def revise (index : Nat) (d : Declaration) : Change → Declaration
  | .overrideVersion owner c old new => if owner = index then d.replaceVersion c old new else d
  | _ => d

def revised (d : Declaration) (index : Nat) (changes : List Change) : Declaration :=
  changes.foldl (revise index) d

theorem kept_replaceVersion (d : Declaration) (c : Coordinate) (old new : String) :
    (d.replaceVersion c old new).coordinate = d.coordinate ∧
      (d.replaceVersion c old new).place = d.place ∧
      (d.replaceVersion c old new).scope = d.scope := by
  unfold replaceVersion
  split <;> exact ⟨rfl, rfl, rfl⟩

theorem kept_revised (d : Declaration) (index : Nat) (changes : List Change) :
    (d.revised index changes).coordinate = d.coordinate ∧
      (d.revised index changes).place = d.place ∧ (d.revised index changes).scope = d.scope := by
  induction changes generalizing d with
  | nil => exact ⟨rfl, rfl, rfl⟩
  | cons change rest ih =>
    have rest := ih (revise index d change)
    cases change with
    | overrideVersion owner c old new =>
      have kept := kept_replaceVersion d c old new
      by_cases own : owner = index <;> simp_all [revised, revise]
    | setProperty | injectProperty | manage => exact rest

theorem isSome_version_revised (d : Declaration) (index : Nat) (changes : List Change) :
    (d.revised index changes).version.isSome = d.version.isSome := by
  induction changes generalizing d with
  | nil => rfl
  | cons change rest ih =>
    refine (ih (revise index d change)).trans ?_
    cases change with
    | overrideVersion owner c old new =>
      by_cases hit : d.coordinate = c ∧ d.version = some old
      · by_cases own : owner = index <;> simp [revise, replaceVersion, own, hit]
      · by_cases own : owner = index <;> simp [revise, replaceVersion, own, hit]
    | setProperty | injectProperty | manage => rfl

theorem version_revised_none {d : Declaration} (bare : d.version = none) (index : Nat)
    (changes : List Change) : (d.revised index changes).version = none := by
  simpa [bare] using d.isSome_version_revised index changes

theorem revised_of_unreplaced {d : Declaration} {index : Nat} {raw : String}
    {changes : List Change} (version : d.version = some raw)
    (unreplaced : ∀ new, .overrideVersion index d.coordinate raw new ∉ changes) :
    d.revised index changes = d := by
  induction changes with
  | nil => rfl
  | cons change rest ih =>
    have untouched : revise index d change = d := by
      cases change with
      | overrideVersion owner c old new =>
        by_cases own : owner = index
        · have missed : ¬ (d.coordinate = c ∧ d.version = some old) := by
            rintro ⟨rfl, here⟩
            have hit := unreplaced new
            simp_all
          simp [revise, replaceVersion, own, missed]
        · simp [revise, own]
      | setProperty | injectProperty | manage => rfl
    have rest := ih fun new later => unreplaced new (List.mem_cons_of_mem _ later)
    simpa [revised, untouched] using rest

theorem version_revised {d : Declaration} {index : Nat} {raw target : String}
    {changes : List Change} (version : d.version = some raw)
    (same : ∀ old new, .overrideVersion index d.coordinate old new ∈ changes → new = target) :
    (d.revised index changes).version =
      some (if .overrideVersion index d.coordinate raw target ∈ changes then target else raw) := by
  induction changes generalizing d raw with
  | nil => simpa [revised] using version
  | cons change rest ih =>
    have later : ∀ old new, .overrideVersion index d.coordinate old new ∈ rest → new = target :=
      fun old new present => same old new (List.mem_cons_of_mem _ present)
    by_cases hit : change = .overrideVersion index d.coordinate raw target
    -- Once replaced, the text is the target, and the changes that follow keep it.
    · have replaced : (revise index d change).version = some target := by
        simp [hit, revise, replaceVersion, version]
      have coordinate : (revise index d change).coordinate = d.coordinate := by
        simp [hit, revise, replaceVersion, version]
      have rest := ih replaced (by rwa [coordinate])
      simpa [revised, hit] using rest
    -- A change with this coordinate and text would have been the one that hits.
    · have untouched : revise index d change = d := by
        cases change with
        | overrideVersion owner c old new =>
          by_cases own : owner = index
          · have missed : ¬ (d.coordinate = c ∧ d.version = some old) := by
              rintro ⟨rfl, here⟩
              have moved := same old new (by simp [own])
              simp_all
            simp [revise, replaceVersion, own, missed]
          · simp [revise, own]
        | setProperty | injectProperty | manage => rfl
      have rest := ih version later
      simpa [revised, untouched, Ne.symm hit] using rest

end Declaration

theorem Module.declarations_revised (m : Module) (index : Nat) {changes : List Change}
    (plain : ∀ owner c version exclusions former,
      .manage owner c version exclusions former ∉ changes) :
    (m.revised index changes).declarations = m.declarations.map (·.revised index changes) := by
  induction changes generalizing m with
  | nil => simp [revised, Declaration.revised]
  | cons change rest ih =>
    have later : ∀ owner c version exclusions former,
        .manage owner c version exclusions former ∉ rest :=
      fun _ _ _ _ _ present => plain _ _ _ _ _ (List.mem_cons_of_mem _ present)
    rw [revised_cons, ih _ later]
    cases change with
    | setProperty owner | injectProperty owner =>
      by_cases own : owner = index <;>
        simp [Change.owner, Change.revise, Module.bind, Declaration.revised, Declaration.revise,
          own]
    | overrideVersion owner c old new =>
      by_cases own : owner = index <;>
        simp [Change.owner, Change.revise, Module.replaceVersion, Declaration.revised,
          Declaration.revise, own]
    | manage => exact absurd List.mem_cons_self (plain _ _ _ _ _)

namespace Project

theorem module?_revised (p : Project) (changes : List Change) (index : Nat) :
    (p.applyAll changes).module? index = (p.module? index).map (·.revised index changes) :=
  module?_applyAll p changes index

theorem rebound_applyAll (p : Project) (changes : List Change) :
    Rebound p (p.applyAll changes) (boundBy changes) := by
  intro index
  rw [module?_revised]
  cases p.module? index with
  | none => trivial
  | some m => exact ⟨(m.kept_revised index changes).2, m.property?_revised index changes⟩

end Project

def Setting.ChannelIsLiteral (s : Setting) : Prop :=
  ∀ c current target, s.given.channel c current = some target → reference? target = none

/-- Nothing is overridden, and the channel has one literal version for each of its coordinates. -/
structure Setting.Regular (s : Setting) : Prop where
  maven : s.given.order = Version.compare
  unforced : s.policy.Unforced
  literal : s.ChannelIsLiteral
  steady : ∀ c a b, s.given.channel c a = s.given.channel c b

def Written.rebind (values : Spot Nat → Option String) : Written → Written
  | .literal version => .literal version
  | .reference name found => .reference name (found.map (Option.map (Resolution.rebind values)))

namespace Run.Sound

variable {s : Setting} {run : Run}

theorem bindsSites (sound : Sound s run) (literal : s.ChannelIsLiteral) :
    BindsSites s.project s.given.outside (boundBy run.changes.changes) := by
  intro spot value bound
  obtain ⟨site, rfl, present⟩ := mem_of_boundBy bound
  obtain ⟨lock, locked, rfl⟩ := sound.written site value present
  obtain ⟨-, -, value, resolved, -⟩ := sound.locked site lock locked
  obtain ⟨-, c, current, covered⟩ :=
    Setting.sanctions_propertyWrite.1 (sound.sanctioned _ present)
  exact ⟨literal c current _ covered, ⟨site, value⟩, resolved, rfl⟩

theorem read_rebound (sound : Sound s run) (literal : s.ChannelIsLiteral) {q : Project}
    (rebound : Rebound s.project q (boundBy run.changes.changes)) (index : Nat) (raw : String) :
    Written.read { s with project := q } index raw =
      (Written.read s index raw).rebind (boundBy run.changes.changes) := by
  unfold Written.read
  split
  · rfl
  · simp only [Written.rebind, Setting.resolve]
    rw [resolve_rebound rebound (sound.bindsSites literal)]

theorem value_rebind (sound : Sound s run) {r : Resolution} {owner : Nat} {name : String}
    (found : s.resolve owner name = .ok (some r)) {lock : Lock}
    (locked : run.locks.get? r.site = some lock) :
    (r.rebind (boundBy run.changes.changes)).value = lock.value := by
  rw [Resolution.value_rebind]
  cases bound : boundBy run.changes.changes r.site.spot with
  | some value => exact sound.toConsistent.eq_of_boundBy locked bound
  | none =>
    obtain ⟨-, -, value, resolved, same | present⟩ := sound.locked r.site lock locked
    · have own : s.resolve r.site.owner r.site.name = .ok (some r) := resolve_site found
      have again : (⟨r.site, value⟩ : Resolution) = r := by simpa [resolved] using own
      exact (same.trans (congrArg Resolution.value again)).symm
    · exact absurd present (unwritten_of_boundBy bound)

theorem current?_rebound (sound : Sound s run) {index : Nat} {raw current : String}
    (fixes : Fixes s run (Written.read s index raw) current) :
    ((Written.read s index raw).rebind (boundBy run.changes.changes)).current? = some current := by
  generalize read : Written.read s index raw = written at fixes
  cases fixes with
  | literal => rfl
  | @inline name r place =>
    have unbound : boundBy run.changes.changes r.site.spot = none := by
      cases bound : boundBy run.changes.changes r.site.spot with
      | none => rfl
      | some value =>
        -- Properties are locked, and so written, only where versions are not replaced in place.
        obtain ⟨site, -, present⟩ := mem_of_boundBy bound
        obtain ⟨lock, locked, -⟩ := sound.written site value present
        have apart := (sound.locked site lock locked).2.1
        simp [place] at apart
    simp [Written.rebind, Except.map, Written.current?, Resolution.value_rebind, unbound]
  | @locked name r lock found =>
    have resolved := Written.resolve_of_read read
    simp [Written.rebind, Except.map, Written.current?, sound.value_rebind resolved found]

theorem manages_nothing (sound : Sound s run) (owner : Nat) (c : Coordinate)
    (version : String) (exclusions : List Exclusion) (former : String) :
    .manage owner c version exclusions former ∉ run.changes.changes :=
  fun present => sound.sanctioned _ present

theorem eq_target_of_override (sound : Sound s run)
    (steady : ∀ c a b, s.given.channel c a = s.given.channel c b) {index : Nat} {c : Coordinate}
    {current target old new : String} (covered : s.given.channel c current = some target)
    (present : .overrideVersion index c old new ∈ run.changes.changes) : new = target := by
  obtain ⟨other, moved⟩ := sound.sanctioned _ present
  rw [steady c other current, covered] at moved
  exact (Option.some.inj moved).symm

end Run.Sound

end VersionAlignment
