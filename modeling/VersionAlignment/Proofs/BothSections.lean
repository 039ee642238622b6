import VersionAlignment.Proofs.DependencyOverrides

set_option autoImplicit false

namespace VersionAlignment

open Property

namespace Run

variable {s : Setting} {m : Module} {index : Nat} {d : Declaration} {raw wanted : String}

theorem replaced_of_literal (present : s.project.module? index = some m)
    (heeded : s.policy.ignoresModule m = false) (gives : m.giving? d.coordinate = some d)
    (asks : Override.Asks s d raw wanted) (literal : reference? raw = none) :
    raw = wanted ∨
      .overrideVersion index d.coordinate raw wanted ∈ (declared s).changes.changes := by
  obtain ⟨before, later, moved, -, kept, -⟩ := dependency_moved present heeded gives asks
  have nowhere : ∀ r, ¬ Override.Refers s index raw r := fun r refers => by
    obtain ⟨name, named, -⟩ := refers.named
    simp [literal] at named
  cases moved with
  | literal same => exact .inl same
  | replaced _ _ changes => exact .inr (kept _ (changes ▸ ChangeSet.mem_insert.2 (.inr rfl)))
  | standing refers | agreed refers | locked refers => exact absurd refers (nowhere _)

theorem version_of_literal {e : Declaration} {other : String}
    (present : s.project.module? index = some m) (heeded : s.policy.ignoresModule m = false)
    (gives : m.giving? d.coordinate = some d) (asks : Override.Asks s d raw wanted)
    (literal : reference? raw = none) (same : e.coordinate = d.coordinate)
    (version : e.version = some other) :
    (e.revised index (declared s).changes.changes).version =
      some (if other = raw then wanted else other) := by
  have only : ∀ old new,
      .overrideVersion index e.coordinate old new ∈ (declared s).changes.changes →
      old = raw ∧ new = wanted :=
    fun old new member => replaced_of_asks present heeded gives asks (same ▸ member)
  rw [Declaration.version_revised version fun old new member => (only old new member).2]
  by_cases alike : other = raw
  · rcases replaced_of_literal present heeded gives asks literal with done | replaced
    · simp [alike, done]
    · simp [alike, same, replaced]
  · have apart : .overrideVersion index e.coordinate other wanted ∉
        (declared s).changes.changes :=
      fun member => alike (only other wanted member).1
    simp [alike, apart]

/-- After the changes of a run the first version of an overridden coordinate, if it is a literal,
is that of the override, and so is every other version of the coordinate with the same text. -/
theorem override_of_sections (s : Setting) (index : Nat) (c : Coordinate) (position : Nat)
    {m : Module} {d e : Declaration} {raw other wanted : String}
    (present : s.project.module? index = some m) (heeded : s.policy.ignoresModule m = false)
    (forced : s.policy.dependencyOverride? c = some wanted) (foreign : s.project.owns c = false)
    (gives : m.giving? c = some d) (version : d.version = some raw)
    (literal : reference? raw = none) (declares : m.declarations[position]? = some e)
    (same : e.coordinate = c) (also : e.version = some other) :
    let changed := s.project.applyAll (declared s).changes.changes
    ∃ n d' e', changed.module? index = some n ∧ n.giving? c = some d' ∧
      d'.version = some wanted ∧ n.declarations[position]? = some e' ∧ e'.coordinate = c ∧
      e'.place = e.place ∧ e'.version = some (if other = raw then wanted else other) := by
  intro changed
  obtain rfl : d.coordinate = c := m.coordinate_of_giving? gives
  have asks : Override.Asks s d raw wanted := ⟨version, forced, foreign⟩
  have plain := declared_manages_nothing s
  have after := m.giving?_revised index d.coordinate plain
  have kept := e.kept_revised index (declared s).changes.changes
  refine ⟨m.revised index (declared s).changes.changes,
    d.revised index (declared s).changes.changes, e.revised index (declared s).changes.changes,
    ?_, ?_, ?_, ?_, kept.1.trans same, kept.2.1, ?_⟩
  · rw [Project.module?_revised, present]
    rfl
  · rw [after, gives]
    rfl
  · rw [version_of_literal present heeded gives asks literal rfl version]
    simp
  · rw [m.declarations_revised index plain, List.getElem?_map, declares]
    rfl
  · exact version_of_literal present heeded gives asks literal same also

def codecManaged (direct managed : String) : Setting :=
  .ofOptions
    { modules := [
        { group := "org.acme", artifact := "parent", version := "1", isRoot := true
          declarations := [
            { coordinate := ⟨"io.netty", "netty-codec", "jar", none⟩, version := some direct },
            { coordinate := ⟨"io.netty", "netty-codec", "jar", none⟩, version := some managed
              place := .management }] }]
      root := 0 }
    .alone
    { overrideDependencies := ["io.netty:netty-codec:2.0"] }

theorem override_of_sections_codecManaged :
    let codec : Coordinate := ⟨"io.netty", "netty-codec", "jar", none⟩
    let s := codecManaged "1.0" "1.0"
    let changed := s.project.applyAll (declared s).changes.changes
    ∃ n d e, changed.module? 0 = some n ∧ n.giving? codec = some d ∧ d.version = some "2.0" ∧
      n.declarations[1]? = some e ∧ e.coordinate = codec ∧ e.place = .management ∧
      e.version = some "2.0" := by
  intro codec s changed
  have forced : s.policy.dependencyOverride? codec = some "2.0" := rfl
  exact override_of_sections s 0 codec 1 rfl (by decide) forced (by decide) rfl rfl (by decide) rfl
    rfl rfl

theorem override_of_sections_lost :
    let codec : Coordinate := ⟨"io.netty", "netty-codec", "jar", none⟩
    let s := codecManaged "1.0" "1.1"
    let changed := s.project.applyAll (declared s).changes.changes
    ∃ m d e n d' e', s.project.module? 0 = some m ∧ s.policy.ignoresModule m = false ∧
      s.policy.dependencyOverride? codec = some "2.0" ∧ s.project.owns codec = false ∧
      m.declarations = [d, e] ∧ d.coordinate = codec ∧ e.coordinate = codec ∧
      d.place = .dependencies ∧ e.place = .management ∧
      d.version = some "1.0" ∧ e.version = some "1.1" ∧
      reference? "1.0" = none ∧ reference? "1.1" = none ∧
      changed.module? 0 = some n ∧ n.declarations = [d', e'] ∧
      d'.version = some "2.0" ∧ e'.version = some "1.1" :=
  ⟨_, _, _, _, _, _, rfl, by decide, rfl, by decide, rfl, rfl, rfl, rfl, rfl, rfl, rfl, by decide,
    by decide, rfl, rfl, rfl, rfl⟩

end Run

end VersionAlignment
