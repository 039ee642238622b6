import VersionAlignment.Proofs.ChangedReferences
import VersionAlignment.Proofs.ManifestChannel
import VersionAlignment.Proofs.Replacements

set_option autoImplicit false

namespace VersionAlignment

open Property

/-- Nothing comes between a text and the version that an override wants for it. -/
structure Override.Undisturbed (s : Setting) (index : Nat) (raw wanted : String)
    (changes : List Change) : Prop where
  /-- No alias on the way to the property is set by hand. -/
  free : ∀ r, Refers s index raw r → ∀ name, reference? raw = some name →
    ∀ spot next, Visits (insideMove s.project) ⟨index, name⟩ spot →
      insideMove s.project spot = .go next → ¬ s.Overrides spot
  /-- A property that has the version already is not moved away from it. -/
  kept : ∀ r, Refers s index raw r → r.value = wanted →
    ∀ value, propertyWrite r.site value ∈ changes → value = wanted

namespace Run

variable {s : Setting}

theorem current?_changed {index : Nat} {raw wanted : String} {r : Resolution}
    (refers : Override.Refers s index raw r) (literal : reference? wanted = none)
    (free : ∀ name, reference? raw = some name → s.WayFree index name)
    (ends : (boundBy (declared s).changes.changes r.site.spot).getD r.value = wanted) :
    (Written.read { s with project := s.project.applyAll (declared s).changes.changes } index
      raw).current? = some wanted := by
  obtain ⟨name, named, found⟩ := refers.named
  rw [current?_along named found (free name named), ends]
  intro value bound
  simpa [← ends, bound] using literal

theorem current?_of_unreplaced {before later : Run} {index : Nat} {c : Coordinate}
    {raw wanted : String} (moved : Override.Moved s index c raw wanted before later)
    (locks : ∀ site lock, later.locks.get? site = some lock →
      (declared s).locks.get? site = some lock)
    (changes : ∀ change ∈ later.changes.changes, change ∈ (declared s).changes.changes)
    (literal : reference? wanted = none)
    (undisturbed : Override.Undisturbed s index raw wanted (declared s).changes.changes)
    (unreplaced : .overrideVersion index c raw wanted ∉ (declared s).changes.changes) :
    (Written.read { s with project := s.project.applyAll (declared s).changes.changes } index
      raw).current? = some wanted := by
  cases moved with
  | literal same => simp [Written.read, same, literal, Written.current?]
  | replaced _ _ pushed =>
    exact absurd (changes _ (pushed ▸ ChangeSet.mem_insert.2 (.inr rfl))) unreplaced
  | standing refers same =>
    obtain ⟨name, -, found⟩ := refers.named
    have kept := undisturbed.kept _ refers same
    exact current?_changed refers literal (undisturbed.free _ refers)
      ((value_of_kept found (same ▸ kept)).trans same)
  | agreed refers _ locked same =>
    obtain ⟨name, -, found⟩ := refers.named
    exact current?_changed refers literal (undisturbed.free _ refers)
      (same ▸ value_of_locked found (locks _ _ locked))
  | @locked r _ refers _ free own =>
    obtain ⟨name, -, found⟩ := refers.named
    have locked := locks r.site ⟨wanted, .override⟩ (by simp [own, Locks.get?_lock, free])
    exact current?_changed refers literal (undisturbed.free _ refers)
      (value_of_locked found locked)

/-- After the changes of a run an overridden dependency is at the version of its override, if
nothing else disturbs the property that it goes through. -/
theorem dependency_override_holds (s : Setting) (index : Nat) (c : Coordinate) {m : Module}
    {d : Declaration} {raw wanted : String} (present : s.project.module? index = some m)
    (heeded : s.policy.ignoresModule m = false) (gives : m.giving? c = some d)
    (version : d.version = some raw) (forced : s.policy.dependencyOverride? c = some wanted)
    (foreign : s.project.owns c = false) (literal : reference? wanted = none)
    (undisturbed : Override.Undisturbed s index raw wanted (declared s).changes.changes) :
    let changed := s.project.applyAll (declared s).changes.changes
    ∃ n e text, changed.module? index = some n ∧ n.giving? c = some e ∧ e.version = some text ∧
      (Written.read { s with project := changed } index text).current? = some wanted := by
  intro changed
  obtain rfl : d.coordinate = c := m.coordinate_of_giving? gives
  obtain ⟨before, later, moved, locks, changes, replaced⟩ :=
    dependency_moved present heeded gives ⟨version, forced, foreign⟩
  have text := Declaration.version_revised version replaced
  refine ⟨m.revised index (declared s).changes.changes,
    d.revised index (declared s).changes.changes, _, ?_, ?_, text, ?_⟩
  · rw [Project.module?_revised, present]
    rfl
  · rw [m.giving?_revised index _ (declared_manages_nothing s), gives]
    rfl
  · split
    · simp [Written.read, literal, Written.current?]
    · next unreplaced =>
      exact current?_of_unreplaced moved locks changes literal undisturbed unreplaced

def codecForced : Setting :=
  .ofOptions twoReaders .alone { overrideDependencies := ["io.netty:netty-codec:3.0"] }

theorem codecForced_undisturbed (changes : List Change) :
    Override.Undisturbed codecForced 1 "$\x7bnetty\x7d" "3.0" changes where
  free := by
    rintro _ _ _ _ _ _ _ _ ⟨_, -, -, -, forced⟩
    cases forced
  kept := by
    intro r refers same
    have found : Override.Refers codecForced 1 "$\x7bnetty\x7d" ⟨⟨0, "netty", false⟩, "1.0"⟩ :=
      ⟨rfl, "netty", by decide, rfl⟩
    rw [refers.unique found] at same
    exact absurd same (by decide)

theorem dependency_override_codecForced :
    let changed := twoReaders.applyAll (declared codecForced).changes.changes
    ∃ n e text, changed.module? 1 = some n ∧
      n.giving? ⟨"io.netty", "netty-codec", "jar", none⟩ = some e ∧ e.version = some text ∧
      (Written.read { codecForced with project := changed } 1 text).current? = some "3.0" :=
  dependency_override_holds codecForced 1 ⟨"io.netty", "netty-codec", "jar", none⟩ rfl (by decide)
    rfl rfl rfl (by decide) (by decide) (codecForced_undisturbed _)

def bufferMoves : Setting :=
  .ofOptions
    { modules := [
        { group := "org.acme", artifact := "parent", version := "1", isRoot := true
          properties := [("netty", "1.0")]
          declarations := [
            { coordinate := ⟨"io.netty", "netty-buffer", "jar", none⟩
              version := some "$\x7bnetty\x7d" },
            { coordinate := ⟨"io.netty", "netty-codec", "jar", none⟩
              version := some "$\x7bnetty\x7d" }] }]
      root := 0 }
    .alone
    { overrideDependencies := ["io.netty:netty-buffer:2.0", "io.netty:netty-codec:1.0"] }

theorem dependency_override_lost :
    let codec : Coordinate := ⟨"io.netty", "netty-codec", "jar", none⟩
    let changed := bufferMoves.project.applyAll (declared bufferMoves).changes.changes
    ∃ m d n e, bufferMoves.project.module? 0 = some m ∧
      bufferMoves.policy.ignoresModule m = false ∧ m.giving? codec = some d ∧
      bufferMoves.policy.dependencyOverride? codec = some "1.0" ∧
      bufferMoves.project.owns codec = false ∧ reference? "1.0" = none ∧
      changed.module? 0 = some n ∧ n.giving? codec = some e ∧
      e.version = some "$\x7bnetty\x7d" ∧
      (Written.read { bufferMoves with project := changed } 0 "$\x7bnetty\x7d").current? =
        some "2.0" :=
  ⟨_, _, _, _, rfl, by decide, rfl, rfl, by decide, by decide, rfl, rfl, rfl, rfl⟩

end Run

end VersionAlignment
