import VersionAlignment.Proofs.ChangedReferences
import VersionAlignment.Proofs.DeclarationSteps
import VersionAlignment.Proofs.Gaps
import VersionAlignment.Proofs.ManifestChannel

set_option autoImplicit false

namespace VersionAlignment

open Property

namespace Run

variable {s : Setting}

theorem reported_of_step {run : Run} {step : Step} {u : Unaligned}
    (member : u ∈ (step.perform s run).unaligned) : u ∈ run.unaligned ∨
      ∃ d raw, step = .declaration u.owner d ∧ d.version = some raw ∧
        u ∈ (judge s run u.owner d raw).unaligned s u.owner d.coordinate := by
  cases step with
  | property m index entry =>
    have same : (Override.property s m index run entry).unaligned = run.unaligned :=
      congrArg Prod.snd (Override.property_findings s index run m entry)
    exact .inl (same ▸ member)
  | dependency index d =>
    have same : (Override.declaration s index run d).unaligned = run.unaligned :=
      congrArg Prod.snd (Override.declaration_findings s index run d)
    exact .inl (same ▸ member)
  | note => exact .inl member
  | declaration index d =>
    rw [Step.perform] at member
    unfold alignDeclaration at member
    split at member
    · exact .inl member
    · next raw version =>
      rw [carryOut_unaligned, List.mem_append] at member
      refine member.imp_right fun own => ?_
      obtain ⟨rfl, -⟩ := Verdict.gap?_of_mem_unaligned own
      exact ⟨d, raw, rfl, version, own⟩

structure Reported (s : Setting) (u : Unaligned) (m : Module) (position : Nat) (d : Declaration)
    (raw : String) : Prop where
  present : s.project.module? u.owner = some m
  declares : m.declarations[position]? = some d
  coordinate : d.coordinate = u.coordinate
  version : d.version = some raw
  stepped : ∃ front back, steps s = front ++ .declaration u.owner d :: back ∧
    u ∈ (judge s (({} : Run).perform s front) u.owner d raw).unaligned s u.owner d.coordinate

theorem exists_reported {u : Unaligned} (member : u ∈ (declared s).unaligned) :
    ∃ m position d raw, Reported s u m position d raw := by
  rw [← perform_steps] at member
  obtain ⟨front, step, back, split, before, after⟩ :=
    perform_turn (motive := fun run => u ∈ run.unaligned) (by simp) member
  obtain ⟨d, raw, rfl, version, own⟩ := (reported_of_step after).resolve_left before
  have inside : Step.declaration u.owner d ∈ steps s := by simp [split]
  obtain ⟨m, present, -, earlier, later, declares, -⟩ := declaration_mem_steps.1 inside
  obtain ⟨-, coordinate, -⟩ := Verdict.gap?_of_mem_unaligned own
  exact ⟨m, earlier.length, d, raw, present, by simp [declares], coordinate.symm, version, front,
    back, split, own⟩

variable {u : Unaligned} {m : Module} {position : Nat} {d : Declaration} {raw : String}

theorem Reported.left (reported : Reported s u m position d raw) :
    s.given.channel d.coordinate ((Written.read s u.owner raw).current?.getD raw) =
        some u.target ∧
      Left s (declared s).locks d u.target (Written.read s u.owner raw) u.current u.reason := by
  obtain ⟨front, back, split, member⟩ := reported.stepped
  obtain ⟨-, -, gap⟩ := Verdict.gap?_of_mem_unaligned member
  obtain ⟨covered, left⟩ := left_of_judge gap
  refine ⟨covered, left.mono fun site lock locked => ?_⟩
  have ends : declared s = (({} : Run).perform s front |>.carryOut s u.owner d.coordinate raw
      (judge s (({} : Run).perform s front) u.owner d raw)).perform s back := by
    rw [← perform_steps, split, perform_append, perform_cons]
    simp [Step.perform, alignDeclaration, reported.version]
  rw [ends]
  exact locks_stay (fun step later => by simp [split, later]) locked

theorem Reported.beside (reported : Reported s u m position d raw) {new : String}
    (replaced : .overrideVersion u.owner d.coordinate raw new ∈ (declared s).changes.changes) :
    (u.reason = .ignoredScope ∨ u.reason = .notInjected) ∧ ∃ e ∈ m.declarations,
      e.coordinate = d.coordinate ∧ e.place ≠ d.place ∧ e.version = some raw := by
  obtain ⟨front, back, split, member⟩ := reported.stepped
  obtain ⟨covered, left⟩ := reported.left
  obtain ⟨-, -, gap⟩ := Verdict.gap?_of_mem_unaligned member
  have inside : Step.declaration u.owner d ∈ steps s := by simp [split]
  obtain ⟨n, present, heeded, first⟩ := declaration_mem_steps.1 inside
  obtain rfl : m = n := by simpa [reported.present] using present
  obtain ⟨front', step, back', split', adds⟩ := exists_adds replaced
  cases adds.replaces.2 with
  | asked same asks =>
    -- The declaration would have been settled, and not been reported.
    have own : Override.Asks s d raw new :=
      ⟨reported.version, same ▸ asks.wanted, same ▸ asks.foreign⟩
    have declares := List.mem_of_getElem? reported.declares
    have settled := settled_of_asks present heeded declares own split
    simp [judge, settled, Verdict.gap?] at gap
  | @judged e same version decided =>
    have other : Step.declaration u.owner e ∈ steps s := by simp [split']
    obtain ⟨n, present', -, first'⟩ := declaration_mem_steps.1 other
    obtain rfl : m = n := by simpa [reported.present] using present'
    rw [← same] at decided
    by_cases place : e.place = d.place
    -- In the same section it is the reported declaration itself, whose step changed nothing.
    · obtain rfl : e = d := first.unique first' (by simp [Declaration.key, same, place])
      obtain rfl := front_unique split split'
      simp [Verdict.change?_of_gap? gap] at decided
    -- In the other section it was judged by the same text, but with its own scope.
    · obtain ⟨live, replaced⟩ := replaced_of_judge decided
      have target : u.target = new := by simpa [covered, same] using live.covered
      have stay : ∀ site lock, (({} : Run).perform s front').locks.get? site = some lock →
          (declared s).locks.get? site = some lock := by
        intro site lock locked
        rw [← perform_steps, split', perform_append]
        exact locks_stay (fun step later => split' ▸ List.mem_append_right front' later) locked
      refine ⟨left.reason_of_replaced (target ▸ replaced) (same ▸ live.heeded) stay, e, ?_, same,
        place, version⟩
      obtain ⟨earlier, later, declares, -⟩ := first'
      simp [declares]

/-- Nothing that a run does elsewhere moves a reported declaration. -/
structure Undisturbed (s : Setting) (u : Unaligned) (m : Module) (d : Declaration) (raw : String)
    (changes : List Change) : Prop where
  free : ∀ name, reference? raw = some name → s.WayFree u.owner name
  /-- A property that was only looked up is not written with another value. -/
  kept : s.LooksUp u.reason → ∀ name r, reference? raw = some name →
    s.resolve u.owner name = .ok (some r) →
    ∀ value, propertyWrite r.site value ∈ changes → value = u.current
  /-- The text is not replaced for the sake of the module's other section. -/
  alone : u.reason = .ignoredScope ∨ u.reason = .notInjected →
    (∃ e ∈ m.declarations, e.coordinate = d.coordinate ∧ e.place ≠ d.place ∧
      e.version = some raw) →
    ∀ new, .overrideVersion u.owner d.coordinate raw new ∉ changes

theorem Reported.current?_changed (reported : Reported s u m position d raw)
    (literal : s.Literal)
    (undisturbed : Undisturbed s u m d raw (declared s).changes.changes) :
    (Written.read { s with project := s.project.applyAll (declared s).changes.changes } u.owner
      raw).current? = some u.current := by
  obtain ⟨-, left⟩ := reported.left
  cases named : reference? raw with
  | none =>
    have read : Written.read s u.owner raw = .literal raw := by simp [Written.read, named]
    have same : raw = u.current := (read ▸ left).eq_of_literal
    simpa [Written.read, named, Written.current?] using same
  | some name =>
    have read : Written.read s u.owner raw = .reference name (s.resolve u.owner name) := by
      simp [Written.read, named]
    obtain ⟨r, found, stays⟩ := (read ▸ left).resolved
    -- What was looked up is kept by assumption; a locked value is what the changes bind, if any.
    have ends : (boundBy (declared s).changes.changes r.site.spot).getD r.value = u.current := by
      rcases stays with ⟨looked, same⟩ | ⟨lock, locked, same⟩
      · have kept := undisturbed.kept looked name r named found
        exact (value_of_kept found (same ▸ kept)).trans same
      · exact (value_of_locked found locked).trans same
    rw [current?_along named found (undisturbed.free name named) fun value bound =>
      literal_of_write literal ((consistent_declared s).write_of_boundBy found bound), ends]

/-- Every entry of the report is that of a declaration, and the declaration keeps its text and
stays at the version of the entry, if nothing disturbs it. -/
theorem unaligned_holds (s : Setting) (literal : s.Literal) {u : Unaligned}
    (member : u ∈ (declared s).unaligned) :
    let changed := s.project.applyAll (declared s).changes.changes
    (∃ m position d raw, Reported s u m position d raw) ∧
      ∀ m position d raw, Reported s u m position d raw →
        Undisturbed s u m d raw (declared s).changes.changes →
        ∃ n, changed.module? u.owner = some n ∧ n.declarations[position]? = some d ∧
          (Written.read { s with project := changed } u.owner raw).current? = some u.current := by
  intro changed
  refine ⟨exists_reported member, fun m position d raw reported undisturbed => ?_⟩
  refine ⟨m.revised u.owner (declared s).changes.changes, ?_, ?_,
    reported.current?_changed literal undisturbed⟩
  · rw [Project.module?_revised, reported.present]
    rfl
  · have unreplaced : ∀ new, .overrideVersion u.owner d.coordinate raw new ∉
        (declared s).changes.changes := fun new replaced => by
      obtain ⟨reason, other⟩ := reported.beside replaced
      exact undisturbed.alone reason other new replaced
    rw [m.declarations_revised u.owner (declared_manages_nothing s), List.getElem?_map,
      reported.declares, Option.map_some,
      Declaration.revised_of_unreplaced reported.version unreplaced]

end Run

theorem Manifest.literal_setting {man : Manifest} (literal : man.IsLiteral) {o : Options}
    (unforced : (Policy.ofOptions o).Unforced) (p : Project) (given : Surroundings) :
    (man.setting p given o).Literal where
  channel := (regular_setting literal unforced p given).literal
  forced := by
    rintro name value (forced | ⟨c, forced⟩)
    · have property : (Policy.ofOptions o).propertyOverride? name = some value := forced
      simp [Policy.propertyOverride?, unforced.1] at property
    · have dependency : (Policy.ofOptions o).dependencyOverride? c = some value := forced
      simp [Policy.dependencyOverride?, unforced.2] at dependency

namespace Run

def codecBehind : Setting :=
  Manifest.setting
    { streams := [⟨"io.netty", "netty-codec", "2.0"⟩, ⟨"io.netty", "*", "2.1"⟩] } twoReaders .alone
    { doNotDowngrade := true }

theorem unaligned_holds_codecBehind :
    let u : Unaligned :=
      ⟨1, ⟨"io.netty", "netty-codec", "jar", none⟩, "2.1", "2.0", .downgradeRefused⟩
    let changed := twoReaders.applyAll (declared codecBehind).changes.changes
    ∃ m position d raw n, Reported codecBehind u m position d raw ∧
      changed.module? 1 = some n ∧ n.declarations[position]? = some d ∧
      (Written.read { codecBehind with project := changed } 1 raw).current? = some "2.1" := by
  intro u changed
  have literal : codecBehind.Literal :=
    Manifest.literal_setting (by unfold Manifest.IsLiteral; decide) ⟨rfl, rfl⟩ twoReaders .alone
  have member : u ∈ (declared codecBehind).unaligned := by decide +kernel
  obtain ⟨⟨m, position, d, raw, reported⟩, holds⟩ := unaligned_holds codecBehind literal member
  have undisturbed : Undisturbed codecBehind u m d raw (declared codecBehind).changes.changes := by
    refine ⟨?_, ?_, ?_⟩
    · rintro name - spot next - - ⟨n, -, -, -, forced⟩
      cases forced
    · rintro (inline | stream | scope | property)
      · cases inline
      · cases stream
      · cases scope
      · cases property
    · rintro (scope | withheld)
      · cases scope
      · cases withheld
  obtain ⟨n, present, declares, stays⟩ := holds m position d raw reported undisturbed
  exact ⟨m, position, d, raw, n, reported, present, declares, stays⟩

def bufferIgnored : Setting :=
  Manifest.setting { streams := [⟨"io.netty", "*", "2.0"⟩] }
    { modules := [
        { group := "org.acme", artifact := "parent", version := "1", isRoot := true
          properties := [("netty", "1.0")]
          declarations := [
            { coordinate := ⟨"io.netty", "netty-buffer", "jar", none⟩
              version := some "$\x7bnetty\x7d" },
            { coordinate := ⟨"io.netty", "netty-codec", "jar", none⟩
              version := some "$\x7bnetty\x7d" }] }]
      root := 0 }
    .alone { ignoreStreams := ["io.netty:netty-buffer"] }

theorem unaligned_lost :
    let buffer : Coordinate := ⟨"io.netty", "netty-buffer", "jar", none⟩
    let u : Unaligned := ⟨0, buffer, "1.0", "2.0", .ignoredStream⟩
    let changed := bufferIgnored.project.applyAll (declared bufferIgnored).changes.changes
    bufferIgnored.Literal ∧ u ∈ (declared bufferIgnored).unaligned ∧
      ((changed.module? 0).map fun n =>
        (n.declarations.filter (·.coordinate = buffer)).map (·.version)) =
          some [some "$\x7bnetty\x7d"] ∧
      (Written.read { bufferIgnored with project := changed } 0 "$\x7bnetty\x7d").current? =
        some "2.0" := by
  intro buffer u changed
  have literal : bufferIgnored.Literal :=
    Manifest.literal_setting (by unfold Manifest.IsLiteral; decide) ⟨rfl, rfl⟩ _ .alone
  exact ⟨literal, by decide +kernel, by decide +kernel, by decide +kernel⟩

end Run

end VersionAlignment
