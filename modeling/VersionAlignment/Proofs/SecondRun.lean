import VersionAlignment.Proofs.Idle
import VersionAlignment.Proofs.NextProject

set_option autoImplicit false

namespace VersionAlignment

open Property

def Setting.Manages (s : Setting) (more : List Change) : Prop :=
  ∀ change ∈ more, ∃ owner c target exclusions former current,
    change = .manage owner c target exclusions former ∧ s.given.channel c current = some target

theorem Setting.Manages.all {s : Setting} {more : List Change} (managing : s.Manages more) :
    ∀ change ∈ more, change.Manages := by
  intro change member
  obtain ⟨_, _, _, _, _, _, rfl, -⟩ := managing change member
  trivial

/-- The setting of the run after this one, where some dependencies are managed besides. -/
def Setting.next (s : Setting) (more : List Change) : Setting :=
  { s with project := s.project.applyAll ((Run.declared s).changes.changes ++ more) }

theorem Written.current?_rebind_eq_none {written : Written} (values : Spot Nat → Option String)
    (missing : written.current? = none) : (written.rebind values).current? = none := by
  rcases written with version | ⟨name, _ | _ | r⟩
  · cases missing
  · rfl
  · rfl
  · cases missing

namespace Verdict

variable {s : Setting} {locks : Locks} {target name : String} {r : Resolution}

theorem ofTarget_ignored (apart : s.options.inlineVersions = false)
    (ignored : s.policy.ignoresProperty name = true ∨ s.policy.ignoresProperty r.site.name = true) :
    ofTarget s locks target (.reference name (.ok (some r))) =
      .leave r.value target .ignoredProperty := by
  simp only [ofTarget, ofReference, ofResolution, apart, Bool.false_eq_true, if_false]
  grind

theorem change?_ofTarget_shut {index : Nat} {c : Coordinate} {raw : String}
    (apart : s.options.inlineVersions = false) (outside : r.site.outside = true)
    (shut : s.options.injectExternalProperties = false) (free : locks.get? r.site = none) :
    (ofTarget s locks target (.reference name (.ok (some r)))).change? index c raw = none := by
  by_cases ignored :
      s.policy.ignoresProperty name = true ∨ s.policy.ignoresProperty r.site.name = true
  · rw [ofTarget_ignored apart ignored]
    rfl
  · rw [not_or] at ignored
    simp only [ofTarget, ofReference, ofResolution, ofUnlocked, apart, ignored, free, outside, shut]
    by_cases move : s.isMove r.value target = true <;> simp [move, change?]

theorem exists_lock?_ofUnlocked (s : Setting) (site : Site) (current target : String) :
    ∃ value, (ofUnlocked s site current target).lock? = some (site, value) := by
  unfold ofUnlocked
  split
  · exact ⟨current, rfl⟩
  · split
    · exact ⟨current, rfl⟩
    · exact ⟨target, rfl⟩

theorem followed_of_lock? {site : Site} {value : String}
    (apart : s.options.inlineVersions = false)
    (locks : (ofTarget s locks target (.reference name (.ok (some r)))).lock? =
      some (site, value)) :
    s.policy.ignoresProperty name = false ∧ s.policy.ignoresProperty r.site.name = false := by
  by_cases ignored :
      s.policy.ignoresProperty name = true ∨ s.policy.ignoresProperty r.site.name = true
  · rw [ofTarget_ignored apart ignored] at locks
    cases locks
  · simpa using ignored

end Verdict

namespace Run

section

variable {s : Setting} {run : Run}

theorem Sound.inert_of_literal (sound : Sound s run) (idle : run.changes.changes = [])
    (index : Nat) (d : Declaration) {raw : String} (literal : reference? raw = none)
    (still : ∀ target, s.given.channel d.coordinate raw = some target →
      s.isMove raw target = false) :
    (judge s run index d raw).change? index d.coordinate raw = none ∧
      (judge s run index d raw).lock? = none := by
  have read : Written.read s index raw = .literal raw := by simp [Written.read, literal]
  constructor
  · have judged := judge_judged s run index d raw
    generalize verdict : judge s run index d raw = v at judged
    cases judged with
    | exempt | ignored | silent | uncovered => rfl
    | live live =>
      have covered := live.covered
      rw [read] at covered
      have rests := sound.rests idle live fun current here => by
        rw [read] at here
        cases here
        exact still _ covered
      rw [verdict] at rests
      exact rests.unchanged
  · cases locked : (judge s run index d raw).lock? with
    | none => rfl
    | some entry =>
      obtain ⟨-, -, name, r, here, -⟩ := lock?_judge locked
      simp [read] at here

theorem Sound.unbound_of_shut (sound : Sound s run) {owner : Nat} {name : String} {r : Resolution}
    (found : s.resolve owner name = .ok (some r)) (outside : r.site.outside = true)
    (shut : s.options.injectExternalProperties = false) :
    boundBy run.changes.changes r.site.spot = none := by
  cases bound : boundBy run.changes.changes r.site.spot with
  | none => rfl
  | some value =>
    have present := sound.toConsistent.write_of_boundBy found bound
    have inject := (Setting.sanctions_propertyWrite.1 (sound.sanctioned _ present)).1
    simp [inject outside] at shut

theorem locked_of_live {index : Nat} {d : Declaration} {raw target name : String} {r : Resolution}
    (live : Live s run index d raw target) (apart : s.options.inlineVersions = false)
    (read : Written.read s index raw = .reference name (.ok (some r)))
    (heeded : s.policy.ignoresProperty name = false)
    (followed : s.policy.ignoresProperty r.site.name = false) :
    ∃ lock, (run.carryOut s index d.coordinate raw (judge s run index d raw)).locks.get? r.site =
      some lock := by
  have verdict : judge s run index d raw = Verdict.ofResolution s run.locks r target := by
    rw [judge_of_live live, read]
    simp [Verdict.ofTarget, Verdict.ofReference, apart, heeded]
  cases found : run.locks.get? r.site with
  | some lock =>
    refine ⟨lock, ?_⟩
    have locked : judge s run index d raw = Verdict.ofLocked s r.site lock target := by
      simp [verdict, Verdict.ofResolution, followed, found]
    rw [carryOut_locks, locked, Verdict.lock?_ofLocked]
    exact found
  | none =>
    have unlocked : judge s run index d raw = Verdict.ofUnlocked s r.site r.value target := by
      simp [verdict, Verdict.ofResolution, followed, found]
    obtain ⟨value, locks⟩ := Verdict.exists_lock?_ofUnlocked s r.site r.value target
    exact ⟨_, get?_of_lock? found (unlocked ▸ locks)⟩

end

variable {s : Setting} {more : List Change}

theorem read_next (regular : s.Regular) (managing : s.Manages more) (index : Nat) (raw : String) :
    Written.read (s.next more) index raw =
      (Written.read s index raw).rebind (boundBy (declared s).changes.changes) := by
  -- Managing dependencies binds no property.
  have rebound :
      Rebound s.project (s.next more).project (boundBy (declared s).changes.changes) := by
    have all := s.project.rebound_applyAll ((declared s).changes.changes ++ more)
    rwa [boundBy_append_manages managing.all] at all
  exact (sound_declared regular.unforced).read_rebound regular.literal rebound index raw

/-- The second run has changed nothing, and has locked only what the first one has. -/
structure Trails (s : Setting) (more : List Change) (run later : Run) : Prop where
  sound : Sound (s.next more) later
  idle : later.changes.changes = []
  locked : ∀ site lock, later.locks.get? site = some lock →
    ∃ other old, other.spot = site.spot ∧ run.locks.get? other = some old

namespace Trails

variable {run later : Run}

theorem mono (trails : Trails s more run later) {further : Run}
    (stay : ∀ site lock, run.locks.get? site = some lock → further.locks.get? site = some lock) :
    Trails s more further later where
  sound := trails.sound
  idle := trails.idle
  locked site lock found := by
    obtain ⟨other, old, here, first⟩ := trails.locked site lock found
    exact ⟨other, old, here, stay other old first⟩

theorem carryOut (trails : Trails s more run later) {index : Nat} {d : Declaration} {raw : String}
    (unchanged : (judge (s.next more) later index d raw).change? index d.coordinate raw = none)
    (locks : ∀ site value, (judge (s.next more) later index d raw).lock? = some (site, value) →
      ∃ other old, other.spot = site.spot ∧ run.locks.get? other = some old) :
    Trails s more run (later.carryOut (s.next more) index d.coordinate raw
      (judge (s.next more) later index d raw)) where
  sound := trails.sound.judged index d raw
  idle := by
    rw [carryOut_changes, unchanged]
    exact trails.idle
  locked site lock found := by
    rw [carryOut_locks] at found
    cases new : (judge (s.next more) later index d raw).lock? with
    | none =>
      rw [new] at found
      exact trails.locked site lock found
    | some entry =>
      obtain ⟨here, value⟩ := entry
      rw [new, Locks.get?_lock] at found
      split at found
      · next same => exact same ▸ locks here value new
      · exact trails.locked site lock found

theorem free (trails : Trails s more run later) (sound : Sound s run) {owner : Nat} {name : String}
    {r : Resolution} (found : s.resolve owner name = .ok (some r))
    (free : run.locks.get? r.site = none) : later.locks.get? r.site = none := by
  cases locked : later.locks.get? r.site with
  | none => rfl
  | some lock =>
    obtain ⟨other, old, here, first⟩ := trails.locked r.site lock locked
    have same : other = r.site :=
      (sound.placed other old first).eq_of_spot (ends_of_resolve found).hasSite here
    simp [same, free] at first

theorem unchanged (trails : Trails s more run later) (regular : s.Regular)
    (managing : s.Manages more) (sound : Sound s run) {index : Nat} {d : Declaration}
    {c : Coordinate} {raw target : String} (live : Live (s.next more) later index d raw target)
    (settled : Settled s run (declared s) index c raw target (Written.read s index raw))
    (kept : .overrideVersion index c raw target ∉ (declared s).changes.changes) :
    (judge (s.next more) later index d raw).change? index d.coordinate raw = none := by
  have read := read_next regular managing index raw
  have final : Sound s (declared s) := sound_declared regular.unforced
  cases settled with
  | replaced present => exact absurd present kept
  | @fixed current fixes still _ =>
    -- The text now stands for the version that the first run fixed it at.
    have stays := final.current?_rebound fixes
    refine (trails.sound.rests trails.idle live ?_).unchanged
    intro other here
    rw [read, stays, Option.some.injEq] at here
    exact here ▸ still
  | @ignored name r here apart ignored _ =>
    -- The value may have changed, yet the property is ignored under the same names.
    have name := r.name_rebind (boundBy (declared s).changes.changes)
    rw [judge_of_live live, read, here, Written.rebind, Except.map, Option.map,
      Verdict.ofTarget_ignored (s := s.next more) apart (name ▸ ignored)]
    rfl
  | unresolved here missing _ =>
    refine (trails.sound.rests trails.idle live ?_).unchanged
    intro other present
    rw [read, Written.current?_rebind_eq_none _ missing] at present
    cases present
  | @withheld name r here apart shut outside unlocked =>
    -- The property is not written, so that it still lies outside, and nobody has locked it.
    have found := Written.resolve_of_read here
    have same : r.rebind (boundBy (declared s).changes.changes) = r := by
      simp [Resolution.rebind, final.unbound_of_shut found outside shut]
    rw [judge_of_live live, read, here, Written.rebind, Except.map, Option.map, same]
    exact Verdict.change?_ofTarget_shut apart outside shut (trails.free sound found unlocked)

theorem locks (regular : s.Regular) (managing : s.Manages more) {index : Nat} {d e : Declaration}
    {raw target : String} (live : Live s run index d raw target)
    (live' : Live (s.next more) later index e raw target) {site : Site} {value : String}
    (locks : (judge (s.next more) later index e raw).lock? = some (site, value)) :
    ∃ other old, other.spot = site.spot ∧
      (run.carryOut s index d.coordinate raw (judge s run index d raw)).locks.get? other =
        some old := by
  obtain ⟨-, apart, name, after, read', rfl, -⟩ := lock?_judge locks
  -- An ignored property is not locked, so the first run has followed this one as well.
  rw [judge_of_live live', read'] at locks
  obtain ⟨heeded, followed⟩ := Verdict.followed_of_lock? apart locks
  rw [read_next regular managing] at read'
  generalize read : Written.read s index raw = written at read'
  rcases written with _ | ⟨_, _ | _ | r⟩
  · cases read'
  · cases read'
  · cases read'
  · cases read'
    have spot := r.spot_rebind (boundBy (declared s).changes.changes)
    have name := r.name_rebind (boundBy (declared s).changes.changes)
    obtain ⟨lock, locked⟩ := locked_of_live live apart read heeded (name ▸ followed)
    exact ⟨r.site, lock, spot.symm, locked⟩

end Trails

end Run

end VersionAlignment
