import VersionAlignment.Proofs.ChannelRuns

set_option autoImplicit false

namespace VersionAlignment

open Property

namespace Setting

variable {s : Setting}

theorem isMove_of_isSame (maven : s.given.order = Version.compare) {a b : String}
    (same : s.isSame a b = true) : s.isMove a b = false := by
  have equal : Version.compare b a = .eq :=
    Version.compare_eq_symm (by simpa [isSame, maven] using same)
  simp [isMove, Version.isMove, maven, equal]

theorem isSame_self (maven : s.given.order = Version.compare) (a : String) :
    s.isSame a a = true := by
  simp [isSame, maven, Version.compare_self]

theorem isMove_self (maven : s.given.order = Version.compare) (a : String) :
    s.isMove a a = false :=
  isMove_of_isSame maven (isSame_self maven a)

end Setting

namespace Run

def Reports (run : Run) (index : Nat) (c : Coordinate) : Prop :=
  ∃ u ∈ run.unaligned, u.owner = index ∧ u.coordinate = c

def Warns (run : Run) (index : Nat) (c : Coordinate) : Prop :=
  ∃ w ∈ run.warnings, w.owner = index ∧ w.coordinate = c

section

variable {s : Setting} {run : Run} {index : Nat} {c : Coordinate} {raw : String} {v : Verdict}

theorem reports_of_gap? {current target : String} {reason : Reason}
    (gap : v.gap? = some (current, target, reason)) :
    s.isSame current target = true ∨ (run.carryOut s index c raw v).Reports index c := by
  by_cases same : s.isSame current target = true
  · exact .inl same
  · right
    refine ⟨⟨index, c, current, target, reason⟩, ?_, rfl, rfl⟩
    rw [carryOut_unaligned, List.mem_append]
    exact .inr (by simp [Verdict.unaligned, gap, same])

theorem warns_of_warnings {w : Warning} (warns : w ∈ v.warnings index c) :
    (run.carryOut s index c raw v).Warns index c := by
  refine ⟨w, ?_, ?_⟩
  · rw [carryOut_warnings, List.mem_append]
    exact .inr warns
  · cases v <;> simp_all [Verdict.warnings]

theorem mem_changes_of_change? {change : Change}
    (changes : v.change? index c raw = some change) :
    change ∈ (run.carryOut s index c raw v).changes.changes := by
  rw [carryOut_changes, changes]
  exact ChangeSet.mem_insert.2 (.inr rfl)

theorem get?_of_lock? {site : Site} {value : String} (free : run.locks.get? site = none)
    (locks : v.lock? = some (site, value)) :
    (run.carryOut s index c raw v).locks.get? site = some ⟨value, .channel⟩ := by
  simp [carryOut_locks, locks, Locks.get?_lock, free]

end

/-- The version that a text stands for once all changes are carried out, unless it is replaced. -/
inductive Fixes (s : Setting) (run : Run) : Written → String → Prop
  | literal {version : String} : Fixes s run (.literal version) version
  | inline {name : String} {r : Resolution} : s.options.inlineVersions = true →
      Fixes s run (.reference name (.ok (some r))) r.value
  | locked {name : String} {r : Resolution} {lock : Lock} :
    run.locks.get? r.site = some lock →
      Fixes s run (.reference name (.ok (some r))) lock.value

theorem Fixes.mono {s : Setting} {run later : Run} {written : Written} {current : String}
    (fixes : Fixes s run written current)
    (stay : ∀ site lock, run.locks.get? site = some lock → later.locks.get? site = some lock) :
    Fixes s later written current := by
  cases fixes with
  | literal => exact .literal
  | inline place => exact .inline place
  | locked found => exact .locked (stay _ _ found)

inductive Settled (s : Setting) (before run : Run) (index : Nat) (c : Coordinate)
    (raw target : String) (written : Written) : Prop
  | replaced : .overrideVersion index c raw target ∈ run.changes.changes →
      Settled s before run index c raw target written
  | fixed {current : String} : Fixes s run written current → s.isMove current target = false →
      s.isSame current target = true ∨ run.Reports index c →
      Settled s before run index c raw target written
  | ignored {name : String} {r : Resolution} : written = .reference name (.ok (some r)) →
      s.options.inlineVersions = false →
      s.policy.ignoresProperty name = true ∨ s.policy.ignoresProperty r.site.name = true →
      s.isSame r.value target = true ∨ run.Reports index c →
      Settled s before run index c raw target written
  | unresolved {name : String} {found : Except PropertyError (Option Resolution)} :
    written = .reference name found → written.current? = none →
      s.policy.ignoresProperty name = true ∨ run.Warns index c →
      Settled s before run index c raw target written
  | withheld {name : String} {r : Resolution} : written = .reference name (.ok (some r)) →
      s.options.inlineVersions = false → s.options.injectExternalProperties = false →
      r.site.outside = true → before.locks.get? r.site = none →
      run.locks.get? r.site = some ⟨r.value, .channel⟩ → s.isMove r.value target = true →
      run.Warns index c → s.isSame r.value target = true ∨ run.Reports index c →
      Settled s before run index c raw target written

theorem settled_inPlace {s : Setting} (run : Run) {index : Nat} {c : Coordinate}
    {raw target current : String} {written : Written} (read : written.current? = some current)
    (place : s.options.inlineVersions = true ∨ written = .literal current) :
    Settled s run (run.carryOut s index c raw (Verdict.ofInline s current target)) index c raw
      target written := by
  by_cases move : s.isMove current target = true
  · refine .replaced (mem_changes_of_change? ?_)
    simp [Verdict.ofInline, move, Verdict.change?]
  -- A text that stays is reported unless it is the channel's version by another name.
  · have still : s.isMove current target = false := by simpa using move
    have leave : Verdict.ofInline s current target = .leave current target .downgradeRefused := by
      simp [Verdict.ofInline, move]
    rw [leave]
    refine .fixed ?_ still (reports_of_gap? rfl)
    rcases place with place | rfl
    · rcases written with version | ⟨name, _ | _ | r⟩
      · cases read
        exact .literal
      · cases read
      · cases read
      · cases read
        exact .inline place
    · exact .literal

theorem settled_locked {s : Setting} (maven : s.given.order = Version.compare) {run : Run}
    {index : Nat} {c : Coordinate} {raw target name : String} {r : Resolution} {lock : Lock}
    (found : run.locks.get? r.site = some lock) (origin : lock.origin = .channel) :
    Settled s run (run.carryOut s index c raw (Verdict.ofLocked s r.site lock target)) index c raw
      target (.reference name (.ok (some r))) := by
  by_cases same : s.isSame lock.value target = true
  · have pass : Verdict.ofLocked s r.site lock target = .pass := by
      simp [Verdict.ofLocked, origin, same]
    rw [pass]
    exact .fixed (.locked found) (Setting.isMove_of_isSame maven same) (.inl same)
  · by_cases move : s.isMove lock.value target = true
    · have beside : Verdict.ofLocked s r.site lock target =
          .inlineBeside r.site lock.value target := by
        simp [Verdict.ofLocked, origin, same, move]
      rw [beside]
      exact .replaced (mem_changes_of_change? rfl)
    · have leave : Verdict.ofLocked s r.site lock target =
          .leave lock.value target .downgradeRefused := by
        simp [Verdict.ofLocked, origin, same, move]
      have still : s.isMove lock.value target = false := by simpa using move
      rw [leave]
      refine .fixed (.locked ?_) still (reports_of_gap? rfl)
      rw [carryOut_locks]
      exact found

theorem settled_unlocked {s : Setting} (maven : s.given.order = Version.compare) {run : Run}
    {index : Nat} {c : Coordinate} {raw target name : String} {r : Resolution}
    (apart : s.options.inlineVersions = false) (free : run.locks.get? r.site = none) :
    Settled s run (run.carryOut s index c raw (Verdict.ofUnlocked s r.site r.value target)) index c
      raw target (.reference name (.ok (some r))) := by
  by_cases move : s.isMove r.value target = true
  · by_cases shut : r.site.outside = true ∧ s.options.injectExternalProperties = false
    · have withhold : Verdict.ofUnlocked s r.site r.value target =
          .withhold r.site r.value target := by
        simp [Verdict.ofUnlocked, move, shut]
      rw [withhold]
      exact .withheld rfl apart shut.2 shut.1 free (get?_of_lock? free rfl) move
        (warns_of_warnings (List.mem_singleton.2 rfl)) (reports_of_gap? rfl)
    · have write : Verdict.ofUnlocked s r.site r.value target = .write r.site target := by
        simp only [Verdict.ofUnlocked, move]
        grind
      rw [write]
      exact .fixed (.locked (get?_of_lock? free rfl)) (Setting.isMove_self maven target)
        (.inl (Setting.isSame_self maven target))
  · have hold : Verdict.ofUnlocked s r.site r.value target = .hold r.site r.value target := by
      simp [Verdict.ofUnlocked, move]
    have still : s.isMove r.value target = false := by simpa using move
    rw [hold]
    exact .fixed (.locked (get?_of_lock? free rfl)) still (reports_of_gap? rfl)

theorem Sound.settled {s : Setting} {run : Run} (sound : Sound s run)
    (maven : s.given.order = Version.compare) {index : Nat} {d : Declaration}
    {raw target : String} (live : Live s run index d raw target) :
    Settled s run (run.carryOut s index d.coordinate raw (judge s run index d raw)) index
      d.coordinate raw target (Written.read s index raw) := by
  rw [judge_of_live live]
  have targeted := ofTarget_targeted s run.locks target (Written.read s index raw)
  generalize Verdict.ofTarget s run.locks target (Written.read s index raw) = v at targeted
  generalize Written.read s index raw = written at targeted
  cases targeted with
  | inPlace read place => exact settled_inPlace run read place
  | unresolved read =>
    exact .unresolved rfl read (.inr (warns_of_warnings (List.mem_singleton.2 rfl)))
  | unresolvedIgnored read ignored => exact .unresolved rfl read (.inl ignored)
  | ignored apart ignored => exact .ignored rfl apart ignored (reports_of_gap? rfl)
  | locked _ _ _ found => exact settled_locked maven found (sound.locked _ _ found).1
  | unlocked apart _ _ free => exact settled_unlocked maven apart free

section

variable {s : Setting}

theorem perform_property (unforced : s.policy.Unforced) (run : Run) (m : Module) (index : Nat)
    (entry : String × String) : (Step.property m index entry).perform s run = run := by
  simp [Step.perform, Override.property, Policy.propertyOverride?, unforced.1]

theorem perform_dependency (unforced : s.policy.Unforced) (run : Run) (index : Nat)
    (d : Declaration) : (Step.dependency index d).perform s run = run := by
  simp [Step.perform, Override.declaration, Policy.dependencyOverride?, unforced.2]

theorem Sound.step (unforced : s.policy.Unforced) {run : Run} (sound : Sound s run) (step : Step) :
    Sound s (step.perform s run) := by
  cases step with
  | property => rwa [perform_property unforced]
  | dependency => rwa [perform_dependency unforced]
  | note message => exact sound.note message
  | declaration index d => exact sound.alignDeclaration index d

theorem Sound.perform (unforced : s.policy.Unforced) {run : Run} (sound : Sound s run)
    (part : List Step) : Sound s (run.perform s part) :=
  perform_induction sound fun _ step _ sound => sound.step unforced step

theorem sound_declared (unforced : s.policy.Unforced) : Sound s (declared s) := by
  rw [← perform_steps]
  exact (sound_empty s).perform unforced (steps s)

theorem step_records (unforced : s.policy.Unforced) (run : Run) (step : Step) :
    ∃ gaps warnings, (step.perform s run).unaligned = run.unaligned ++ gaps ∧
      (step.perform s run).warnings = run.warnings ++ warnings := by
  cases step with
  | property => exact ⟨[], [], by simp [perform_property unforced]⟩
  | dependency => exact ⟨[], [], by simp [perform_dependency unforced]⟩
  | note => exact ⟨[], [], by simp [Step.perform, note]⟩
  | declaration index d =>
    simp only [Step.perform, alignDeclaration]
    split
    · exact ⟨[], [], by simp⟩
    · exact ⟨_, _, carryOut_unaligned .., carryOut_warnings ..⟩

theorem Reports.perform (unforced : s.policy.Unforced) {run : Run} {index : Nat} {c : Coordinate}
    (reports : run.Reports index c) (part : List Step) : (run.perform s part).Reports index c := by
  refine perform_induction (motive := fun run => run.Reports index c) reports ?_
  rintro run step - ⟨u, present, here⟩
  obtain ⟨gaps, _, grown, -⟩ := step_records unforced run step
  exact ⟨u, by simp [grown, present], here⟩

theorem Warns.perform (unforced : s.policy.Unforced) {run : Run} {index : Nat} {c : Coordinate}
    (warns : run.Warns index c) (part : List Step) : (run.perform s part).Warns index c := by
  refine perform_induction (motive := fun run => run.Warns index c) warns ?_
  rintro run step - ⟨w, present, here⟩
  obtain ⟨_, warnings, -, grown⟩ := step_records unforced run step
  exact ⟨w, by simp [grown, present], here⟩

theorem Settled.perform (unforced : s.policy.Unforced) {before run : Run} {index : Nat}
    {c : Coordinate} {raw target : String} {written : Written}
    (settled : Settled s before run index c raw target written) {part : List Step}
    (all : ∀ step ∈ part, step ∈ steps s) :
    Settled s before (run.perform s part) index c raw target written := by
  cases settled with
  | replaced present => exact .replaced (changes_stay all present)
  | fixed fixes still told =>
    exact .fixed (fixes.mono fun _ _ => locks_stay all) still
      (told.imp_right fun reports => reports.perform unforced part)
  | ignored read apart ignored told =>
    exact .ignored read apart ignored (told.imp_right fun reports => reports.perform unforced part)
  | unresolved read missing told =>
    exact .unresolved read missing (told.imp_right fun warns => warns.perform unforced part)
  | withheld read apart shut outside free found move warns told =>
    exact .withheld read apart shut outside free (locks_stay all found) move
      (warns.perform unforced part) (told.imp_right fun reports => reports.perform unforced part)

theorem declared_split (unforced : s.policy.Unforced) {index : Nat} {m : Module} {d : Declaration}
    {raw : String} (inside : s.project.module? index = some m)
    (included : s.policy.ignoresModule m = false) (first : d.IsFirst m.declarations)
    (version : d.version = some raw) :
    ∃ before back, Sound s before ∧ (∀ step ∈ back, step ∈ steps s) ∧
      declared s =
        (before.carryOut s index d.coordinate raw (judge s before index d raw)).perform s back := by
  have member : Step.declaration index d ∈ steps s :=
    declaration_mem_steps.2 ⟨m, inside, included, first⟩
  -- Every step before the declaration's own keeps the run sound.
  obtain ⟨front, back, split⟩ := List.append_of_mem member
  refine ⟨({} : Run).perform s front, back, (sound_empty s).perform unforced front, ?_, ?_⟩
  · intro step inside
    simp [split, inside]
  · rw [← perform_steps, split, perform_append, perform_cons]
    simp [Step.perform, alignDeclaration, version]

theorem declared_settled (maven : s.given.order = Version.compare)
    (unforced : s.policy.Unforced) {index : Nat} {m : Module} {d : Declaration}
    {raw target : String} (inside : s.project.module? index = some m)
    (included : s.policy.ignoresModule m = false) (first : d.IsFirst m.declarations)
    (version : d.version = some raw) (foreign : s.project.owns d.coordinate = false)
    (heeded : s.policy.ignores? d.coordinate d.effectiveScope = none)
    (covered : s.given.channel d.coordinate ((Written.read s index raw).current?.getD raw) =
      some target) :
    ∃ before, Settled s before (declared s) index d.coordinate raw target
      (Written.read s index raw) := by
  obtain ⟨before, back, sound, all, split⟩ := declared_split unforced inside included first version
  have live : Live s before index d raw target :=
    ⟨foreign, by simp [sound.overridden], heeded, covered⟩
  exact ⟨before, split ▸ (sound.settled maven live).perform unforced all⟩

end

end Run

end VersionAlignment
