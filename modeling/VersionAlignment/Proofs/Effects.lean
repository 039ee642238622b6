import VersionAlignment.Alignment.Declared

set_option autoImplicit false

namespace VersionAlignment

open Property

def Setting.ofOptions (p : Project) (given : Surroundings) (o : Options) : Setting :=
  ⟨p, Policy.ofOptions o, o, given⟩

namespace ChangeSet

theorem mem_insert {set : ChangeSet} {change other : Change} :
    other ∈ (set.insert change).changes ↔ other ∈ set.changes ∨ other = change := by
  by_cases present : change ∈ set.changes
  · simp only [insert, push, present, if_true]
    grind
  · simp [insert, push, present]

theorem nodup_insert {set : ChangeSet} {change : Change} (nodup : set.changes.Nodup) :
    (set.insert change).changes.Nodup := by
  by_cases present : change ∈ set.changes
  · simpa [insert, push, present] using nodup
  · simp only [insert, push, present, if_false]
    rw [List.nodup_append]
    refine ⟨nodup, by simp, ?_⟩
    intro old inside new single same
    rw [List.mem_singleton] at single
    exact present (single ▸ same ▸ inside)

end ChangeSet

theorem propertyWrite_inj {a b : Site} {v w : String} :
    propertyWrite a v = propertyWrite b w ↔ a = b ∧ v = w := by
  rcases a with ⟨_, _, _ | _⟩ <;> rcases b with ⟨_, _, _ | _⟩ <;>
    simp [propertyWrite, and_assoc]

theorem overrideVersion_ne_propertyWrite (index : Nat) (c : Coordinate) (old new : String)
    (site : Site) (value : String) :
    Change.overrideVersion index c old new ≠ propertyWrite site value := by
  rcases site with ⟨_, _, _ | _⟩ <;> simp [propertyWrite]

namespace Verdict

def change? (index : Nat) (c : Coordinate) (raw : String) : Verdict → Option Change
  | .inline _ target => some (.overrideVersion index c raw target)
  | .inlineBeside _ _ target => some (.overrideVersion index c raw target)
  | .write site target => some (propertyWrite site target)
  | _ => none

def lock? : Verdict → Option (Site × String)
  | .write site target => some (site, target)
  | .hold site current _ => some (site, current)
  | .withhold site current _ => some (site, current)
  | _ => none

def gap? : Verdict → Option (String × String × Reason)
  | .leave current target reason => some (current, target, reason)
  | .hold _ current target => some (current, target, .downgradeRefused)
  | .withhold _ current target => some (current, target, .notInjected)
  | _ => none

def unaligned (s : Setting) (index : Nat) (c : Coordinate) (v : Verdict) : List Unaligned :=
  match v.gap? with
  | some (current, target, reason) =>
    if s.isSame current target then [] else [⟨index, c, current, target, reason⟩]
  | none => []

def warnings (index : Nat) (c : Coordinate) : Verdict → List Warning
  | .unresolved property error =>
    [⟨index, c, some property, (error.map PropertyError.message).getD undefinedMessage⟩]
  | .withhold site _ _ => [⟨index, c, some site.name, withheldMessage⟩]
  | _ => []

end Verdict

namespace Run

variable (run : Run) (s : Setting) (index : Nat) (c : Coordinate) (raw : String) (v : Verdict)

theorem report_eq (u : Unaligned) :
    run.report s u = { run with
      unaligned := run.unaligned ++ if s.isSame u.current u.target then [] else [u] } := by
  unfold report
  split <;> simp

theorem carryOut_changes :
    (run.carryOut s index c raw v).changes =
      match v.change? index c raw with
      | some change => run.changes.insert change
      | none => run.changes := by
  cases v <;>
    simp [carryOut, Verdict.change?, report_eq, note, push, lock, warn, leaveUncovered]

variable {run s index c raw v} in
theorem mem_carryOut_changes {change : Change} :
    change ∈ (run.carryOut s index c raw v).changes.changes ↔
      change ∈ run.changes.changes ∨ v.change? index c raw = some change := by
  rw [carryOut_changes]
  cases v.change? index c raw with
  | none => simp
  | some other => simp [ChangeSet.mem_insert, eq_comm]

theorem carryOut_locks :
    (run.carryOut s index c raw v).locks =
      match v.lock? with
      | some (site, value) => run.locks.lock site ⟨value, .channel⟩
      | none => run.locks := by
  cases v <;>
    simp [carryOut, Verdict.lock?, report_eq, note, push, lock, warn, leaveUncovered]

theorem carryOut_overridden : (run.carryOut s index c raw v).overridden = run.overridden := by
  cases v <;> simp [carryOut, report_eq, note, push, lock, warn, leaveUncovered]

theorem carryOut_notCovered : (run.carryOut s index c raw v).notCovered =
    if v = .uncovered then Sorted.insert c run.notCovered else run.notCovered := by
  cases v <;> simp [carryOut, report_eq, note, push, lock, warn, leaveUncovered]

theorem carryOut_unaligned :
    (run.carryOut s index c raw v).unaligned = run.unaligned ++ v.unaligned s index c := by
  cases v <;>
    simp [carryOut, Verdict.unaligned, Verdict.gap?, report_eq, note, push, lock, warn,
      leaveUncovered]

theorem carryOut_warnings :
    (run.carryOut s index c raw v).warnings = run.warnings ++ v.warnings index c := by
  cases v <;>
    simp [carryOut, Verdict.warnings, report_eq, note, push, lock, warn, leaveUncovered]

end Run

structure Live (s : Setting) (run : Run) (index : Nat) (d : Declaration) (raw target : String) :
    Prop where
  foreign : s.project.owns d.coordinate = false
  free : (index, d.coordinate) ∉ run.overridden
  heeded : s.policy.ignores? d.coordinate d.effectiveScope = none
  covered : s.given.channel d.coordinate ((Written.read s index raw).current?.getD raw) =
    some target

inductive Judged (s : Setting) (run : Run) (index : Nat) (d : Declaration) (raw : String) :
    Verdict → Prop
  | exempt : s.project.owns d.coordinate = true ∨ (index, d.coordinate) ∈ run.overridden →
      Judged s run index d raw .pass
  | ignored {current target : String} {reason : Reason} : s.project.owns d.coordinate = false →
      s.policy.ignores? d.coordinate d.effectiveScope = some reason →
      (Written.read s index raw).current? = some current →
      s.given.channel d.coordinate current = some target →
      Judged s run index d raw (.leave current target reason)
  | silent : s.policy.ignores? d.coordinate d.effectiveScope ≠ none →
      (∀ current ∈ (Written.read s index raw).current?,
        s.given.channel d.coordinate current = none) →
      Judged s run index d raw .pass
  | uncovered :
    s.given.channel d.coordinate ((Written.read s index raw).current?.getD raw) = none →
      Judged s run index d raw .uncovered
  | live {target : String} : Live s run index d raw target →
      Judged s run index d raw (Verdict.ofTarget s run.locks target (Written.read s index raw))

theorem judge_judged (s : Setting) (run : Run) (index : Nat) (d : Declaration) (raw : String) :
    Judged s run index d raw (judge s run index d raw) := by
  unfold judge
  split
  · next exempt => exact .exempt (by simpa using exempt)
  · next own =>
    simp only [Bool.or_eq_true, List.contains_iff_mem, not_or] at own
    cases ignored : s.policy.ignores? d.coordinate d.effectiveScope with
    | some reason =>
      cases read : (Written.read s index raw).current? with
      | none =>
        simp only [Verdict.ofIgnored, read]
        exact .silent (by simp [ignored]) (by simp [read])
      | some current =>
        cases covered : s.given.channel d.coordinate current with
        | none =>
          simp only [Verdict.ofIgnored, read, covered]
          exact .silent (by simp [ignored]) (by simpa [read] using covered)
        | some target =>
          simp only [Verdict.ofIgnored, read, covered]
          exact .ignored (by simpa using own.1) ignored read covered
    | none =>
      cases covered : s.given.channel d.coordinate
          ((Written.read s index raw).current?.getD raw) with
      | none =>
        simp only [covered]
        exact .uncovered covered
      | some target =>
        simp only [covered]
        exact .live ⟨by simpa using own.1, own.2, ignored, covered⟩

theorem judge_of_live {s : Setting} {run : Run} {index : Nat} {d : Declaration}
    {raw target : String} (live : Live s run index d raw target) :
    judge s run index d raw =
      Verdict.ofTarget s run.locks target (Written.read s index raw) := by
  simp [judge, live.foreign, live.free, live.heeded, live.covered]

inductive Targeted (s : Setting) (locks : Locks) (target : String) : Written → Verdict → Prop
  | inPlace {written : Written} {current : String} : written.current? = some current →
      (s.options.inlineVersions = true ∨ written = .literal current) →
      Targeted s locks target written (Verdict.ofInline s current target)
  | unresolved {name : String} {found : Except PropertyError (Option Resolution)}
      {error : Option PropertyError} : (Written.reference name found).current? = none →
      Targeted s locks target (.reference name found) (.unresolved name error)
  | unresolvedIgnored {name : String} {found : Except PropertyError (Option Resolution)} :
    (Written.reference name found).current? = none → s.policy.ignoresProperty name = true →
      Targeted s locks target (.reference name found) .pass
  | ignored {name : String} {r : Resolution} : s.options.inlineVersions = false →
      s.policy.ignoresProperty name = true ∨ s.policy.ignoresProperty r.site.name = true →
      Targeted s locks target (.reference name (.ok (some r)))
        (.leave r.value target .ignoredProperty)
  | locked {name : String} {r : Resolution} {lock : Lock} : s.options.inlineVersions = false →
      s.policy.ignoresProperty name = false → s.policy.ignoresProperty r.site.name = false →
      locks.get? r.site = some lock →
      Targeted s locks target (.reference name (.ok (some r)))
        (Verdict.ofLocked s r.site lock target)
  | unlocked {name : String} {r : Resolution} : s.options.inlineVersions = false →
      s.policy.ignoresProperty name = false → s.policy.ignoresProperty r.site.name = false →
      locks.get? r.site = none →
      Targeted s locks target (.reference name (.ok (some r)))
        (Verdict.ofUnlocked s r.site r.value target)

theorem ofTarget_targeted (s : Setting) (locks : Locks) (target : String) (written : Written) :
    Targeted s locks target written (Verdict.ofTarget s locks target written) := by
  cases written with
  | literal version => exact .inPlace rfl (.inr rfl)
  | reference name found =>
    by_cases place : s.options.inlineVersions = true
    · rcases found with error | _ | r
      · simpa [Verdict.ofTarget, place] using .unresolved rfl
      · simpa [Verdict.ofTarget, place] using .unresolved rfl
      · simpa [Verdict.ofTarget, place] using .inPlace rfl (.inl place)
    · have apart : s.options.inlineVersions = false := by simpa using place
      by_cases ignored : s.policy.ignoresProperty name = true
      · rcases found with error | _ | r
        · simpa [Verdict.ofTarget, Verdict.ofReference, apart, ignored] using
            .unresolvedIgnored rfl ignored
        · simpa [Verdict.ofTarget, Verdict.ofReference, apart, ignored] using
            .unresolvedIgnored rfl ignored
        · simpa [Verdict.ofTarget, Verdict.ofReference, apart, ignored] using
            .ignored apart (.inl ignored)
      · rcases found with error | _ | r
        · simpa [Verdict.ofTarget, Verdict.ofReference, apart, ignored] using .unresolved rfl
        · simpa [Verdict.ofTarget, Verdict.ofReference, apart, ignored] using .unresolved rfl
        · have heeded : s.policy.ignoresProperty name = false := by simpa using ignored
          simp only [Verdict.ofTarget, Verdict.ofReference, Verdict.ofResolution, apart, heeded,
            Bool.false_eq_true, if_false]
          by_cases inner : s.policy.ignoresProperty r.site.name = true
          · simpa [inner] using .ignored apart (.inr inner)
          · have followed : s.policy.ignoresProperty r.site.name = false := by simpa using inner
            cases locked : locks.get? r.site with
            | some lock => simpa [followed] using .locked apart heeded followed locked
            | none => simpa [followed] using .unlocked apart heeded followed locked

end VersionAlignment
