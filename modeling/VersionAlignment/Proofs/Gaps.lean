import VersionAlignment.Proofs.Settlement

set_option autoImplicit false

namespace VersionAlignment

open Property

theorem Policy.reason_of_ignores? {policy : Policy} {c : Coordinate} {scope : String}
    {reason : Reason} (ignores : policy.ignores? c scope = some reason) :
    reason = .ignoredStream ∧ policy.ignoresStream c = true ∨ reason = .ignoredScope := by
  unfold ignores? at ignores
  split at ignores
  · next stream => exact .inl ⟨(Option.some.inj ignores).symm, stream⟩
  · split at ignores
    · exact .inr (Option.some.inj ignores).symm
    · cases ignores

namespace Verdict

theorem change?_of_gap? {v : Verdict} {gap : String × String × Reason} (stays : v.gap? = some gap)
    (index : Nat) (c : Coordinate) (raw : String) : v.change? index c raw = none := by
  cases v <;> simp_all [gap?, change?]

theorem gap?_of_mem_unaligned {s : Setting} {v : Verdict} {index : Nat} {c : Coordinate}
    {u : Unaligned} (member : u ∈ v.unaligned s index c) :
    u.owner = index ∧ u.coordinate = c ∧ v.gap? = some (u.current, u.target, u.reason) := by
  unfold unaligned at member
  split at member
  · next gap =>
    split at member
    · simp at member
    · rw [List.mem_singleton] at member
      subst member
      exact ⟨rfl, rfl, gap⟩
  · simp at member

end Verdict

/-- Why a declaration stays behind: it is ignored, its text may not be lowered, or it refers to a
property that is ignored or locked. -/
inductive Left (s : Setting) (locks : Locks) (d : Declaration) (target : String) :
    Written → String → Reason → Prop
  | ignored {written : Written} {current : String} {reason : Reason} :
    s.policy.ignores? d.coordinate d.effectiveScope = some reason →
      written.current? = some current → Left s locks d target written current reason
  | inPlace {written : Written} {current : String} : written.current? = some current →
      (s.options.inlineVersions = true ∨ written = .literal current) →
      s.isMove current target = false → Left s locks d target written current .downgradeRefused
  | property {name : String} {r : Resolution} : s.options.inlineVersions = false →
      s.policy.ignoresProperty name = true ∨ s.policy.ignoresProperty r.site.name = true →
      Left s locks d target (.reference name (.ok (some r))) r.value .ignoredProperty
  | locked {name : String} {r : Resolution} {lock : Lock} {reason : Reason} :
    s.options.inlineVersions = false → locks.get? r.site = some lock →
      (lock.origin = .channel → reason ≠ .notInjected → s.isMove lock.value target = false) →
      Left s locks d target (.reference name (.ok (some r))) lock.value reason

inductive Replaced (s : Setting) (locks : Locks) (target : String) : Written → Prop
  | inPlace {written : Written} {current : String} : written.current? = some current →
      (s.options.inlineVersions = true ∨ written = .literal current) →
      s.isMove current target = true → Replaced s locks target written
  | beside {name : String} {r : Resolution} {lock : Lock} : s.options.inlineVersions = false →
      s.policy.ignoresProperty name = false → s.policy.ignoresProperty r.site.name = false →
      locks.get? r.site = some lock → lock.origin = .channel →
      s.isMove lock.value target = true → Replaced s locks target (.reference name (.ok (some r)))

theorem Replaced.exists_current? {s : Setting} {locks : Locks} {target : String}
    {written : Written} (replaced : Replaced s locks target written) :
    ∃ current, written.current? = some current := by
  cases replaced with
  | inPlace read => exact ⟨_, read⟩
  | @beside name r => exact ⟨r.value, rfl⟩

section

variable {s : Setting} {run : Run} {index : Nat} {d : Declaration} {raw target : String}

theorem Left.mono {locks later : Locks} {written : Written} {current : String} {reason : Reason}
    (left : Left s locks d target written current reason)
    (stay : ∀ site lock, locks.get? site = some lock → later.get? site = some lock) :
    Left s later d target written current reason := by
  cases left with
  | ignored ignores read => exact .ignored ignores read
  | inPlace read place still => exact .inPlace read place still
  | property apart ignored => exact .property apart ignored
  | locked apart locked still => exact .locked apart (stay _ _ locked) still

theorem left_of_ofLocked {locks : Locks} {name current goal : String} {r : Resolution}
    {lock : Lock} {reason : Reason} (apart : s.options.inlineVersions = false)
    (locked : locks.get? r.site = some lock)
    (gap : (Verdict.ofLocked s r.site lock target).gap? = some (current, goal, reason)) :
    goal = target ∧ Left s locks d target (.reference name (.ok (some r))) current reason := by
  unfold Verdict.ofLocked at gap
  split at gap
  · next hard =>
    cases gap
    exact ⟨rfl, .locked apart locked fun soft => by simp [hard] at soft⟩
  · split at gap
    · cases gap
    · split at gap
      · cases gap
      · next still =>
        cases gap
        exact ⟨rfl, .locked apart locked fun _ _ => by simpa using still⟩

theorem left_of_ofUnlocked {locks : Locks} {name current goal : String} {r : Resolution}
    {reason : Reason} (apart : s.options.inlineVersions = false)
    (gap : (Verdict.ofUnlocked s r.site r.value target).gap? = some (current, goal, reason))
    (locked : locks.get? r.site = some ⟨r.value, .channel⟩) :
    goal = target ∧ Left s locks d target (.reference name (.ok (some r))) current reason := by
  unfold Verdict.ofUnlocked at gap
  split at gap
  · next still =>
    cases gap
    exact ⟨rfl, .locked apart locked fun _ _ => by simpa using still⟩
  · split at gap
    · cases gap
      exact ⟨rfl, .locked apart locked fun _ withheld => absurd rfl withheld⟩
    · cases gap

theorem lock?_of_gap? {site : Site} {value target : String} {gap : String × String × Reason}
    (stays : (Verdict.ofUnlocked s site value target).gap? = some gap) :
    (Verdict.ofUnlocked s site value target).lock? = some (site, value) := by
  unfold Verdict.ofUnlocked at stays ⊢
  split at stays
  · next still => simp [still, Verdict.lock?]
  · split at stays
    · next still shut => simp [still, shut, Verdict.lock?]
    · cases stays

theorem left_of_ofTarget {written : Written} {current goal : String} {reason : Reason}
    (gap : (Verdict.ofTarget s run.locks target written).gap? = some (current, goal, reason)) :
    goal = target ∧ Left s (run.carryOut s index d.coordinate raw
      (Verdict.ofTarget s run.locks target written)).locks d target written current reason := by
  have targeted := ofTarget_targeted s run.locks target written
  generalize Verdict.ofTarget s run.locks target written = v at targeted gap
  cases targeted with
  | @inPlace _ old read place =>
    unfold Verdict.ofInline at gap
    split at gap
    · cases gap
    · next still =>
      cases gap
      exact ⟨rfl, .inPlace read place (by simpa using still)⟩
  | unresolved | unresolvedIgnored => cases gap
  | ignored apart ignored =>
    cases gap
    exact ⟨rfl, .property apart ignored⟩
  | @locked name r lock apart _ _ locked =>
    refine left_of_ofLocked apart ?_ gap
    rw [Run.carryOut_locks, Verdict.lock?_ofLocked]
    exact locked
  | @unlocked name r apart _ _ free =>
    exact left_of_ofUnlocked apart gap (Run.get?_of_lock? free (lock?_of_gap? gap))

theorem left_of_judge {current : String} {reason : Reason}
    (gap : (judge s run index d raw).gap? = some (current, target, reason)) :
    s.given.channel d.coordinate ((Written.read s index raw).current?.getD raw) = some target ∧
      Left s (run.carryOut s index d.coordinate raw (judge s run index d raw)).locks d target
        (Written.read s index raw) current reason := by
  have judged := judge_judged s run index d raw
  generalize judge s run index d raw = v at judged gap
  cases judged with
  | exempt | silent | uncovered => cases gap
  | ignored _ ignores read covered =>
    cases gap
    exact ⟨by simpa [read] using covered, .ignored ignores read⟩
  | live live =>
    obtain ⟨rfl, left⟩ := left_of_ofTarget gap
    exact ⟨live.covered, left⟩

theorem replaced_of_judge {new : String}
    (decided : (judge s run index d raw).change? index d.coordinate raw =
      some (.overrideVersion index d.coordinate raw new)) :
    Live s run index d raw new ∧ Replaced s run.locks new (Written.read s index raw) := by
  have judged := judge_judged s run index d raw
  generalize judge s run index d raw = v at judged decided
  cases judged with
  | exempt | ignored | silent | uncovered => cases decided
  | @live target live =>
    have targeted := ofTarget_targeted s run.locks target (Written.read s index raw)
    generalize Verdict.ofTarget s run.locks target (Written.read s index raw) = v
      at targeted decided
    generalize read : Written.read s index raw = written at targeted
    cases targeted with
    | inPlace read place =>
      unfold Verdict.ofInline at decided
      split at decided
      · next move =>
        cases decided
        exact ⟨live, .inPlace read place move⟩
      · cases decided
    | unresolved | unresolvedIgnored | ignored => cases decided
    | locked apart heeded followed locked =>
      unfold Verdict.ofLocked at decided
      split at decided
      · cases decided
      · next soft =>
        split at decided
        · cases decided
        · split at decided
          · next move =>
            cases decided
            exact ⟨live, .beside apart heeded followed locked soft move⟩
          · cases decided
    | unlocked =>
      obtain ⟨write, -⟩ := Verdict.change?_ofUnlocked decided
      exact absurd write (overrideVersion_ne_propertyWrite _ _ _ _ _ _)

theorem Left.reason_of_replaced {locks earlier : Locks} {e : Declaration} {written : Written}
    {current : String} {reason : Reason} (left : Left s locks d target written current reason)
    (replaced : Replaced s earlier target written)
    (heeded : s.policy.ignores? d.coordinate e.effectiveScope = none)
    (stay : ∀ site lock, earlier.get? site = some lock → locks.get? site = some lock) :
    reason = .ignoredScope ∨ reason = .notInjected := by
  cases left with
  | ignored ignores =>
    rcases Policy.reason_of_ignores? ignores with ⟨-, stream⟩ | scope
    · simp [Policy.ignores?, stream] at heeded
    · exact .inl scope
  | inPlace read place still =>
    cases replaced with
    | inPlace read' _ move =>
      rw [read, Option.some.injEq] at read'
      simp [read', move] at still
    | beside apart =>
      rcases place with place | literal
      · simp [apart] at place
      · cases literal
  | property apart ignored =>
    cases replaced with
    | inPlace _ place => simp [apart] at place
    | beside _ heeded followed => simp [heeded, followed] at ignored
  | locked apart locked still =>
    cases replaced with
    | inPlace _ place => simp [apart] at place
    | @beside _ _ other _ _ _ locked' soft move =>
      rw [stay _ _ locked', Option.some.injEq] at locked
      subst locked
      right
      by_cases withheld : reason = .notInjected
      · exact withheld
      · simp [still soft withheld] at move

theorem Left.eq_of_literal {locks : Locks} {version current : String} {reason : Reason}
    (left : Left s locks d target (.literal version) current reason) : version = current := by
  cases left with
  | ignored _ read | inPlace read => exact Option.some.inj read

def Setting.LooksUp (s : Setting) (reason : Reason) : Prop :=
  s.options.inlineVersions = true ∨ reason = .ignoredStream ∨ reason = .ignoredScope ∨
    reason = .ignoredProperty

theorem Left.resolved {locks : Locks} {name current : String}
    {found : Except PropertyError (Option Resolution)} {reason : Reason}
    (left : Left s locks d target (.reference name found) current reason) :
    ∃ r, found = .ok (some r) ∧ (s.LooksUp reason ∧ r.value = current ∨
      ∃ lock, locks.get? r.site = some lock ∧ lock.value = current) := by
  have value (read : (Written.reference name found).current? = some current) :
      ∃ r, found = .ok (some r) ∧ r.value = current := by
    rcases found with _ | _ | r
    · cases read
    · cases read
    · exact ⟨r, rfl, Option.some.inj read⟩
  cases left with
  | ignored ignores read =>
    obtain ⟨r, resolved, same⟩ := value read
    have kind := Policy.reason_of_ignores? ignores
    exact ⟨r, resolved, .inl ⟨.inr (kind.imp And.left .inl), same⟩⟩
  | inPlace read place =>
    obtain ⟨r, resolved, same⟩ := value read
    have inline := place.resolve_right nofun
    exact ⟨r, resolved, .inl ⟨.inl inline, same⟩⟩
  | @property _ r => exact ⟨r, rfl, .inl ⟨.inr (.inr (.inr rfl)), rfl⟩⟩
  | @locked _ r lock _ _ locked => exact ⟨r, rfl, .inr ⟨lock, locked, rfl⟩⟩

end

end VersionAlignment
