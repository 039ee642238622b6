import VersionAlignment.Proofs.ChangedProject

set_option autoImplicit false

namespace VersionAlignment

open Property

theorem boundBy_nil : boundBy [] = fun _ => none := rfl

theorem Run.Sound.value_of_locked {s : Setting} {run : Run} (sound : Sound s run)
    (idle : run.changes.changes = []) {owner : Nat} {name : String} {r : Resolution}
    (found : s.resolve owner name = .ok (some r)) {lock : Lock}
    (locked : run.locks.get? r.site = some lock) : lock.value = r.value := by
  have value := sound.value_rebind found locked
  rw [idle, boundBy_nil] at value
  exact value.symm

namespace Verdict

variable {s : Setting} {locks : Locks} {target : String} {written : Written}

structure Rests (v : Verdict) (index : Nat) (c : Coordinate) (raw target : String)
    (written : Written) : Prop where
  unchanged : v.change? index c raw = none
  behind : ∀ old new reason, v.gap? = some (old, new, reason) →
    written.current? = some old ∧ new = target

theorem rests_leave {current : String} {reason : Reason} {index : Nat} {c : Coordinate}
    {raw : String} (read : written.current? = some current) :
    (leave current target reason).Rests index c raw target written := by
  refine ⟨rfl, ?_⟩
  rintro old new other gap
  cases gap
  exact ⟨read, rfl⟩

theorem rests_ofTarget (index : Nat) (c : Coordinate) (raw : String)
    (still : ∀ current, written.current? = some current → s.isMove current target = false)
    (locked : ∀ name r lock, written = .reference name (.ok (some r)) →
      locks.get? r.site = some lock → lock.origin = .channel ∧ lock.value = r.value) :
    (ofTarget s locks target written).Rests index c raw target written := by
  have targeted := ofTarget_targeted s locks target written
  generalize ofTarget s locks target written = v at targeted
  cases targeted with
  | @inPlace _ current read place =>
    have leave : ofInline s current target = .leave current target .downgradeRefused := by
      simp [ofInline, still current read]
    rw [leave]
    exact rests_leave read
  | unresolved | unresolvedIgnored => exact ⟨rfl, by simp [gap?]⟩
  | ignored => exact rests_leave rfl
  | @locked name r lock _ _ _ found =>
    -- The lock is at the value of the property, which is no move away from the target.
    obtain ⟨origin, value⟩ := locked name r lock rfl found
    have stays : ofLocked s r.site lock target = .pass ∨
        ofLocked s r.site lock target = .leave r.value target .downgradeRefused := by
      by_cases same : s.isSame lock.value target = true
      · exact .inl (by simp [ofLocked, origin, same])
      · exact .inr (by simp [ofLocked, origin, value, value ▸ same, still r.value rfl])
    rcases stays with pass | leave
    · rw [pass]
      exact ⟨rfl, by simp [gap?]⟩
    · rw [leave]
      exact rests_leave rfl
  | @unlocked name r =>
    have hold : ofUnlocked s r.site r.value target = .hold r.site r.value target := by
      simp [ofUnlocked, still r.value rfl]
    rw [hold]
    refine ⟨rfl, ?_⟩
    rintro old new reason gap
    cases gap
    exact ⟨rfl, rfl⟩

end Verdict

theorem Run.Sound.rests {s : Setting} {run : Run} (sound : Sound s run)
    (idle : run.changes.changes = []) {index : Nat} {d : Declaration} {raw target : String}
    (live : Live s run index d raw target)
    (still : ∀ current, (Written.read s index raw).current? = some current →
      s.isMove current target = false) :
    (judge s run index d raw).Rests index d.coordinate raw target (Written.read s index raw) := by
  rw [judge_of_live live]
  refine Verdict.rests_ofTarget index d.coordinate raw still ?_
  intro name r lock read found
  exact ⟨(sound.locked r.site lock found).1,
    sound.value_of_locked idle (Written.resolve_of_read read) found⟩

end VersionAlignment
