import VersionAlignment.Proofs.Commitments

set_option autoImplicit false

namespace VersionAlignment

open Property

namespace Run

def after (s : Setting) (count : Nat) : Run := ({} : Run).perform s ((steps s).take count)

theorem after_length (s : Setting) : after s (steps s).length = declared s := by
  rw [after, List.take_length, perform_steps]

theorem after_add (s : Setting) (count more : Nat) :
    after s (count + more) = (after s count).perform s (((steps s).drop count).take more) := by
  rw [after, after, List.take_add, perform_append]

theorem consistent_after (s : Setting) (count : Nat) : Consistent s (after s count) :=
  (consistent_empty s).perform fun _ member => List.mem_of_mem_take member

theorem later_mem_steps {s : Setting} {count more : Nat} {step : Step}
    (member : step ∈ ((steps s).drop count).take more) : step ∈ steps s :=
  List.mem_of_mem_drop (List.mem_of_mem_take member)

namespace Consistent

variable {s : Setting} {run : Run}

theorem write_unique (consistent : Consistent s run) {spot : Spot Nat} {a b : Change}
    (first : a ∈ run.changes.changes) (second : b ∈ run.changes.changes)
    (boundFirst : (a.bound? spot).isSome) (boundSecond : (b.bound? spot).isSome) : a = b := by
  obtain ⟨value, boundFirst⟩ := Option.isSome_iff_exists.1 boundFirst
  obtain ⟨other, boundSecond⟩ := Option.isSome_iff_exists.1 boundSecond
  obtain ⟨site, rfl, rfl⟩ := Change.bound?_eq_some.1 boundFirst
  obtain ⟨lock, locked, rfl⟩ := consistent.written site value first
  exact (consistent.write_of_bound? locked second boundSecond).symm

theorem countP_bound? (consistent : Consistent s run) (spot : Spot Nat) :
    run.changes.changes.countP (fun change => (change.bound? spot).isSome) ≤ 1 := by
  rw [List.countP_eq_length_filter]
  have nodup := consistent.nodup.filter fun change => (change.bound? spot).isSome
  have unique : ∀ a ∈ run.changes.changes.filter fun change => (change.bound? spot).isSome,
      ∀ b ∈ run.changes.changes.filter fun change => (change.bound? spot).isSome, a = b := by
    intro a first b second
    rw [List.mem_filter] at first second
    exact consistent.write_unique first.1 second.1 first.2 second.2
  generalize run.changes.changes.filter (fun change => (change.bound? spot).isSome) = writes at *
  -- Two writes to one spot would be the same change, and no change is there twice.
  rcases writes with _ | ⟨a, _ | ⟨b, rest⟩⟩
  · simp
  · simp
  · have same := unique a (by simp) b (by simp)
    simp [same] at nodup

end Consistent

theorem property_locks_consistent (s : Setting) (count : Nat) :
    after s (steps s).length = declared s ∧
    (∀ site lock, (after s count).locks.get? site = some lock →
      ∀ more, (after s (count + more)).locks.get? site = some lock) ∧
    (∀ spot, (after s count).changes.changes.countP
      (fun change => (change.bound? spot).isSome) ≤ 1) ∧
    (∀ owner name value, .setProperty owner name value ∈ (after s count).changes.changes →
      ∃ lock, (after s count).locks.get? ⟨owner, name, false⟩ = some lock ∧ lock.value = value) ∧
    (∀ owner name value, .injectProperty owner name value ∈ (after s count).changes.changes →
      ∃ lock, (after s count).locks.get? ⟨owner, name, true⟩ = some lock ∧ lock.value = value) ∧
    (∀ site lock, (after s count).locks.get? site = some lock → lock.origin = .override →
      s.policy.Forces site.name lock.value ∧
      ∀ more, ∀ change ∈ (after s (count + more)).changes.changes, ∀ value,
        change.bound? site.spot = some value → value = lock.value) := by
  have consistent := consistent_after s count
  have final : ∀ site lock, (after s count).locks.get? site = some lock →
      ∀ more, (after s (count + more)).locks.get? site = some lock := by
    intro site lock locked more
    rw [after_add]
    exact locks_stay (fun _ member => later_mem_steps member) locked
  refine ⟨after_length s, final, consistent.countP_bound?, ?_, ?_, ?_⟩
  · intro owner name value present
    exact consistent.written ⟨owner, name, false⟩ value present
  · intro owner name value present
    exact consistent.written ⟨owner, name, true⟩ value present
  · intro site lock locked forced
    refine ⟨consistent.forced site lock locked forced, ?_⟩
    intro more change present value bound
    obtain ⟨other, _, rfl⟩ := Change.bound?_eq_some.1 bound
    have write := (consistent_after s (count + more)).write_of_bound? (final site lock locked more)
      present bound
    exact (propertyWrite_inj.1 write).2

end Run

end VersionAlignment
