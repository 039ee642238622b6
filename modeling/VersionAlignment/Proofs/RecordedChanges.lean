import Mathlib.Data.List.Nodup
import VersionAlignment.Proofs.Effects

set_option autoImplicit false

namespace VersionAlignment.ChangeSet

inductive Call
  | push (change : Change)
  | extend (changes : List Change)

def Call.offered : Call → List Change
  | .push change => [change]
  | .extend changes => changes

def call (set : ChangeSet) : Call → ChangeSet
  | .push change => (set.push change).1
  | .extend changes => set.extend changes

/-- The changes are those that have been offered, each where it was offered first. -/
structure Records (set : ChangeSet) (offered : List Change) : Prop where
  changes : set.changes = offered.eraseDups
  nodup : set.changes.Nodup

variable {set : ChangeSet} {offered : List Change} {change : Change}

theorem records_empty : Records {} [] := ⟨by simp, by simp⟩

namespace Records

theorem mem (records : Records set offered) : change ∈ set.changes ↔ change ∈ offered := by
  rw [records.changes, List.mem_eraseDups]

theorem insert (records : Records set offered) (change : Change) :
    Records (set.insert change) (offered ++ [change]) := by
  refine ⟨?_, nodup_insert records.nodup⟩
  rw [List.eraseDups_append, ← records.changes]
  by_cases old : change ∈ offered <;>
    simp [ChangeSet.insert, push, records.mem, old, List.removeAll, List.eraseDups_cons]

theorem extend (records : Records set offered) (changes : List Change) :
    Records (set.extend changes) (offered ++ changes) := by
  induction changes generalizing set offered with
  | nil => simpa [ChangeSet.extend] using records
  | cons change changes ih => simpa [ChangeSet.extend] using ih (records.insert change)

theorem call (records : Records set offered) (c : Call) :
    Records (set.call c) (offered ++ c.offered) := by
  cases c with
  | push change => exact records.insert change
  | extend changes => exact records.extend changes

theorem calls (records : Records set offered) (calls : List Call) :
    Records (calls.foldl ChangeSet.call set) (offered ++ calls.flatMap Call.offered) := by
  induction calls generalizing set offered with
  | nil => simpa using records
  | cons c calls ih => simpa using ih (records.call c)

theorem push_iff (records : Records set offered) :
    (set.push change).2 = true ↔ change ∉ offered := by
  by_cases old : change ∈ offered <;> simp [push, records.mem, old]

end Records

theorem mem_ofModule {index : Nat} :
    change ∈ set.ofModule index ↔ change ∈ set.changes ∧ change.owner = index := by
  simp [ofModule]

theorem nodup_flatMap_ofModule (nodup : set.changes.Nodup) (count : Nat) :
    ((List.range count).flatMap set.ofModule).Nodup := by
  rw [List.nodup_flatMap]
  refine ⟨fun index _ => nodup.filter _, List.nodup_range.imp fun apart => ?_⟩
  intro change one other
  exact apart ((mem_ofModule.1 one).2.symm.trans (mem_ofModule.1 other).2)

theorem count_flatMap_ofModule (nodup : set.changes.Nodup) (count : Nat) (change : Change) :
    ((List.range count).flatMap set.ofModule).count change =
      if change ∈ set.changes ∧ change.owner < count then 1 else 0 := by
  rw [(nodup_flatMap_ofModule nodup count).count]
  refine if_congr ?_ rfl rfl
  simp [mem_ofModule, and_comm]

/-- The set has the changes that calls have offered, each where it was offered first. A change that
was offered before is refused, and each module has its own changes in the order of all of them. -/
theorem calls_recorded (calls : List Call) :
    let set := calls.foldl call {}
    let offered := calls.flatMap Call.offered
    set.changes = offered.eraseDups ∧ set.changes.Nodup ∧
    (∀ change, (set.push change).2 = true ↔ change ∉ offered) ∧
    (∀ index, (set.ofModule index).Sublist set.changes ∧
      ∀ change, change ∈ set.ofModule index ↔ change ∈ offered ∧ change.owner = index) ∧
    ∀ count change, ((List.range count).flatMap set.ofModule).count change =
      if change ∈ offered ∧ change.owner < count then 1 else 0 := by
  intro set offered
  have records : Records set offered := by simpa using records_empty.calls calls
  refine ⟨records.changes, records.nodup, fun change => records.push_iff, ?_, ?_⟩
  · intro index
    refine ⟨List.filter_sublist, fun change => ?_⟩
    rw [mem_ofModule, records.mem]
  · intro count change
    simp only [count_flatMap_ofModule records.nodup, records.mem]

end VersionAlignment.ChangeSet
