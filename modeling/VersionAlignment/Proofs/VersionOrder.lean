import VersionAlignment.Version.Order

set_option autoImplicit false

namespace VersionAlignment.Version

theorem Qualifier.compare_swap (a b : Qualifier) : b.compare a = (a.compare b).swap := by
  cases a <;> cases b <;> try rfl
  case vendor.vendor a b =>
    change Ord.compare b a = (Ord.compare a b).swap
    exact Std.OrientedCmp.eq_swap

mutual

theorem Item.compare_swap : ∀ a b : Item, b.compare a = (a.compare b).swap
  | .number a, .number b => by simpa [Item.compare] using Std.OrientedCmp.eq_swap
  | .qualifier a, .qualifier b => by simpa [Item.compare] using Qualifier.compare_swap a b
  | .list as, .list bs => by simpa [Item.compare] using compareItems_swap as bs
  | .number _, .qualifier _ | .number _, .list _ => by simp [Item.compare]
  | .qualifier _, .number _ | .qualifier _, .list _ => by simp [Item.compare]
  | .list _, .number _ | .list _, .qualifier _ => by simp [Item.compare]

theorem compareItems_swap : ∀ as bs : List Item, compareItems bs as = (compareItems as bs).swap
  | [], [] => by simp [compareItems, compareNone]
  | [], _ :: _ => by simp [compareItems]
  | _ :: _, [] => by simp [compareItems]
  | a :: as, b :: bs => by
    simp only [compareItems]
    rw [Item.compare_swap a b, compareItems_swap as bs, Ordering.swap_then]

end

theorem compare_swap (a b : String) : compare b a = (compare a b).swap :=
  compareItems_swap (parse a) (parse b)

theorem compare_eq_symm {a b : String} (same : compare a b = .eq) : compare b a = .eq := by
  rw [compare_swap, same]
  rfl

theorem compare_self (a : String) : compare a a = .eq := by
  have swapped := compare_swap a a
  cases h : compare a a <;> simp_all

instance : Std.ReflCmp compare where
  compare_self := compare_self _

instance : Std.OrientedCmp compare where
  eq_swap := compare_swap _ _

theorem compare_reversed (a b : String) :
    compare b a = (compare a b).swap ∧ compare a a = .eq := by
  have back : compare b a = (compare a b).swap := compareItems_swap (parse a) (parse b)
  exact ⟨back, compare_self a⟩

end VersionAlignment.Version
