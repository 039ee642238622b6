import VersionAlignment.Proofs.ConventionalVersions
import VersionAlignment.Proofs.ParsedItems

set_option autoImplicit false

namespace VersionAlignment.Version

mutual

def Item.depth : Item → Nat
  | .list items => depth items + 1
  | _ => 0

def depth : List Item → Nat
  | [] => 0
  | item :: items => max item.depth (depth items)

end

variable {as bs front back inner other : List Item}

theorem depth_of_singles (singles : ∀ item ∈ as, item.isList = false) : depth as = 0 := by
  induction as with
  | nil => rfl
  | cons a as ih =>
    obtain ⟨single, rest⟩ := List.forall_mem_cons.1 singles
    cases a with
    | list => cases single
    | number | qualifier => simp [depth, Item.depth, ih rest]

theorem depth_append (as bs : List Item) : depth (as ++ bs) = max (depth as) (depth bs) := by
  induction as with
  | nil => simp [depth]
  | cons a as ih => simp [depth, ih, Nat.max_assoc]

theorem depth_nested (singles : ∀ item ∈ front, item.isList = false) :
    depth (front ++ [.list inner]) = depth inner + 1 := by
  simp [depth_append, depth_of_singles singles, depth, Item.depth]

theorem compareNone_eq_eq (same : compareNone as = .eq) :
    ∀ item ∈ as, item.compareMissing = .eq := by
  induction as with
  | nil => simp
  | cons a as ih =>
    rw [compareNone, Ordering.then_eq_eq] at same
    exact List.forall_mem_cons.2 ⟨same.1, ih same.2⟩

theorem Plain.eq_nil (plain : Plain as) (same : compareNone as = .eq) : as = [] := by
  -- The last item would not be null.
  refine List.getLast?_eq_none_iff.1 (Option.eq_none_iff_forall_ne_some.2 fun last ends => ?_)
  have member : last ∈ as := List.mem_of_getLast? ends
  exact Item.compareMissing_ne_eq (plain.1 last member) (plain.2 last ends)
    (compareNone_eq_eq same last member)

theorem Plain.tail {a : Item} (plain : Plain (a :: as)) : Plain as := by
  refine ⟨fun item member => plain.1 item (List.mem_cons_of_mem _ member), fun last ends => ?_⟩
  refine plain.2 last ?_
  rw [List.getLast?_cons, Option.mem_def.1 ends]
  rfl

theorem compareItems_nil_right (as : List Item) : compareItems as [] = compareNone as := by
  cases as <;> simp [compareItems]

theorem Plain.eq_of_compare (first : Plain as) (second : Plain bs)
    (same : compareItems as bs = .eq) : as = bs := by
  induction as generalizing bs with
  | nil =>
    rw [compareItems_swap bs [], compareItems_nil_right, Ordering.swap_eq_eq] at same
    exact (second.eq_nil same).symm
  | cons a as ih =>
    cases bs with
    | nil => exact first.eq_nil (compareItems_nil_right (a :: as) ▸ same)
    | cons b bs =>
      rw [compareItems, Ordering.then_eq_eq] at same
      rw [Item.eq_of_compare (first.1 a List.mem_cons_self) same.1,
        ih first.tail second.tail same.2]

theorem Item.compare_list_ne_eq {b : Item} (single : b.isList = false) :
    (Item.list inner).compare b ≠ .eq := by
  cases b with
  | list => cases single
  | number | qualifier => simp [Item.compare]

theorem nested_of_compare (singles : ∀ item ∈ front, item.isList = false)
    (singles' : ∀ item ∈ back, item.isList = false)
    (same : compareItems (front ++ [.list inner]) (back ++ [.list other]) = .eq) :
    front = back ∧ compareItems inner other = .eq := by
  induction front generalizing back with
  | nil =>
    cases back with
    | nil => simpa [compareItems, Item.compare, compareNone] using same
    | cons b back =>
      simp only [List.nil_append, List.cons_append, compareItems, Ordering.then_eq_eq] at same
      exact absurd same.1 (Item.compare_list_ne_eq (singles' b List.mem_cons_self))
  | cons a front ih =>
    obtain ⟨single, singles⟩ := List.forall_mem_cons.1 singles
    cases back with
    | nil =>
      simp only [List.nil_append, List.cons_append, compareItems, Ordering.then_eq_eq] at same
      rw [Item.compare_swap, Ordering.swap_eq_eq] at same
      exact absurd same.1 (Item.compare_list_ne_eq single)
    | cons b back =>
      simp only [List.cons_append, compareItems, Ordering.then_eq_eq] at same
      obtain ⟨rfl, inside⟩ := ih singles (List.forall_mem_cons.1 singles').2 same.2
      exact ⟨by rw [Item.eq_of_compare single same.1], inside⟩

theorem Normal.eq_of_compare (first : Normal as) (second : Normal bs)
    (level : depth as = depth bs) (same : compareItems as bs = .eq) : as = bs := by
  -- The depths rule out that one list goes on with a nested list where the other one ends.
  induction first generalizing bs with
  | plain plain =>
    cases second with
    | plain plain' => exact plain.eq_of_compare plain' same
    | nested plain' => simp [depth_of_singles plain.1, depth_nested plain'.1] at level
  | nested plain _ _ ih =>
    cases second with
    | plain plain' => simp [depth_of_singles plain'.1, depth_nested plain.1] at level
    | nested plain' _ normal =>
      obtain ⟨rfl, inside⟩ := nested_of_compare plain.1 plain'.1 same
      rw [depth_nested plain.1, depth_nested plain.1, Nat.add_right_cancel_iff] at level
      rw [ih normal level inside]

/-- Equal versions are interchangeable if no list of one of them stands where the other has no
item. -/
theorem compare_eq_compare_of_depth {a b : String} (same : compare a b = .eq)
    (level : depth (parse a) = depth (parse b)) (c : String) : compare a c = compare b c := by
  have items : parse a = parse b :=
    (normal_parseChars a.toList).eq_of_compare (normal_parseChars b.toList) level same
  rw [compare, compare, items]

theorem compare_eq_compare_candidates :
    compare "1.0a1" "1-alpha-1" = .eq ∧
      depth (parse "1.0a1") = depth (parse "1-alpha-1") ∧
      compare "1.0a1" "1.0-beta" = compare "1-alpha-1" "1.0-beta" := by
  have same : compare "1.0a1" "1-alpha-1" = .eq := by decide +kernel
  have level : depth (parse "1.0a1") = depth (parse "1-alpha-1") := by decide +kernel
  exact ⟨same, level, compare_eq_compare_of_depth same level "1.0-beta"⟩

theorem compare_not_interchangeable : compare "1.2.3" "1.2.3-0.1" = .eq ∧
    compare "1.2.3" "1.2.3.redhat-1" = .lt ∧ compare "1.2.3-0.1" "1.2.3.redhat-1" = .gt := by
  decide +kernel

end VersionAlignment.Version
