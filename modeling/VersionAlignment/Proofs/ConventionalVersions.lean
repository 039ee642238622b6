import Mathlib
import VersionAlignment.Proofs.VersionOrder

set_option autoImplicit false

namespace VersionAlignment.Version

namespace Qualifier

def name : Qualifier → String
  | .vendor name => name
  | _ => ""

theorem compare_eq_compareLex (a b : Qualifier) :
    a.compare b = compareLex (compareOn rank) (compareOn name) a b := by
  cases a <;> cases b <;> rfl

theorem eq_of_compare {a b : Qualifier} (same : a.compare b = .eq) : a = b := by
  rw [compare_eq_compareLex, compareLex_eq_eq] at same
  simp only [compareOn, Std.compare_eq_iff_eq] at same
  cases a <;> cases b <;> simp_all [rank, name]

theorem compare_lt_trans {a b c : Qualifier} (h : a.compare b = .lt) (h' : b.compare c = .lt) :
    a.compare c = .lt := by
  rw [compare_eq_compareLex] at *
  exact Std.TransCmp.lt_trans h h'

theorem compare_of_release {a b : Qualifier} (below : a.compare .release = .lt)
    (above : b.compare .release ≠ .lt) : a.compare b = .lt := by
  rcases at_release : b.compare .release with _ | _ | _
  · exact absurd at_release above
  · rwa [eq_of_compare at_release]
  · refine compare_lt_trans below ?_
    rw [compare_swap, at_release]
    rfl

end Qualifier

namespace Item

variable {a b c : Item}

theorem eq_of_compare (single : a.isList = false) (same : a.compare b = .eq) : a = b := by
  cases a <;> cases b <;> simp_all [Item.compare, isList]
  exact Qualifier.eq_of_compare same

theorem compare_lt_trans (first : a.isList = false) (second : b.isList = false)
    (third : c.isList = false) (h : a.compare b = .lt) (h' : b.compare c = .lt) :
    a.compare c = .lt := by
  cases a <;> cases b <;> cases c <;> simp_all [Item.compare, isList]
  case number.number.number => exact Std.TransCmp.lt_trans h h'
  case qualifier.qualifier.qualifier => exact Qualifier.compare_lt_trans h h'

theorem then_lt_trans (first : a.isList = false) (second : b.isList = false)
    (third : c.isList = false) {o o' o'' : Ordering} (h : (a.compare b).then o = .lt)
    (h' : (b.compare c).then o' = .lt) (rest : o = .lt → o' = .lt → o'' = .lt) :
    (a.compare c).then o'' = .lt := by
  rw [Ordering.then_eq_lt] at *
  rcases h with lt | ⟨same, lt⟩ <;> rcases h' with lt' | ⟨same', lt'⟩
  · exact .inl (compare_lt_trans first second third lt lt')
  · exact .inl (eq_of_compare second same' ▸ lt)
  · exact .inl (eq_of_compare first same ▸ lt')
  · exact .inr ⟨eq_of_compare first same ▸ same', rest lt lt'⟩

theorem compareMissing_ne_eq (single : a.isList = false) (solid : a.isNull = false) :
    a.compareMissing ≠ .eq := by
  intro same
  cases a with
  | number n => simp_all [compareMissing, isNull]
  | qualifier q => simp_all [isNull, Qualifier.eq_of_compare same]
  | list => cases single

theorem compare_of_compareMissing (first : a.isList = false) (second : b.isList = false)
    (below : a.compareMissing = .lt) (above : b.compareMissing ≠ .lt) : a.compare b = .lt := by
  cases a with
  | number n => simp [compareMissing, Nat.compare_eq_lt] at below
  | list => cases first
  | qualifier q =>
    cases b with
    | number => rfl
    | qualifier r => exact Qualifier.compare_of_release below above
    | list => cases second

end Item

/-- Numbers, of which a zero is never the last, and then at most one list, which opens with an
item that is no list and does not count as absent. -/
inductive Conventional : List Item → Prop
  | nil : Conventional []
  | list {item : Item} {rest : List Item} : item.isList = false → item.isNull = false →
      Conventional rest → Conventional [.list (item :: rest)]
  | number {n : Nat} {rest : List Item} : (n = 0 → ∃ m more, rest = .number m :: more) →
      Conventional rest → Conventional (.number n :: rest)

namespace Conventional

variable {as bs cs : List Item}

theorem compareNone_number {n : Nat} {rest : List Item}
    (usual : Conventional (.number n :: rest)) : compareNone (.number n :: rest) = .gt := by
  generalize same : Item.number n :: rest = items at usual
  induction usual generalizing n rest with
  | nil | list => cases same
  | @number k _ followed _ ih =>
    by_cases zero : k = 0
    -- A zero does not decide, and the number after it does.
    · obtain ⟨m, more, rfl⟩ := followed zero
      rw [compareNone, ih rfl, zero]
      rfl
    · have above : Ord.compare k 0 = .gt := Nat.compare_eq_gt.2 (Nat.pos_of_ne_zero zero)
      simp [compareNone, Item.compareMissing, above]

/-- The rank of what items open with: a list below the plain release, no item, any other list, a
number. -/
def opening : List Item → Nat
  | [] => 1
  | .list inner :: _ => if (Item.list inner).compareMissing = .lt then 0 else 2
  | _ :: _ => 3

theorem opening_list (inner rest : List Item) :
    opening (.list inner :: rest) = 0 ∨ opening (.list inner :: rest) = 2 := by
  rw [opening]
  split
  · exact .inl rfl
  · exact .inr rfl

theorem compare_of_opening (first : Conventional as) (second : Conventional bs)
    (lt : opening as < opening bs) : compareItems as bs = .lt := by
  cases first with
  | nil =>
    cases second with
    | nil => simp at lt
    | @list item rest single solid =>
      have above : item.compareMissing = .gt := by
        have decided := Item.compareMissing_ne_eq single solid
        cases missing : item.compareMissing <;> simp_all [opening, Item.compareMissing]
      simp [compareItems, compareNone, Item.compareMissing, above]
    | number followed usual =>
      simp [compareItems, compareNone_number (.number followed usual)]
  | @list item rest single solid =>
    cases second with
    | nil =>
      have below : item.compareMissing = .lt := by
        simp only [opening, Item.compareMissing] at lt
        grind
      simp [compareItems, compareNone, Item.compareMissing, below]
    | @list other rest' single' =>
      have apart : item.compareMissing = .lt ∧ other.compareMissing ≠ .lt := by
        simp only [opening, Item.compareMissing] at lt
        grind
      simp [compareItems, Item.compare,
        Item.compare_of_compareMissing single single' apart.1 apart.2]
    | number => simp [compareItems, Item.compare]
  | number =>
    cases second with
    | nil | number => simp [opening] at lt
    | @list item rest =>
      have rank := opening_list (item :: rest) []
      simp only [opening] at lt rank
      omega

theorem opening_le (first : Conventional as) (second : Conventional bs)
    (lt : compareItems as bs = .lt) : opening as ≤ opening bs := by
  refine Nat.le_of_not_lt fun above => ?_
  have back := compare_of_opening second first above
  rw [compareItems_swap, lt] at back
  cases back

theorem lt_or_alike (first : Conventional as) (second : Conventional bs)
    (third : Conventional cs) (h : compareItems as bs = .lt) (h' : compareItems bs cs = .lt) :
    compareItems as cs = .lt ∨ opening bs = opening as ∧ opening cs = opening as := by
  have le := opening_le first second h
  have le' := opening_le second third h'
  rcases Nat.lt_or_ge (opening as) (opening cs) with lt | ge
  · exact .inl (compare_of_opening first third lt)
  · exact .inr (by omega)

theorem eq_nil_of_opening (usual : Conventional as) (alike : opening as = 1) : as = [] := by
  cases usual with
  | nil => rfl
  | @list item rest =>
    have rank := opening_list (item :: rest) []
    omega
  | number => simp [opening] at alike

theorem exists_list_of_opening (usual : Conventional as) {inner : List Item}
    (alike : opening as = opening [.list inner]) :
    ∃ item rest, item.isList = false ∧ Conventional rest ∧ as = [.list (item :: rest)] := by
  have rank := opening_list inner []
  cases usual with
  | nil =>
    rw [← alike] at rank
    simp [opening] at rank
  | list single _ usual => exact ⟨_, _, single, usual, rfl⟩
  | number =>
    rw [← alike] at rank
    simp [opening] at rank

theorem exists_number_of_opening (usual : Conventional as) (alike : opening as = 3) :
    ∃ n rest, Conventional rest ∧ as = .number n :: rest := by
  cases usual with
  | nil => simp [opening] at alike
  | @list item rest =>
    have rank := opening_list (item :: rest) []
    omega
  | number _ usual => exact ⟨_, _, usual, rfl⟩

theorem compareItems_lt_trans (first : Conventional as) (second : Conventional bs)
    (third : Conventional cs) (h : compareItems as bs = .lt) (h' : compareItems bs cs = .lt) :
    compareItems as cs = .lt := by
  induction first generalizing bs cs with
  | nil =>
    rcases lt_or_alike .nil second third h h' with lt | ⟨alike, -⟩
    · exact lt
    · rw [eq_nil_of_opening second alike] at h
      cases h
  | @list item rest single solid usual ih =>
    rcases lt_or_alike (.list single solid usual) second third h h' with lt | ⟨alike, alike'⟩
    · exact lt
    · obtain ⟨item', rest', single', usual', rfl⟩ := exists_list_of_opening second alike
      obtain ⟨item'', rest'', single'', usual'', rfl⟩ := exists_list_of_opening third alike'
      simp only [compareItems, Item.compare, compareNone, Ordering.then_eq] at *
      exact Item.then_lt_trans single single' single'' h h' (ih usual' usual'')
  | number followed usual ih =>
    rcases lt_or_alike (.number followed usual) second third h h' with lt | ⟨alike, alike'⟩
    · exact lt
    · obtain ⟨m, rest', usual', rfl⟩ := exists_number_of_opening second alike
      obtain ⟨k, rest'', usual'', rfl⟩ := exists_number_of_opening third alike'
      simp only [compareItems] at *
      exact Item.then_lt_trans rfl rfl rfl h h' (ih usual' usual'')

end Conventional

theorem compare_lt_trans_of_conventional {a b c : String} (first : Conventional (parse a))
    (second : Conventional (parse b)) (third : Conventional (parse c))
    (h : compare a b = .lt) (h' : compare b c = .lt) : compare a c = .lt :=
  first.compareItems_lt_trans second third h h'

theorem compare_lt_trans_vendor :
    Conventional (parse "1.2.3-rc1") ∧ Conventional (parse "1.2.3") ∧
      Conventional (parse "1.2.3-redhat-1") ∧ compare "1.2.3-rc1" "1.2.3" = .lt ∧
      compare "1.2.3" "1.2.3-redhat-1" = .lt ∧ compare "1.2.3-rc1" "1.2.3-redhat-1" = .lt := by
  have one : Conventional [.list [.number 1]] := .list rfl rfl .nil
  have numbers {rest : List Item} (usual : Conventional rest) :
      Conventional (.number 1 :: .number 2 :: .number 3 :: rest) :=
    .number (by simp) (.number (by simp) (.number (by simp) usual))
  have candidate : Conventional (parse "1.2.3-rc1") := by
    have parsed : parse "1.2.3-rc1" = [.number 1, .number 2, .number 3,
      .list [.qualifier .candidate, .list [.number 1]]] := by cbv
    rw [parsed]
    exact numbers (.list rfl rfl one)
  have plain : Conventional (parse "1.2.3") := by
    have parsed : parse "1.2.3" = [.number 1, .number 2, .number 3] := by cbv
    rw [parsed]
    exact numbers .nil
  have vendor : Conventional (parse "1.2.3-redhat-1") := by
    have parsed : parse "1.2.3-redhat-1" = [.number 1, .number 2, .number 3,
      .list [.qualifier (.vendor "redhat"), .list [.number 1]]] := by cbv
    rw [parsed]
    exact numbers (.list rfl rfl one)
  have below : compare "1.2.3-rc1" "1.2.3" = .lt := by decide +kernel
  have above : compare "1.2.3" "1.2.3-redhat-1" = .lt := by decide +kernel
  exact ⟨candidate, plain, vendor, below, above,
    compare_lt_trans_of_conventional candidate plain vendor below above⟩

/-- A word after a dot is no list, and lists are above it whatever they open with. -/
theorem compare_not_transitive : compare "1.2.3-rc1" "1.2.3" = .lt ∧
    compare "1.2.3" "1.2.3.redhat-1" = .lt ∧ compare "1.2.3-rc1" "1.2.3.redhat-1" = .gt := by
  decide +kernel

end VersionAlignment.Version
