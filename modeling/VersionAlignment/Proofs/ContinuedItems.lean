import VersionAlignment.Proofs.ParsedItems
import VersionAlignment.Version.Spelling

set_option autoImplicit false

namespace VersionAlignment.Version

variable {item : Item} {as bs : List Item} {word next : Lexeme} {rest tail : List Lexeme}

theorem dropNull_append (items : List Item) (item : Item) :
    dropNull (items ++ [item]) =
      if ∀ kept ∈ dropNull items, kept.isList = true then dropNull items ++ dropNull [item]
      else dropNull items ++ [item] := by
  induction items with
  | nil => simp [dropNull]
  | cons first items ih =>
    rw [List.cons_append, dropNull, dropNull]
    cases null : first.isNull with
    | true => rw [if_pos rfl, if_pos rfl, ih]
    | false =>
      cases nested : first.isList with
      | true =>
        simp only [Bool.false_eq_true, if_false, if_true, ih, List.forall_mem_cons, nested,
          true_and]
        split <;> rfl
      | false => simp [nested]

theorem normalize_cons (item : Item) (items : List Item) :
    normalize (item :: items) =
      if ∀ kept ∈ normalize items, kept.isList = true then normalize [item] ++ normalize items
      else item :: normalize items := by
  simp only [normalize, List.reverse_cons, List.mem_reverse, List.reverse_nil, List.nil_append,
    dropNull_append items.reverse item]
  split <;> simp

theorem normalize_cons_congr (item : Item) (same : normalize as = normalize bs) :
    normalize (item :: as) = normalize (item :: bs) := by
  rw [normalize_cons item as, normalize_cons item bs, same]

theorem normalize_singleton (solid : item.isNull = false) : normalize [item] = [item] := by
  by_cases nested : item.isList = true <;> simp [normalize, dropNull, solid, nested]

theorem normalize_null (null : item.isNull = true) : normalize [item] = [] := by
  simp [normalize, dropNull, null]

theorem normalize_cons_solid (solid : item.isNull = false) (items : List Item) :
    normalize (item :: items) = item :: normalize items := by
  rw [normalize_cons, normalize_singleton solid]
  split <;> rfl

theorem itemsOf_dot (is : word.IsWord) (rest : List Lexeme) :
    itemsOf (word :: .dot :: rest) = word.item false :: itemsOf rest := by
  obtain ⟨dot, hyphen⟩ := is
  rw [itemsOf] <;> assumption

theorem itemsOf_hyphen (is : word.IsWord) (rest : List Lexeme) :
    itemsOf (word :: .hyphen :: rest) = [word.item false, .list (normalize (itemsOf rest))] := by
  obtain ⟨dot, hyphen⟩ := is
  rw [itemsOf] <;> assumption

theorem itemsOf_change (is : word.IsWord) (is' : next.IsWord) (rest : List Lexeme) :
    itemsOf (word :: next :: rest) =
      [word.item next.isDigits, .list (normalize (itemsOf (next :: rest)))] := by
  obtain ⟨dot, hyphen⟩ := is
  obtain ⟨dot', hyphen'⟩ := is'
  rw [itemsOf] <;> assumption

theorem itemsOf_singleton (is : word.IsWord) : itemsOf [word] = [word.item false] := by
  obtain ⟨dot, hyphen⟩ := is
  rw [itemsOf] <;> assumption

theorem itemsOf_append_rec {R : List Item → List Item → Prop}
    (alone : R (normalize (itemsOf tail)) [])
    (after : ∀ word : Lexeme, word.IsWord →
      R (normalize (itemsOf (word :: tail))) (normalize [word.item false]))
    (cons : ∀ item as bs, R (normalize as) (normalize bs) →
      R (normalize (item :: as)) (normalize (item :: bs)))
    (list : ∀ item as bs, R as bs → R (normalize [item, .list as]) (normalize [item, .list bs]))
    (front : List Lexeme) :
    R (normalize (itemsOf (front ++ tail))) (normalize (itemsOf front)) := by
  fun_induction itemsOf front with
  | case1 => exact alone
  | case2 rest ih => exact cons _ _ _ ih
  | case3 rest ih => exact list _ _ _ ih
  | case4 last dot hyphen => exact after last ⟨dot, hyphen⟩
  | case5 word rest dot hyphen ih =>
    rw [List.cons_append, List.cons_append, itemsOf_dot ⟨dot, hyphen⟩]
    exact cons _ _ _ ih
  | case6 word rest dot hyphen ih =>
    rw [List.cons_append, List.cons_append, itemsOf_hyphen ⟨dot, hyphen⟩]
    exact list _ _ _ ih
  | case7 word next rest dot hyphen dot' hyphen' ih =>
    rw [List.cons_append, List.cons_append, itemsOf_change ⟨dot, hyphen⟩ ⟨dot', hyphen'⟩]
    exact list _ _ _ ih

end VersionAlignment.Version
