import Mathlib.Data.List.TakeDrop
import VersionAlignment.Plan.Write
import VersionAlignment.Proofs.QuotedText
import VersionAlignment.Toml.Document

set_option autoImplicit false

namespace VersionAlignment.Toml

variable {levels : Nat} {rest : List Char}

theorem exists_quotedChars (cs : List Char) :
    ∃ first more, quotedChars cs = first :: more ∧ (first = '"' ∨ first = '\'') := by
  unfold quotedChars
  cases Style.choose cs with
  | basicLine => exact ⟨_, _, rfl, .inl rfl⟩
  | literalLine => exact ⟨_, _, rfl, .inr rfl⟩
  | basicBlock => exact ⟨_, _, rfl, .inl rfl⟩
  | literalBlock => exact ⟨_, _, rfl, .inr rfl⟩

theorem value?_quotedChars (s : String) (double : rest.head? ≠ some '"')
    (single : rest.head? ≠ some '\'') :
    value? levels (quotedChars s.toList ++ rest) = some (.string s, rest) := by
  have read : quotedText (quotedChars s.toList ++ rest) = some (s.toList, rest) :=
    quotedText_quotedChars double single
  obtain ⟨first, more, same, rfl | rfl⟩ := exists_quotedChars s.toList
  · rw [same, List.cons_append] at read ⊢
    rw [value?, read]
    simp [text?]
  · rw [same, List.cons_append] at read ⊢
    rw [value?, read]
    simp [text?]

theorem value?_one : value? levels ('1' :: '\n' :: rest) = some (.integer 1, '\n' :: rest) := by
  have word : splitWord ('1' :: '\n' :: rest) = (['1'], '\n' :: rest) := by
    simp [splitWord, List.span_eq_takeWhile_dropWhile, isWordChar, date?]
  have number : valueOfWord? ['1'] = some (.integer 1) := by
    rfl
  rw [value?, word]
  · simp [number]
  all_goals simp

theorem skipLines_quotedChars (cs more : List Char) :
    skipLines false (quotedChars cs ++ more) = quotedChars cs ++ more := by
  obtain ⟨first, after, same, rfl | rfl⟩ := exists_quotedChars cs <;>
    simp [same, skipLines, isGap]

def rows (texts : List String) : List Char :=
  texts.flatMap fun s => [' ', ' ', ' ', ' '] ++ quotedChars s.toList ++ [',', '\n']

theorem length_le_rows (texts : List String) : texts.length ≤ (rows texts).length := by
  induction texts with
  | nil => exact Nat.le_refl _
  | cons s texts ih =>
    simp only [rows, List.flatMap_cons, List.length_append, List.length_cons] at ih ⊢
    omega

theorem quotedChars_append_ne (cs more rest : List Char) :
    quotedChars cs ++ more ≠ ']' :: rest := by
  obtain ⟨first, after, same, quote⟩ := exists_quotedChars cs
  rw [same]
  rintro other
  cases other
  simp at quote

section Elements

variable {fuel : Nat} {cs next : List Char} {s : String}

theorem elements?_bracket (skip : skipLines false cs = quotedChars s.toList ++ next)
    (double : next.head? ≠ some '"') (single : next.head? ≠ some '\'')
    (ends : skipLines false next = ']' :: rest) :
    elements? (value? levels) (fuel + 1) cs = some ([.string s], rest) := by
  have read : value? levels (quotedChars s.toList ++ next) = some (.string s, next) :=
    value?_quotedChars s double single
  rw [elements?, skip]
  split
  · next other => exact absurd other (quotedChars_append_ne _ _ _)
  · simp [read, ends]

theorem elements?_comma {values : List Value} {more : List Char}
    (skip : skipLines false cs = quotedChars s.toList ++ next) (double : next.head? ≠ some '"')
    (single : next.head? ≠ some '\'') (goes : skipLines false next = ',' :: more)
    (later : elements? (value? levels) fuel more = some (values, rest)) :
    elements? (value? levels) (fuel + 1) cs = some (.string s :: values, rest) := by
  have read : value? levels (quotedChars s.toList ++ next) = some (.string s, next) :=
    value?_quotedChars s double single
  rw [elements?, skip]
  split
  · next other => exact absurd other (quotedChars_append_ne _ _ _)
  · simp [read, goes, later]

end Elements

theorem elements?_rows (texts : List String) {fuel : Nat} (enough : texts.length < fuel) :
    elements? (value? levels) fuel ('\n' :: (rows texts ++ ']' :: rest)) =
      some (texts.map .string, rest) := by
  induction texts generalizing fuel with
  | nil =>
    obtain ⟨fuel, rfl⟩ := Nat.exists_eq_add_one_of_ne_zero (Nat.ne_of_gt enough)
    simp [rows, elements?, skipLines, isGap]
  | cons s texts ih =>
    obtain ⟨fuel, rfl⟩ := Nat.exists_eq_add_one_of_ne_zero (Nat.ne_of_gt (Nat.zero_lt_of_lt enough))
    have skip : skipLines false ('\n' :: (rows (s :: texts) ++ ']' :: rest)) =
        quotedChars s.toList ++ ',' :: '\n' :: (rows texts ++ ']' :: rest) := by
      simp [rows, skipLines, isGap, skipLines_quotedChars]
    have comma : skipLines false (',' :: '\n' :: (rows texts ++ ']' :: rest)) =
        ',' :: '\n' :: (rows texts ++ ']' :: rest) := by
      simp [skipLines, isGap]
    exact elements?_comma skip (by simp) (by simp) comma (ih (Nat.lt_of_succ_lt_succ enough))

theorem value?_array {cs : List Char} {values : List Value}
    (read : elements? (value? levels) (cs.length + 1) cs = some (values, rest)) :
    value? (levels + 1) ('[' :: cs) = some (.array values, rest) := by
  simp [value?, read]

theorem value?_listText (texts : List String) :
    value? (levels + 1) ((Plan.listText texts).toList ++ rest) =
      some (.array (texts.map .string), rest) := by
  match texts with
  | [] =>
    have shape : (Plan.listText []).toList ++ rest = '[' :: ']' :: rest := by
      simp [Plan.listText]
    rw [shape]
    exact value?_array (by simp [elements?, skipLines, isGap])
  | [s] =>
    have shape : (Plan.listText [s]).toList ++ rest =
        '[' :: (quotedChars s.toList ++ ']' :: rest) := by
      simp [Plan.listText, quotedValue]
    have bracket : skipLines false (']' :: rest) = ']' :: rest := by
      simp [skipLines, isGap]
    rw [shape]
    exact value?_array <|
      elements?_bracket (skipLines_quotedChars _ _) (by simp) (by simp) bracket
  | s :: s' :: texts =>
    have shape : (Plan.listText (s :: s' :: texts)).toList ++ rest =
        '[' :: '\n' :: (rows (s :: s' :: texts) ++ ']' :: rest) := by
      simp [Plan.listText, quotedValue, rows, List.flatMap_map]
    have enough : (s :: s' :: texts).length <
        ('\n' :: (rows (s :: s' :: texts) ++ ']' :: rest)).length + 1 := by
      have := length_le_rows (s :: s' :: texts)
      simp only [List.length_cons, List.length_append] at this ⊢
      omega
    rw [shape]
    exact value?_array (elements?_rows _ enough)

end VersionAlignment.Toml
