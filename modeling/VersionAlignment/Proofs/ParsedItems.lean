import VersionAlignment.Version.Normal
import VersionAlignment.Version.Parse

set_option autoImplicit false

namespace VersionAlignment.Version

def Trailing (items : List Item) : Prop :=
  ∃ front, (∀ item ∈ front, item.isList = false) ∧
    (items = front ∨ ∃ inner, Normal inner ∧ items = front ++ [.list inner])

namespace Trailing

variable {item : Item} {items : List Item}

theorem nil : Trailing [] := ⟨[], by simp, .inl rfl⟩

theorem list (normal : Normal items) : Trailing [.list items] :=
  ⟨[], by simp, .inr ⟨items, normal, rfl⟩⟩

theorem cons (single : item.isList = false) (rest : Trailing items) : Trailing (item :: items) := by
  obtain ⟨front, singles, split⟩ := rest
  refine ⟨item :: front, List.forall_mem_cons.2 ⟨single, singles⟩, ?_⟩
  rcases split with rfl | ⟨inner, normal, rfl⟩
  · exact .inl rfl
  · exact .inr ⟨inner, normal, rfl⟩

theorem normalize (trailing : Trailing items) : Normal (normalize items) := by
  obtain ⟨front, singles, rfl | ⟨inner, normal, rfl⟩⟩ := trailing
  · exact .plain (plain_normalize singles)
  · by_cases empty : inner = []
    -- An empty list is dropped, and then null items before it are.
    · rw [empty, normalize_append_empty]
      exact .plain (plain_normalize singles)
    · rw [normalize_append_list front empty]
      exact .nested (plain_normalize singles) empty normal

end Trailing

theorem Lexeme.isList_item (beforeDigit : Bool) (lexeme : Lexeme) :
    (lexeme.item beforeDigit).isList = false := by
  cases lexeme <;> rfl

theorem trailing_itemsOf (lexemes : List Lexeme) : Trailing (itemsOf lexemes) := by
  fun_induction itemsOf lexemes with
  | case1 => exact .nil
  | case2 rest ih => exact .cons rfl ih
  | case3 rest ih => exact .cons rfl (.list ih.normalize)
  | case4 last => exact .cons (last.isList_item _) .nil
  | case5 word rest _ _ ih => exact .cons (word.isList_item _) ih
  | case6 word rest _ _ ih => exact .cons (word.isList_item _) (.list ih.normalize)
  | case7 word next rest _ _ _ _ ih => exact .cons (word.isList_item _) (.list ih.normalize)

theorem normal_parseChars (cs : List Char) : Normal (parseChars cs) :=
  (trailing_itemsOf _).normalize

/-- The items themselves and every list that stands somewhere in them. -/
inductive Nests : List Item → List Item → Prop
  | self (items : List Item) : Nests items items
  | under {items inner deeper : List Item} :
    .list inner ∈ items → Nests inner deeper → Nests items deeper

theorem Plain.not_list_mem {items inner : List Item} (plain : Plain items) :
    .list inner ∉ items := by
  intro member
  simpa [Item.isList] using plain.1 _ member

theorem Normal.of_list_mem {items inner : List Item} (normal : Normal items)
    (member : .list inner ∈ items) : Normal inner := by
  cases normal with
  | plain plain => exact absurd member plain.not_list_mem
  | nested plain some normal =>
    rcases List.mem_append.1 member with front | last
    · exact absurd front plain.not_list_mem
    · obtain rfl : inner = _ := by simpa using last
      exact normal

theorem Normal.of_nests {items inner : List Item} (normal : Normal items)
    (nests : Nests items inner) : Normal inner := by
  induction nests with
  | self => exact normal
  | under member _ ih => exact ih (normal.of_list_mem member)

/-- A list at any depth of a version is a run of single items, the last of which is not null, and
after them at most one list, which is not empty. -/
theorem nests_parse {text : String} {items : List Item} (nests : Nests (parse text) items) :
    ∃ front, Plain front ∧
      (items = front ∨ ∃ inner, inner ≠ [] ∧ items = front ++ [.list inner]) := by
  have normal : Normal items := (normal_parseChars text.toList).of_nests nests
  cases normal with
  | plain plain => exact ⟨items, plain, .inl rfl⟩
  | nested plain some _ => exact ⟨_, plain, .inr ⟨_, some, rfl⟩⟩

theorem nests_parse_zeros :
    let inner : List Item := [.number 0, .qualifier .alpha, .list [.number 1]]
    parse "1.0-0.alpha.0-1.0" = [.number 1, .list inner] ∧
      Nests (parse "1.0-0.alpha.0-1.0") inner ∧
      ∃ front, Plain front ∧
        (inner = front ∨ ∃ last, last ≠ [] ∧ inner = front ++ [.list last]) := by
  intro inner
  have parsed : parse "1.0-0.alpha.0-1.0" = [.number 1, .list inner] := by rfl
  have nests : Nests (parse "1.0-0.alpha.0-1.0") inner := by
    rw [parsed]
    exact .under (by simp) (.self inner)
  exact ⟨parsed, nests, nests_parse nests⟩

end VersionAlignment.Version
