import VersionAlignment.Proofs.ContinuedItems
import VersionAlignment.Proofs.VersionTexts

set_option autoImplicit false

namespace VersionAlignment.Version

variable {order : Ordering} {as bs rest : List Item} {q : Qualifier} {word : Lexeme}
  {more : List Lexeme} {c : Char}

/-- At some depth the first items go on with a list that the others do not have, and the list is in
this order to a missing item. -/
inductive Extends (order : Ordering) : List Item → List Item → Prop
  | here {inner : List Item} (front : List Item) : inner ≠ [] →
      (Item.list inner).compareMissing = order → Extends order (front ++ [.list inner]) front
  | inside {as bs : List Item} (front : List Item) : bs ≠ [] → Extends order as bs →
      Extends order (front ++ [.list as]) (front ++ [.list bs])

theorem Item.compare_self (item : Item) : item.compare item = .eq := by
  have swapped := Item.compare_swap item item
  cases same : item.compare item <;> simp_all

theorem compareItems_append_left (front as bs : List Item) :
    compareItems (front ++ as) (front ++ bs) = compareItems as bs := by
  induction front with
  | nil => rfl
  | cons item front ih =>
    rw [List.cons_append, List.cons_append, compareItems, Item.compare_self, ih]
    rfl

namespace Extends

theorem ne_nil (goes : Extends order as bs) : as ≠ [] := by
  cases goes <;> simp

theorem append (front : List Item) (goes : Extends order as bs) :
    Extends order (front ++ as) (front ++ bs) := by
  cases goes with
  | here _ nonempty judged =>
    rw [← List.append_assoc]
    exact .here (front ++ bs) nonempty judged
  | inside front' nonempty goes =>
    rw [← List.append_assoc, ← List.append_assoc]
    exact .inside (front ++ front') nonempty goes

theorem forall_isList_iff (goes : Extends order as bs) :
    (∀ item ∈ as, item.isList = true) ↔ ∀ item ∈ bs, item.isList = true := by
  cases goes <;> simp [or_imp, forall_and, Item.isList]

theorem cons (item : Item) (goes : Extends order (normalize as) (normalize bs)) :
    Extends order (normalize (item :: as)) (normalize (item :: bs)) := by
  rw [normalize_cons item as, normalize_cons item bs]
  by_cases lists : ∀ kept ∈ normalize bs, kept.isList = true
  · rw [if_pos lists, if_pos (goes.forall_isList_iff.2 lists)]
    exact goes.append (normalize [item])
  · rw [if_neg lists, if_neg (mt goes.forall_isList_iff.1 lists)]
    exact goes.append [item]

theorem exists_of_nil (goes : Extends order as []) :
    ∃ inner, as = [.list inner] ∧ (Item.list inner).compareMissing = order := by
  generalize none : ([] : List Item) = bs at goes
  cases goes with
  | @here inner _ _ judged => exact ⟨inner, by rw [← none]; rfl, judged⟩
  | inside front => simp at none

theorem list (item : Item) (goes : Extends order as bs) :
    Extends order (normalize [item, .list as]) (normalize [item, .list bs]) := by
  have longer : normalize [item, .list as] = normalize [item] ++ [.list as] :=
    normalize_append_list [item] goes.ne_nil
  rw [longer]
  by_cases empty : bs = []
  -- An empty list is dropped, and a list that opens with a list is judged by that one.
  · subst empty
    have shorter : normalize [item, .list []] = normalize [item] := normalize_append_empty [item]
    obtain ⟨inner, rfl, judged⟩ := goes.exists_of_nil
    rw [shorter]
    exact .here _ (by simp) judged
  · have shorter : normalize [item, .list bs] = normalize [item] ++ [.list bs] :=
      normalize_append_list [item] empty
    rw [shorter]
    exact .inside _ empty goes

theorem compareItems (goes : Extends order as bs) : compareItems as bs = order := by
  induction goes with
  | @here inner front nonempty judged =>
    have shorter := compareItems_append_left front [.list inner] []
    rw [List.append_nil] at shorter
    rw [shorter, compareItems_nil_right, compareNone, judged]
    exact Ordering.then_eq
  | inside front _ _ ih =>
    rw [compareItems_append_left, Version.compareItems, Item.compare, ih]
    exact Ordering.then_eq

end Extends

theorem extends_itemsOf (opens : itemsOf more = .qualifier q :: rest) (apart : q ≠ .release)
    (front : List Lexeme) :
    Extends (q.compare .release) (normalize (itemsOf (front ++ .hyphen :: more)))
      (normalize (itemsOf front)) := by
  have inner : normalize (itemsOf more) = .qualifier q :: normalize rest := by
    rw [opens]
    exact normalize_cons_solid (by simpa [Item.isNull] using apart) rest
  have nonempty : normalize (itemsOf more) ≠ [] := by simp [inner]
  have judged : (Item.list (normalize (itemsOf more))).compareMissing = q.compare .release := by
    rw [inner]
    rfl
  have ends (item : Item) : Extends (q.compare .release)
      (normalize [item, .list (normalize (itemsOf more))]) (normalize [item]) := by
    have split : normalize [item, .list (normalize (itemsOf more))] = _ :=
      normalize_append_list [item] nonempty
    rw [split]
    exact .here _ nonempty judged
  refine itemsOf_append_rec ?_ ?_ (fun item _ _ => .cons item) (fun item _ _ => .list item) front
  · exact ends (.number 0)
  · intro word is
    rw [itemsOf_hyphen is]
    exact ends (word.item false)

theorem exists_itemsOf_cons (is : word.IsWord) (more : List Lexeme) :
    ∃ rest, itemsOf (word :: more) = word.item (more.head?.any Lexeme.isDigits) :: rest := by
  cases more with
  | nil => exact ⟨[], itemsOf_singleton is⟩
  | cons next more =>
    cases next with
    | dot => exact ⟨_, itemsOf_dot is more⟩
    | hyphen => exact ⟨_, itemsOf_hyphen is more⟩
    | digits => exact ⟨_, itemsOf_change is (Lexeme.isWord_digits _) more⟩
    | letters => exact ⟨_, itemsOf_change is (Lexeme.isWord_letters _) more⟩

theorem ofWord_early {word : String} (early : word ∈ earlyWords) :
    (Qualifier.ofWord word).compare .release = .lt := by
  simp only [earlyWords, List.mem_cons, List.not_mem_nil, or_false] at early
  rcases early with rfl | rfl | rfl | rfl | rfl | rfl <;> rfl

theorem ofWord_late {word : String} (early : word ∉ earlyWords) (release : word ∉ releaseWords)
    (nonempty : word ≠ "") : (Qualifier.ofWord word).compare .release = .gt := by
  simp only [earlyWords, releaseWords, List.mem_cons, List.not_mem_nil, or_false, not_or] at *
  unfold Qualifier.ofWord
  split <;> simp_all <;> rfl

theorem bounds_of_isAlpha (letter : c.isAlpha = true) : 0x41 ≤ c.toNat ∧ c.toNat < 0x7B := by
  simp [Char.isAlpha, Char.isUpper, Char.isLower, UInt32.le_iff_toNat_le] at letter
  omega

namespace IsQualifier

variable {v word rest : String}

theorem asciiWord (suffix : IsQualifier word rest) : IsAscii word := by
  intro c member
  have letter := bounds_of_isAlpha (suffix.letters c member)
  omega

theorem inside (suffix : IsQualifier word rest) : ∀ c ∈ word.toList, inWord c = true :=
  fun c member => inWord_of_toNat (bounds_of_isAlpha (suffix.letters c member)).1

theorem wordBefore_ne_empty (suffix : IsQualifier word rest) : wordBefore word rest ≠ "" := by
  have lowered : Text.lowercase word ≠ "" := by
    rw [Text.lowercase_of_ascii suffix.asciiWord]
    simpa using suffix.nonempty
  unfold wordBefore writtenOut
  split
  · split <;> simp_all
  · exact lowered

theorem exists_itemsOf (suffix : IsQualifier word rest) : ∃ items,
    itemsOf (.letters (word.toList.map Char.toLower) :: lex (rest.toList.map Char.toLower)) =
      .qualifier (.ofWord (wordBefore word rest)) :: items := by
  obtain ⟨items, opens⟩ := exists_itemsOf_cons
    (Lexeme.isWord_letters (word.toList.map Char.toLower)) (lex (rest.toList.map Char.toLower))
  refine ⟨items, ?_⟩
  have digits : ((rest.toList.map Char.toLower).head?.any Char.isDigit) =
      rest.toList.head?.any Char.isDigit := by
    cases rest.toList with
    | nil => rfl
    | cons c cs => exact isDigit_toLower c
  rw [opens, isDigits_head_lex, digits, Lexeme.item,
    ← Text.lowercase_of_ascii suffix.asciiWord]
  unfold wordBefore
  split
  · rw [Qualifier.beforeDigit_eq]
  · rfl

theorem lex_eq (suffix : IsQualifier word rest) :
    lex ((word.toList ++ rest.toList).map Char.toLower) =
      .letters (word.toList.map Char.toLower) :: lex (rest.toList.map Char.toLower) := by
  have letters : ∀ c ∈ word.toList.map Char.toLower, inWord c = true := by
    intro lowered mapped
    obtain ⟨c, member, rfl⟩ := List.mem_map.1 mapped
    rw [inWord_toLower]
    exact suffix.inside c member
  have apart : ∀ c ∈ word.toList.getLast?, ∀ d ∈ rest.toList.head?, Joined c d = false := by
    intro c last d first
    have letter := suffix.inside c (List.mem_of_getLast? last)
    have other : inWord d = false := by
      rcases suffix.starts d first with rfl | rfl | digit
      · decide
      · decide
      · simp [inWord, digit]
    exact joined_of_ne (by simp [letter, other])
  rw [List.map_append, lex_append (joined_lowered apart),
    lex_word (by simpa using suffix.nonempty) letters]
  rfl

theorem parse_append (suffix : IsQualifier word rest) (ascii : IsAscii v) :
    parse (v ++ "-" ++ word ++ rest) = normalize (itemsOf (lexStart v.toList ++ .hyphen ::
      .letters (word.toList.map Char.toLower) :: lex (rest.toList.map Char.toLower))) := by
  have chars : (v ++ "-" ++ word ++ rest).toList =
      v.toList ++ '-' :: (word.toList ++ rest.toList) := by
    simp [String.toList_append]
  have narrow : ∀ c ∈ v.toList ++ '-' :: (word.toList ++ rest.toList), c.toNat < 0x80 := by
    rw [← chars]
    have hyphen : IsAscii "-" := by simp [IsAscii]
    exact ((ascii.append hyphen).append suffix.asciiWord).append suffix.ascii
  have ends : ∀ c ∈ (word.toList ++ rest.toList).getLast?, Text.isBlank c = false := by
    have solid : EndsSolid word := fun c last => by
      have letter := bounds_of_isAlpha (suffix.letters c (List.mem_of_getLast? last))
      exact Text.isBlank_of_toNat (by omega) (by omega)
    rw [← String.toList_append]
    exact solid.append suffix.solid
  rw [parse, chars,
    parseChars_append narrow rfl (by decide) fun c _ => joined_separator c (by simp),
    lexEnd_hyphen, lexEnd_of_solid ends, suffix.lex_eq]

theorem extends_parse (suffix : IsQualifier word rest) (ascii : IsAscii v) (solid : EndsSolid v)
    (apart : Qualifier.ofWord (wordBefore word rest) ≠ .release) :
    Extends ((Qualifier.ofWord (wordBefore word rest)).compare .release)
      (parse (v ++ "-" ++ word ++ rest)) (parse v) := by
  obtain ⟨items, opens⟩ := suffix.exists_itemsOf
  rw [suffix.parse_append ascii, parse, parseChars_of_solid ascii solid]
  exact extends_itemsOf opens apart _

end IsQualifier

/-- A word after a hyphen moves a version the way that the word says, whatever follows it and
whatever the version ends in. -/
theorem compare_qualified {v word rest : String} (ascii : IsAscii v) (solid : EndsSolid v)
    (suffix : IsQualifier word rest) :
    (wordBefore word rest ∈ earlyWords → compare (v ++ "-" ++ word ++ rest) v = .lt) ∧
      (wordBefore word rest ∉ earlyWords → wordBefore word rest ∉ releaseWords →
        compare (v ++ "-" ++ word ++ rest) v = .gt) := by
  constructor
  · intro early
    have below := ofWord_early early
    have apart : Qualifier.ofWord (wordBefore word rest) ≠ .release := by
      intro same
      rw [same] at below
      cases below
    rw [compare, (suffix.extends_parse ascii solid apart).compareItems, below]
  · intro early release
    have above := ofWord_late early release suffix.wordBefore_ne_empty
    have apart : Qualifier.ofWord (wordBefore word rest) ≠ .release := by
      intro same
      rw [same] at above
      cases above
    rw [compare, (suffix.extends_parse ascii solid apart).compareItems, above]

theorem compare_qualified_milestone :
    IsAscii "1-0." ∧ EndsSolid "1-0." ∧ IsQualifier "M" "2.x" ∧ IsQualifier "M" "-2" ∧
      wordBefore "M" "2.x" = "milestone" ∧ wordBefore "M" "-2" = "m" ∧
      compare ("1-0." ++ "-" ++ "M" ++ "2.x") "1-0." = .lt ∧
      compare ("1-0." ++ "-" ++ "M" ++ "-2") "1-0." = .gt := by
  have ascii : IsAscii "1-0." := by simp [IsAscii]
  have solid : EndsSolid "1-0." := by
    simp [EndsSolid]
    decide
  have digit : IsQualifier "M" "2.x" :=
    ⟨by decide, by simp, by simp [IsAscii], by simp [EndsSolid]; decide, by simp⟩
  have hyphen : IsQualifier "M" "-2" :=
    ⟨by decide, by simp, by simp [IsAscii], by simp [EndsSolid]; decide, by simp⟩
  have written : wordBefore "M" "2.x" = "milestone" := by decide +kernel
  have lone : wordBefore "M" "-2" = "m" := by decide +kernel
  have below := (compare_qualified ascii solid digit).1 (by rw [written]; simp [earlyWords])
  have above := (compare_qualified ascii solid hyphen).2 (by rw [lone]; simp [earlyWords])
    (by rw [lone]; simp [releaseWords])
  exact ⟨ascii, solid, digit, hyphen, written, lone, below, above⟩

end VersionAlignment.Version
