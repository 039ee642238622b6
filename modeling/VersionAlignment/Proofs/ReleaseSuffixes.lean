import VersionAlignment.Proofs.ContinuedItems
import VersionAlignment.Proofs.VersionTexts

set_option autoImplicit false

namespace VersionAlignment.Version

variable {item other : Item} {separator last : Lexeme} {body : List Char} {v suffix : String}

theorem normalize_pair_null (null : other.isNull = true) :
    normalize [item, other] = normalize [item] :=
  normalize_cons_congr item (normalize_null null)

theorem normalize_itemsOf_neutral (separates : separator = .dot ∨ separator = .hyphen)
    (is : last.IsWord) (null : (last.item false).isNull = true) (front : List Lexeme) :
    normalize (itemsOf (front ++ [separator, last])) = normalize (itemsOf front) := by
  have alone : itemsOf [last] = [last.item false] := itemsOf_singleton is
  have empty : (Item.list (normalize [last.item false])).isNull = true := by
    rw [normalize_null null]
    rfl
  have zero : normalize [.number 0] = [] := normalize_null rfl
  refine itemsOf_append_rec (R := Eq) ?_ ?_ ?_ ?_ front
  · rcases separates with rfl | rfl
    · rw [itemsOf, alone, normalize_pair_null null, zero]
    · rw [itemsOf, alone, normalize_pair_null empty, zero]
  · intro word is'
    rcases separates with rfl | rfl
    · rw [itemsOf_dot is', alone, normalize_pair_null null]
    · rw [itemsOf_hyphen is', alone, normalize_pair_null empty]
  · exact fun item as bs same => normalize_cons_congr item same
  · rintro item as bs rfl
    rfl

theorem ofWord_release {word : String} (release : word ∈ releaseWords) :
    word.toList ≠ [] ∧ (∀ c ∈ word.toList, 0x61 ≤ c.toNat ∧ c.toNat < 0x7B) ∧
      Qualifier.ofWord word = .release := by
  simp only [releaseWords, List.mem_cons, List.not_mem_nil, or_false] at release
  rcases release with rfl | rfl | rfl <;> simp [Qualifier.ofWord]

namespace IsNeutral

theorem bounds (neutral : IsNeutral body) : ∀ c ∈ body, 0x20 < c.toNat ∧ c.toNat < 0x80 := by
  intro c member
  rcases neutral with ⟨-, zeros⟩ | word
  · rw [zeros c member]
    decide
  · have lowered : c.toLower ∈ body.map Char.toLower := List.mem_map_of_mem member
    have letter := (ofWord_release word).2.1 c.toLower (by rwa [String.toList_ofList])
    rcases Text.toLower_cases c with same | ⟨low, high, -⟩
    · rw [same] at letter
      omega
    · omega

theorem solid (neutral : IsNeutral body) : ∀ c ∈ body, Text.isBlank c = false := fun c member =>
  Text.isBlank_of_toNat (neutral.bounds c member).1 (neutral.bounds c member).2

theorem exists_lex (neutral : IsNeutral body) : ∃ last : Lexeme,
    lex (body.map Char.toLower) = [last] ∧ last.IsWord ∧ (last.item false).isNull = true := by
  rcases neutral with ⟨nonempty, zeros⟩ | word
  · have same : body.map Char.toLower = body := by
      refine (List.map_congr_left fun c member => ?_).trans (List.map_id _)
      rw [zeros c member]
      rfl
    have digits : ∀ c ∈ body, c.isDigit = true := by
      intro c member
      rw [zeros c member]
      rfl
    have null : valueOfDigits body = 0 := by
      have none : significant body = [] := by
        simpa [significant] using zeros
      rw [← valueOfDigits_significant, none]
      rfl
    exact ⟨.digits body, by rw [same, lex_digits ⟨nonempty, digits⟩], Lexeme.isWord_digits _,
      by simp [Lexeme.item, Item.isNull, null]⟩
  · obtain ⟨nonempty, letters, release⟩ := ofWord_release word
    rw [String.toList_ofList] at nonempty letters
    have inside : ∀ c ∈ body.map Char.toLower, inWord c = true := fun c member =>
      inWord_of_toNat (by have := letters c member; omega)
    exact ⟨.letters (body.map Char.toLower), lex_word nonempty inside, Lexeme.isWord_letters _,
      by simp [Lexeme.item, Item.isNull, release]⟩

end IsNeutral

theorem IsReleaseSuffix.ascii (neutral : IsReleaseSuffix suffix) : IsAscii suffix := by
  obtain ⟨mark, body, separates, neutral, rfl⟩ := neutral
  intro c member
  rw [String.toList_ofList] at member
  rcases List.mem_cons.1 member with rfl | member
  · rcases List.mem_pair.1 separates with rfl | rfl <;> decide
  · exact (neutral.bounds c member).2

theorem IsReleaseSuffix.solid (neutral : IsReleaseSuffix suffix) :
    ∀ c ∈ suffix.toList, Text.isBlank c = false := by
  obtain ⟨mark, body, separates, neutral, rfl⟩ := neutral
  intro c member
  rw [String.toList_ofList] at member
  rcases List.mem_cons.1 member with rfl | member
  · rcases List.mem_pair.1 separates with rfl | rfl <;> decide
  · exact neutral.solid c member

theorem parse_append_release (ascii : IsAscii v) (solid : EndsSolid v)
    (neutral : IsReleaseSuffix suffix) : parse (v ++ suffix) = parse v := by
  have narrow : ∀ c ∈ v.toList ++ suffix.toList, c.toNat < 0x80 := by
    intro c member
    exact (List.mem_append.1 member).elim (ascii c) (neutral.ascii c)
  have unblank := neutral.solid
  obtain ⟨mark, body, separates, neutral, rfl⟩ := neutral
  obtain ⟨last, lexeme, is, null⟩ := neutral.exists_lex
  have ends : lexEnd body = [last] := by
    rw [lexEnd_of_solid fun c ends => neutral.solid c (List.mem_of_getLast? ends), lexeme]
  rw [String.toList_ofList] at narrow unblank
  rw [parse, parse, String.toList_append, String.toList_ofList,
    parseChars_append narrow rfl (unblank mark List.mem_cons_self)
      fun c _ => joined_separator c separates, parseChars_of_solid ascii solid]
  rcases List.mem_pair.1 separates with rfl | rfl
  · rw [lexEnd_dot, ends, normalize_itemsOf_neutral (.inl rfl) is null]
  · rw [lexEnd_hyphen, ends, normalize_itemsOf_neutral (.inr rfl) is null]

theorem parse_append_releases (ascii : IsAscii v) (solid : EndsSolid v) {suffixes : List String}
    (neutral : ∀ suffix ∈ suffixes, IsReleaseSuffix suffix) :
    parse (v ++ String.join suffixes) = parse v := by
  induction suffixes generalizing v with
  | nil => rw [String.join_nil, String.append_empty]
  | cons suffix suffixes ih =>
    obtain ⟨first, neutral⟩ := List.forall_mem_cons.1 neutral
    have unblank : EndsSolid suffix := fun c last => first.solid c (List.mem_of_getLast? last)
    rw [String.join_cons, ← String.append_assoc,
      ih (ascii.append first.ascii) (solid.append unblank) neutral,
      parse_append_release ascii solid first]

/-- Suffixes of plain releases do not show, in whichever number they follow. -/
theorem parse_released (ascii : IsAscii v) (solid : EndsSolid v) {suffixes : List String}
    (neutral : ∀ suffix ∈ suffixes, IsReleaseSuffix suffix) :
    parse (v ++ String.join suffixes) = parse v ∧
      ∀ other, compare (v ++ String.join suffixes) other = compare v other ∧
        compare other (v ++ String.join suffixes) = compare other v := by
  have items := parse_append_releases ascii solid neutral
  refine ⟨items, fun other => ?_⟩
  rw [compare, compare, compare, compare, items]
  exact ⟨rfl, rfl⟩

theorem parse_released_twice :
    IsAscii "1.2-x" ∧ EndsSolid "1.2-x" ∧
      (∀ suffix ∈ [".00", "-GA"], IsReleaseSuffix suffix) ∧
      parse ("1.2-x" ++ String.join [".00", "-GA"]) = parse "1.2-x" ∧
      compare ("1.2-x" ++ String.join [".00", "-GA"]) "1.2-y" = .lt := by
  have ascii : IsAscii "1.2-x" := by simp [IsAscii]
  have solid : EndsSolid "1.2-x" := by
    simp [EndsSolid]
    decide
  have zeros : IsReleaseSuffix ".00" := ⟨'.', ['0', '0'], by simp, .inl (by simp), rfl⟩
  have release : IsReleaseSuffix "-GA" := ⟨'-', ['G', 'A'], by simp, .inr (by decide), rfl⟩
  have neutral : ∀ suffix ∈ [".00", "-GA"], IsReleaseSuffix suffix := by
    simpa using ⟨zeros, release⟩
  obtain ⟨items, order⟩ := parse_released ascii solid neutral
  exact ⟨ascii, solid, neutral, items, (order "1.2-y").1.trans (by decide +kernel)⟩

end VersionAlignment.Version
