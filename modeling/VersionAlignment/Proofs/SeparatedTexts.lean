import VersionAlignment.Text.Blank
import VersionAlignment.Text.Split

set_option autoImplicit false

namespace VersionAlignment.Text

variable {sep c : Char} {cs piece : List Char}

theorem splitChars_append (cs more : List Char) :
    splitChars sep (cs ++ sep :: more) = splitChars sep cs ++ splitChars sep more := by
  induction cs with
  | nil => simp [splitChars]
  | cons c cs ih =>
    by_cases here : c = sep
    · simp [splitChars, here, ih]
    · obtain ⟨first, pieces, split⟩ := List.exists_cons_of_ne_nil (splitChars_ne_nil sep cs)
      simp [splitChars, here, ih, split]

theorem splitChars_of_not_mem (flat : sep ∉ cs) : splitChars sep cs = [cs] := by
  induction cs with
  | nil => rfl
  | cons c cs ih =>
    rw [List.mem_cons, not_or] at flat
    simp [splitChars, Ne.symm flat.1, ih flat.2]

theorem mem_of_mem_splitChars (member : piece ∈ splitChars sep cs) (inside : c ∈ piece) :
    c ∈ cs ∧ c ≠ sep := by
  induction cs generalizing piece with
  | nil =>
    rw [splitChars, List.mem_singleton] at member
    simp [member] at inside
  | cons d cs ih =>
    by_cases here : d = sep
    · rw [splitChars, if_pos here, List.mem_cons] at member
      rcases member with rfl | member
      · cases inside
      · exact ⟨List.mem_cons_of_mem d (ih member inside).1, (ih member inside).2⟩
    · obtain ⟨first, pieces, split⟩ := List.exists_cons_of_ne_nil (splitChars_ne_nil sep cs)
      rw [split] at ih
      simp only [splitChars, if_neg here, split, List.mem_cons] at member
      rcases member with rfl | member
      · rcases List.mem_cons.1 inside with rfl | inside
        · exact ⟨List.mem_cons_self, here⟩
        · have := ih List.mem_cons_self inside
          exact ⟨List.mem_cons_of_mem d this.1, this.2⟩
      · have := ih (List.mem_cons_of_mem first member) inside
        exact ⟨List.mem_cons_of_mem d this.1, this.2⟩

theorem getLast?_splitChars_ne (used : cs ≠ []) (ends : cs.getLast? ≠ some sep) :
    (splitChars sep cs).getLast? ≠ some [] := by
  induction cs with
  | nil => exact absurd rfl used
  | cons c cs ih =>
    by_cases last : cs = []
    · have here : c ≠ sep := by simpa [last] using ends
      simp [last, splitChars, here]
    · -- A character in front opens or lengthens the first piece, and empties no other.
      have ih := ih last (by rwa [List.getLast?_cons_of_ne_nil last] at ends)
      obtain ⟨first, pieces, split⟩ := List.exists_cons_of_ne_nil (splitChars_ne_nil sep cs)
      rw [split] at ih
      by_cases here : c = sep
      · rwa [splitChars, if_pos here, split, List.getLast?_cons_cons]
      · rw [splitChars, if_neg here, split]
        cases pieces with
        | nil => simp
        | cons next pieces => simpa using ih

theorem split_append {s t : String} (sep : Char) :
    split sep (s ++ String.singleton sep ++ t) = split sep s ++ split sep t := by
  simp [split, splitChars_append]

theorem split_ne_nil (sep : Char) (s : String) : split sep s ≠ [] := by
  simp [split, splitChars_ne_nil]

theorem split_of_not_mem {s : String} (flat : sep ∉ s.toList) : split sep s = [s] := by
  simp [split, splitChars_of_not_mem flat]

theorem splitChars_intercalate {pieces : List (List Char)} (some : pieces ≠ [])
    (flat : ∀ piece ∈ pieces, sep ∉ piece) :
    splitChars sep ([sep].intercalate pieces) = pieces := by
  induction pieces with
  | nil => exact absurd rfl some
  | cons piece rest ih =>
    obtain ⟨own, flat⟩ := List.forall_mem_cons.1 flat
    cases rest with
    | nil => simpa using splitChars_of_not_mem own
    | cons next rest =>
      rw [List.intercalate_cons_cons, List.append_assoc, List.singleton_append, splitChars_append,
        splitChars_of_not_mem own, ih (by simp) flat, List.singleton_append]

theorem toList_joinWith (sep : Char) (parts : List String) :
    (joinWith (String.singleton sep) parts).toList = [sep].intercalate (parts.map String.toList) := by
  simp [joinWith, String.toList_intercalate]

theorem split_joinWith {parts : List String} (some : parts ≠ [])
    (flat : ∀ part ∈ parts, sep ∉ part.toList) :
    split sep (joinWith (String.singleton sep) parts) = parts := by
  rw [split, toList_joinWith, splitChars_intercalate (by simpa using some) (by simpa using flat)]
  simp [List.map_map, Function.comp_def]

theorem joinWith_split (sep : Char) (s : String) :
    joinWith (String.singleton sep) (split sep s) = s := by
  rw [← String.toList_inj, toList_joinWith, split, List.map_map]
  simp [Function.comp_def, intercalate_splitChars]

theorem head?_intercalate (nonempty : piece ≠ []) (rest : List (List Char)) :
    ([sep].intercalate (piece :: rest)).head? = piece.head? := by
  obtain ⟨c, cs, rfl⟩ := List.exists_cons_of_ne_nil nonempty
  cases rest with
  | nil => simp
  | cons next rest => simp [List.intercalate_cons_cons]

theorem getLast?_intercalate (nonempty : piece ≠ []) (front : List (List Char)) :
    ([sep].intercalate (front ++ [piece])).getLast? = piece.getLast? := by
  induction front with
  | nil => simp
  | cons first front ih =>
    rw [List.cons_append, List.intercalate_cons_of_ne_nil (by simp), List.getLast?_append, ih,
      List.getLast?_eq_some_getLast nonempty, Option.some_or]

theorem dropWhile_eq_self {test : Char → Bool} (starts : ∀ c ∈ cs.head?, test c = false) :
    cs.dropWhile test = cs := by
  cases cs with
  | nil => rfl
  | cons c cs => rw [List.dropWhile_cons_of_neg (by simp [starts c rfl])]

theorem not_head?_dropWhile {test : Char → Bool} (first : c ∈ (cs.dropWhile test).head?) :
    test c = false := by
  have stops := List.head?_dropWhile_not test cs
  rwa [Option.mem_def.1 first] at stops

theorem trimChars_eq_self (starts : ∀ c ∈ cs.head?, isBlank c = false)
    (ends : ∀ c ∈ cs.getLast?, isBlank c = false) : trimChars cs = cs := by
  rw [trimChars, dropWhile_eq_self starts, dropWhile_eq_self (by simpa using ends),
    List.reverse_reverse]

theorem isBlank_of_head?_trimChars (first : c ∈ (trimChars cs).head?) : isBlank c = false := by
  have front : trimChars cs <+: cs.dropWhile isBlank := by
    rw [trimChars, ← List.reverse_suffix, List.reverse_reverse]
    exact List.dropWhile_suffix _
  -- What starts the trimmed text is what the first of the two passes stopped at.
  obtain ⟨back, whole⟩ := front
  have also : c ∈ (cs.dropWhile isBlank).head? := by
    rw [← whole, List.head?_append, Option.mem_def.1 first]
    rfl
  exact not_head?_dropWhile also

theorem isBlank_of_getLast?_trimChars (last : c ∈ (trimChars cs).getLast?) :
    isBlank c = false := by
  rw [trimChars, List.getLast?_reverse] at last
  exact not_head?_dropWhile last

end VersionAlignment.Text
