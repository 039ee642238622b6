import VersionAlignment.Proofs.DottedVersions
import VersionAlignment.Version.Spelling

set_option autoImplicit false

namespace VersionAlignment

namespace Text

variable {cs front back : List Char} {d : Char}

theorem lowerChars_of_ascii (narrow : ∀ c ∈ cs, c.toNat < 0x80) :
    lowerChars cs = cs.map Char.toLower := by
  suffices lowered : ∀ before, lowerAfter before cs = cs.map Char.toLower from lowered []
  induction cs with
  | nil => simp [lowerAfter]
  | cons c cs ih =>
    obtain ⟨first, narrow⟩ := List.forall_mem_cons.1 narrow
    have other : c ≠ 'Σ' := by
      rintro rfl
      exact absurd first (by decide)
    intro before
    simp [lowerAfter, lowerChar, other, first, ih narrow]

theorem lowercase_of_ascii {s : String} (narrow : ∀ c ∈ s.toList, c.toNat < 0x80) :
    lowercase s = String.ofList (s.toList.map Char.toLower) := by
  rw [lowercase, lowerChars_of_ascii narrow]

theorem toLower_cases (c : Char) :
    c.toLower = c ∨ 0x41 ≤ c.toNat ∧ c.toNat ≤ 0x5A ∧ c.toLower.toNat = c.toNat + 0x20 := by
  by_cases upper : c.isUpper = true
  · have bounds : 'A'.val ≤ c.val ∧ c.val ≤ 'Z'.val := by simpa [Char.isUpper] using upper
    have low : 0x41 ≤ c.toNat := UInt32.le_iff_toNat_le.1 bounds.1
    have high : c.toNat ≤ 0x5A := UInt32.le_iff_toNat_le.1 bounds.2
    refine .inr ⟨low, high, ?_⟩
    rw [Char.toLower, dif_pos bounds]
    show (c.val + ('a'.val - 'A'.val)).toNat = _
    rw [UInt32.toNat_add]
    show (c.toNat + 0x20) % _ = _
    omega
  · exact .inl (Char.toLower_eq_of_not_isUpper upper)

theorem dropWhile_eq_nil_or_append (test : Char → Bool) (front back : List Char) :
    front.dropWhile test = [] ∧ (front ++ back).dropWhile test = back.dropWhile test ∨
      (front ++ back).dropWhile test = front.dropWhile test ++ back := by
  rw [List.dropWhile_append]
  cases front.dropWhile test <;> simp

theorem trimChars_append (starts : back.head? = some d) (solid : isBlank d = false) :
    trimChars (front ++ back) = front.dropWhile isBlank ++ back.rdropWhile isBlank := by
  obtain ⟨rest, rfl⟩ : ∃ rest, back = d :: rest := by
    cases back <;> simp_all
  have begins : (d :: rest).dropWhile isBlank = d :: rest := by simp [solid]
  have led : (front ++ d :: rest).dropWhile isBlank = front.dropWhile isBlank ++ d :: rest := by
    rcases dropWhile_eq_nil_or_append isBlank front (d :: rest) with ⟨none, all⟩ | some
    · rw [all, none, begins, List.nil_append]
    · exact some
  have remains : ((d :: rest).reverse).dropWhile isBlank ≠ [] := by
    rw [Ne, List.dropWhile_eq_nil_iff]
    intro blank
    have := blank d (by simp)
    rw [solid] at this
    cases this
  rw [trimChars, led, List.reverse_append, List.dropWhile_append,
    if_neg (by simpa using remains), List.reverse_append, List.reverse_reverse]
  rfl

end Text

namespace Version

variable {cs front back run : List Char} {c d : Char}

theorem IsAscii.append {v w : String} (ascii : IsAscii v) (ascii' : IsAscii w) :
    IsAscii (v ++ w) := by
  intro c member
  rw [String.toList_append] at member
  exact (List.mem_append.1 member).elim (ascii c) (ascii' c)

theorem EndsSolid.append {v w : String} (solid : EndsSolid v) (solid' : EndsSolid w) :
    EndsSolid (v ++ w) := by
  intro c last
  rw [String.toList_append, List.getLast?_append] at last
  rcases Option.or_eq_some_iff.1 (Option.mem_def.1 last) with last | ⟨-, last⟩
  · exact solid' c last
  · exact solid c last

theorem isDigit_toLower (c : Char) : c.toLower.isDigit = c.isDigit := by
  rcases Text.toLower_cases c with same | ⟨low, high, lower⟩
  · rw [same]
  · rw [Bool.eq_iff_iff, Char.isDigit_iff_toNat, Char.isDigit_iff_toNat, lower]
    simp
    omega

theorem beq_toLower (c : Char) (low : d.toNat < 0x41) : (c.toLower == d) = (c == d) := by
  rcases Text.toLower_cases c with same | ⟨above, -, lower⟩
  · rw [same]
  · have apart : c ≠ d := by
      rintro rfl
      omega
    have apart' : c.toLower ≠ d := by
      rintro rfl
      omega
    rw [beq_false_of_ne apart, beq_false_of_ne apart']

theorem inWord_toLower (c : Char) : inWord c.toLower = inWord c := by
  rw [inWord, isDigit_toLower, beq_toLower c (by decide), beq_toLower c (by decide), inWord]

theorem inWord_of_toNat (above : 0x41 ≤ c.toNat) : inWord c = true := by
  have digit : c.isDigit = false := by
    rw [Bool.eq_false_iff, Ne, Char.isDigit_iff_toNat]
    simp
    omega
  have dot : c ≠ '.' := by
    rintro rfl
    exact absurd above (by decide)
  have hyphen : c ≠ '-' := by
    rintro rfl
    exact absurd above (by decide)
  simp [inWord, digit, dot, hyphen]

def Joined (c d : Char) : Bool := (c.isDigit && d.isDigit) || (inWord c && inWord d)

theorem isDigit_of_inWord (letter : inWord c = true) : c.isDigit = false := by
  cases digit : c.isDigit with
  | true => simp [inWord, digit] at letter
  | false => rfl

theorem inWord_of_isDigit (digit : c.isDigit = true) : inWord c = false := by
  simp [inWord, digit]

theorem joined_of_ne (apart : inWord c ≠ inWord d) : Joined c d = false := by
  cases letter : inWord c with
  | true =>
    have other : inWord d = false := by simpa [letter] using apart
    simp [Joined, isDigit_of_inWord letter, other]
  | false =>
    have other : inWord d = true := by simpa [letter] using apart
    simp [Joined, isDigit_of_inWord other, letter]

theorem joined_separator (c : Char) (separator : d ∈ ['.', '-']) : Joined c d = false := by
  have apart : d.isDigit = false ∧ inWord d = false := by
    rcases List.mem_pair.1 separator with rfl | rfl <;> decide
  simp [Joined, apart]

theorem joined_toLower (c d : Char) : Joined c.toLower d.toLower = Joined c d := by
  simp only [Joined, isDigit_toLower, inWord_toLower]

theorem joined_lowered (apart : ∀ c ∈ front.getLast?, ∀ d ∈ back.head?, Joined c d = false) :
    ∀ c ∈ (front.map Char.toLower).getLast?, ∀ d ∈ (back.map Char.toLower).head?,
      Joined c d = false := by
  intro lowered last lowered' first
  rw [List.getLast?_map] at last
  rw [List.head?_map] at first
  obtain ⟨c, ends, rfl⟩ := Option.map_eq_some_iff.1 (Option.mem_def.1 last)
  obtain ⟨d, starts, rfl⟩ := Option.map_eq_some_iff.1 (Option.mem_def.1 first)
  rw [joined_toLower]
  exact apart c ends d starts

theorem attach_append {lexemes : List Lexeme} (nonempty : lexemes ≠ []) (c : Char)
    (more : List Lexeme) :
    Lexeme.attach c (lexemes ++ more) = Lexeme.attach c lexemes ++ more := by
  cases lexemes with
  | nil => exact absurd rfl nonempty
  | cons first rest =>
    cases first <;> simp only [Lexeme.attach, List.cons_append] <;> split_ifs <;> rfl

theorem attach_ne_nil (c : Char) (lexemes : List Lexeme) : Lexeme.attach c lexemes ≠ [] := by
  cases lexemes with
  | nil => simp only [Lexeme.attach]; split_ifs <;> simp
  | cons first rest => cases first <;> simp only [Lexeme.attach] <;> split_ifs <;> simp

theorem attach_ne_digits (other : d.isDigit = false) (lexemes more : List Lexeme)
    (ds : List Char) : Lexeme.attach d lexemes ≠ .digits ds :: more := by
  unfold Lexeme.attach
  rw [if_neg (Bool.eq_false_iff.1 other)]
  split
  · simp
  · split
    · simp
    · split <;> simp

theorem attach_ne_letters (other : inWord d = false) (lexemes more : List Lexeme)
    (cs : List Char) : Lexeme.attach d lexemes ≠ .letters cs :: more := by
  unfold Lexeme.attach
  split
  · simp
  · next dot =>
    split
    · simp
    · next hyphen =>
      have digit : d.isDigit = true := by simpa [inWord, dot, hyphen] using other
      rw [if_pos digit]
      split <;> simp

theorem attach_lex (apart : Joined c d = false) :
    Lexeme.attach c (lex (d :: cs)) = Lexeme.attach c [] ++ lex (d :: cs) := by
  by_cases dot : c = '.'
  · rw [dot]
    rfl
  by_cases hyphen : c = '-'
  · rw [hyphen]
    rfl
  rw [lex]
  cases digit : c.isDigit with
  | true =>
    have other : d.isDigit = false := by
      cases is : d.isDigit <;> simp_all [Joined]
    have first := attach_ne_digits other (lex cs)
    simp only [Lexeme.attach.eq_def c, dot, hyphen, digit, if_true, if_false]
    split
    · next same => exact absurd same (first _ _)
    · rfl
  | false =>
    have word : inWord c = true := by simp [inWord, dot, hyphen, digit]
    have other : inWord d = false := by
      cases is : inWord d <;> simp_all [Joined]
    have first := attach_ne_letters other (lex cs)
    simp only [Lexeme.attach.eq_def c, dot, hyphen, digit, if_false, Bool.false_eq_true]
    split
    · next same => exact absurd same (first _ _)
    · rfl

theorem lex_append (apart : ∀ c ∈ front.getLast?, ∀ d ∈ back.head?, Joined c d = false) :
    lex (front ++ back) = lex front ++ lex back := by
  induction front with
  | nil => simp [lex]
  | cons c front ih =>
    cases front with
    | nil =>
      cases back with
      | nil => simp [lex]
      | cons d back => exact attach_lex (apart c rfl d rfl)
    | cons next front =>
      have nonempty : lex (next :: front) ≠ [] := attach_ne_nil next (lex front)
      rw [List.cons_append, lex, ih (by simpa using apart), attach_append nonempty, ← lex]

theorem lex_word (nonempty : run ≠ []) (letters : ∀ c ∈ run, inWord c = true) :
    lex run = [.letters run] := by
  induction run with
  | nil => exact absurd rfl nonempty
  | cons c run ih =>
    obtain ⟨letter, letters⟩ := List.forall_mem_cons.1 letters
    simp only [inWord, Bool.not_eq_true', Bool.or_eq_false_iff, beq_eq_false_iff_ne] at letter
    obtain ⟨⟨digit, dot⟩, hyphen⟩ := letter
    cases run with
    | nil => simp [lex, Lexeme.attach, dot, hyphen, digit]
    | cons d run =>
      rw [lex, ih (by simp) letters]
      simp [Lexeme.attach, dot, hyphen, digit]

theorem lex_digits (numeric : IsRun run) : lex run = [.digits run] := by
  have whole : lex (run ++ []) = .digits run :: lex [] := lex_run numeric (by simp [lex])
  simpa [lex] using whole

theorem isDigits_head_attach (c : Char) (lexemes : List Lexeme) :
    (Lexeme.attach c lexemes).head?.any Lexeme.isDigits = c.isDigit := by
  unfold Lexeme.attach
  split
  · next dot => rw [dot]; rfl
  · split
    · next hyphen => rw [hyphen]; rfl
    · split
      · next digit => split <;> simp [Lexeme.isDigits, digit]
      · next digit => split <;> simp [Lexeme.isDigits, digit]

theorem isDigits_head_lex (cs : List Char) :
    (lex cs).head?.any Lexeme.isDigits = cs.head?.any Char.isDigit := by
  cases cs with
  | nil => rfl
  | cons c cs => exact isDigits_head_attach c (lex cs)

theorem exists_lex_cons (dot : c ≠ '.') (hyphen : c ≠ '-') (cs : List Char) :
    ∃ next more, lex (c :: cs) = next :: more ∧ next.IsWord := by
  rw [lex]
  unfold Lexeme.attach
  rw [if_neg dot, if_neg hyphen]
  split
  · split <;> exact ⟨_, _, rfl, Lexeme.isWord_digits _⟩
  · split <;> exact ⟨_, _, rfl, Lexeme.isWord_letters _⟩

def lexStart (cs : List Char) : List Lexeme := lex ((cs.dropWhile Text.isBlank).map Char.toLower)

def lexEnd (cs : List Char) : List Lexeme := lex ((cs.rdropWhile Text.isBlank).map Char.toLower)

theorem lexStart_of_solid (solid : ∀ c ∈ cs.head?, Text.isBlank c = false) :
    lexStart cs = lex (cs.map Char.toLower) := by
  cases cs with
  | nil => rfl
  | cons c cs => rw [lexStart, List.dropWhile_cons_of_neg (by simp [solid c rfl])]

theorem rdropWhile_of_solid (solid : ∀ c ∈ cs.getLast?, Text.isBlank c = false) :
    cs.rdropWhile Text.isBlank = cs := by
  rw [List.rdropWhile_eq_self_iff]
  intro nonempty
  simp [solid _ (List.getLast?_eq_some_getLast nonempty)]

theorem lexEnd_of_solid (solid : ∀ c ∈ cs.getLast?, Text.isBlank c = false) :
    lexEnd cs = lex (cs.map Char.toLower) := by
  rw [lexEnd, rdropWhile_of_solid solid]

theorem rdropWhile_cons (solid : Text.isBlank c = false) :
    (c :: cs).rdropWhile Text.isBlank = c :: cs.rdropWhile Text.isBlank := by
  rw [List.rdropWhile, List.reverse_cons, List.rdropWhile]
  rcases Text.dropWhile_eq_nil_or_append Text.isBlank cs.reverse [c] with ⟨none, all⟩ | some
  · simp [none, all, solid]
  · simp [some]

theorem getLast?_dropWhile (last : (cs.dropWhile Text.isBlank).getLast? = some c) :
    cs.getLast? = some c := by
  obtain ⟨before, split⟩ := List.dropWhile_suffix (l := cs) Text.isBlank
  rw [← split, List.getLast?_append, last]
  rfl

theorem lexEnd_dot (cs : List Char) : lexEnd ('.' :: cs) = .dot :: lexEnd cs := by
  rw [lexEnd, rdropWhile_cons (by decide)]
  rfl

theorem lexEnd_hyphen (cs : List Char) : lexEnd ('-' :: cs) = .hyphen :: lexEnd cs := by
  rw [lexEnd, rdropWhile_cons (by decide)]
  rfl

theorem parseChars_of_solid (narrow : ∀ c ∈ cs, c.toNat < 0x80)
    (solid : ∀ c ∈ cs.getLast?, Text.isBlank c = false) :
    parseChars cs = normalize (itemsOf (lexStart cs)) := by
  have trimmed : Text.trimChars cs = cs.dropWhile Text.isBlank := by
    have ends : ∀ c ∈ (cs.dropWhile Text.isBlank).getLast?, Text.isBlank c = false := by
      intro c last
      exact solid c (getLast?_dropWhile last)
    exact rdropWhile_of_solid ends
  have kept : ∀ c ∈ cs.dropWhile Text.isBlank, c.toNat < 0x80 :=
    fun c member => narrow c ((List.dropWhile_sublist _).mem member)
  rw [parseChars, trimmed, Text.lowerChars_of_ascii kept, lexStart]

theorem parseChars_append (narrow : ∀ c ∈ front ++ back, c.toNat < 0x80)
    (starts : back.head? = some d) (solid : Text.isBlank d = false)
    (apart : ∀ c ∈ front.getLast?, Joined c d = false) :
    parseChars (front ++ back) = normalize (itemsOf (lexStart front ++ lexEnd back)) := by
  obtain ⟨rest, rfl⟩ : ∃ rest, back = d :: rest := by
    cases back <;> simp_all
  have kept : ∀ c ∈ front.dropWhile Text.isBlank ++ (d :: rest).rdropWhile Text.isBlank,
      c.toNat < 0x80 := by
    intro c member
    refine narrow c (List.mem_append.2 ((List.mem_append.1 member).imp ?_ ?_))
    · exact (List.dropWhile_sublist _).mem
    · exact fun member => (List.rdropWhile_prefix _ _).subset member
  have meets : lex ((front.dropWhile Text.isBlank).map Char.toLower ++
      ((d :: rest).rdropWhile Text.isBlank).map Char.toLower) =
        lexStart front ++ lexEnd (d :: rest) := by
    refine lex_append (joined_lowered fun c last e first => ?_)
    rw [rdropWhile_cons solid, List.head?_cons, Option.mem_some_iff] at first
    rw [← first]
    exact apart c (getLast?_dropWhile last)
  rw [parseChars, Text.trimChars_append starts solid, Text.lowerChars_of_ascii kept,
    List.map_append, meets]

end Version

end VersionAlignment
