import VersionAlignment.Proofs.ContinuedItems
import VersionAlignment.Proofs.VersionTexts

set_option autoImplicit false

namespace VersionAlignment.Version

variable {word word' next : Lexeme} {rest rest' : List Lexeme}
  {before run full w : List Char} {c d : Char}

theorem itemsOf_append_congr (is : word.IsWord) (is' : word'.IsWord)
    (kind : word.isDigits = word'.isDigits)
    (same : itemsOf (word :: rest) = itemsOf (word' :: rest')) (front : List Lexeme) :
    itemsOf (front ++ word :: rest) = itemsOf (front ++ word' :: rest') := by
  fun_induction itemsOf front with
  | case1 => exact same
  | case2 front ih => rw [List.cons_append, List.cons_append, itemsOf, itemsOf, ih]
  | case3 front ih => rw [List.cons_append, List.cons_append, itemsOf, itemsOf, ih]
  | case4 last dot hyphen =>
    rw [List.singleton_append, List.singleton_append, itemsOf_change ⟨dot, hyphen⟩ is,
      itemsOf_change ⟨dot, hyphen⟩ is', kind, same]
  | case5 first front dot hyphen ih =>
    simp only [List.cons_append, itemsOf_dot ⟨dot, hyphen⟩, ih]
  | case6 first front dot hyphen ih =>
    simp only [List.cons_append, itemsOf_hyphen ⟨dot, hyphen⟩, ih]
  | case7 first second front dot hyphen dot' hyphen' ih =>
    simp only [List.cons_append, itemsOf_change ⟨dot, hyphen⟩ ⟨dot', hyphen'⟩] at ih ⊢
    rw [ih]

theorem lexStart_append (solid : ∀ c ∈ (before ++ run).head?, Text.isBlank c = false)
    (apart : ∀ c ∈ before.getLast?, ∀ d ∈ run.head?, Joined c d = false) :
    lexStart (before ++ run) = lex (before.map Char.toLower) ++ lex (run.map Char.toLower) := by
  rw [lexStart_of_solid solid, List.map_append, lex_append (joined_lowered apart)]

theorem lexStart_digits (solid : ∀ c ∈ (before ++ run).head?, Text.isBlank c = false)
    (other : ∀ c ∈ before.getLast?, c.isDigit = false) (nonempty : run ≠ [])
    (digits : ∀ c ∈ run, c.isDigit = true) :
    lexStart (before ++ run) =
      lex (before.map Char.toLower) ++ [.digits (run.map Char.toLower)] := by
  have lowered : ∀ c ∈ run.map Char.toLower, c.isDigit = true := by
    simpa [isDigit_toLower] using digits
  rw [lexStart_append solid fun c last d first => ?_, lex_digits ⟨by simpa using nonempty, lowered⟩]
  have digit := digits d (List.mem_of_head? first)
  simp [Joined, other c last, inWord, digit]

theorem lexStart_word (solid : ∀ c ∈ (before ++ run).head?, Text.isBlank c = false)
    (other : ∀ c ∈ before.getLast?, inWord c = false) (nonempty : run ≠ [])
    (inside : ∀ c ∈ run, inWord c = true) :
    lexStart (before ++ run) =
      lex (before.map Char.toLower) ++ [.letters (run.map Char.toLower)] := by
  have lowered : ∀ c ∈ run.map Char.toLower, inWord c = true := by
    simpa [inWord_toLower] using inside
  rw [lexStart_append solid fun c last d first => ?_, lex_word (by simpa using nonempty) lowered]
  have letter := inside d (List.mem_of_head? first)
  exact joined_of_ne (by simp [other c last, letter])

theorem exists_lexEnd (starts : w.head? = some d) (solid : Text.isBlank d = false)
    (separator : d ∉ ['.', '-']) : ∃ next more, lexEnd w = next :: more ∧ next.IsWord ∧
      next.isDigits = d.isDigit := by
  obtain ⟨rest, rfl⟩ : ∃ rest, w = d :: rest := by
    cases w <;> simp_all
  have dot : d.toLower ≠ '.' := by
    rw [Ne, ← beq_iff_eq, beq_toLower d (by decide)]
    simp_all
  have hyphen : d.toLower ≠ '-' := by
    rw [Ne, ← beq_iff_eq, beq_toLower d (by decide)]
    simp_all
  rw [lexEnd, rdropWhile_cons solid, List.map_cons]
  obtain ⟨next, more, opens, is⟩ :=
    exists_lex_cons dot hyphen ((rest.rdropWhile Text.isBlank).map Char.toLower)
  have kind := isDigits_head_lex (d.toLower :: (rest.rdropWhile Text.isBlank).map Char.toLower)
  rw [opens] at kind
  exact ⟨next, more, opens, is, by simpa [isDigit_toLower] using kind⟩

theorem last_run {kind : Char → Bool} {cs : List Char} (last : cs.getLast? = some c)
    (is : kind c = true) :
    cs.rtakeWhile kind ≠ [] ∧ (∀ c ∈ cs.rtakeWhile kind, kind c = true) ∧
      ∀ c ∈ (cs.rdropWhile kind).getLast?, kind c = false := by
  obtain ⟨front, rfl⟩ := List.getLast?_eq_some_iff.1 last
  refine ⟨?_, fun c member => List.mem_rtakeWhile_imp member, fun d ends => ?_⟩
  · rw [List.rtakeWhile_concat_pos _ _ _ is]
    simp
  · have nonempty : (front ++ [c]).rdropWhile kind ≠ [] := by
      intro none
      simp [none] at ends
    rw [List.getLast?_eq_some_getLast nonempty, Option.mem_some_iff] at ends
    rw [← ends, ← Bool.not_eq_true]
    exact List.rdropWhile_last_not kind (front ++ [c]) nonempty

variable {u v : String}

theorem solid_of_isLetter (letter : isLetter d = true) :
    inWord d = true ∧ Text.isBlank d = false ∧ d ∉ ['.', '-'] := by
  obtain ⟨inside, unblank⟩ := Bool.and_eq_true_iff.1 letter
  refine ⟨inside, by simpa using unblank, fun member => ?_⟩
  rcases List.mem_pair.1 member with rfl | rfl <;> cases inside

theorem solid_of_isDigit (digit : d.isDigit = true) :
    Text.isBlank d = false ∧ d ∉ ['.', '-'] := by
  have bounds := Char.isDigit_iff_toNat.1 digit
  simp at bounds
  refine ⟨Text.isBlank_of_toNat (by omega) (by omega), fun member => ?_⟩
  rcases List.mem_pair.1 member with rfl | rfl <;> cases digit

theorem parse_run_change (split : before ++ run = u.toList) (ascii : IsAscii u)
    (ascii' : IsAscii v) (narrow : ∀ c ∈ full, c.toNat < 0x80)
    (lexed : lexStart (before ++ run) = lex (before.map Char.toLower) ++ [word])
    (lexed' : lexStart (before ++ full) = lex (before.map Char.toLower) ++ [word'])
    (is : word.IsWord) (is' : word'.IsWord) (kind : word.isDigits = word'.isDigits)
    (ends : u.toList.getLast? = some c) (starts : v.toList.head? = some d)
    (apart : Joined c d = false) (solid : Text.isBlank d = false) (separator : d ∉ ['.', '-'])
    (same : word.item d.isDigit = word'.item false) :
    parse (u ++ v) = parseChars (before ++ full ++ '-' :: v.toList) := by
  have whole : ∀ c ∈ before ++ run ++ v.toList, c.toNat < 0x80 := by
    rw [split, ← String.toList_append]
    exact ascii.append ascii'
  have whole' : ∀ c ∈ before ++ full ++ '-' :: v.toList, c.toNat < 0x80 := by
    simp only [List.mem_append, List.mem_cons] at whole ⊢
    rintro c ((member | member) | rfl | member)
    · exact whole c (.inl (.inl member))
    · exact narrow c member
    · decide
    · exact whole c (.inr member)
  have meets : ∀ e ∈ (before ++ run).getLast?, Joined e d = false := by
    intro e member
    rw [split, ends, Option.mem_some_iff] at member
    rwa [← member]
  obtain ⟨next, more, opens, follows, digits⟩ := exists_lexEnd starts solid separator
  rw [parse, String.toList_append, ← split, parseChars_append whole starts solid meets,
    parseChars_append whole' rfl (by decide) fun c _ => joined_separator c (by simp),
    lexEnd_hyphen, lexed, lexed', opens, List.append_assoc, List.append_assoc,
    List.singleton_append, List.singleton_append]
  refine congrArg normalize (itemsOf_append_congr is is' kind ?_ _)
  rw [itemsOf_change is follows, itemsOf_hyphen is', digits, same]

theorem parse_digits_letter (ascii : IsAscii u) (ascii' : IsAscii v) (solid : StartsSolid u)
    (ends : EndsWith Char.isDigit u) (starts : StartsWith isLetter v) :
    parse (u ++ v) = parse (u ++ "-" ++ v) := by
  obtain ⟨c, last, digit⟩ := ends
  obtain ⟨d, first, letter⟩ := starts
  obtain ⟨nonempty, digits, other⟩ := last_run last digit
  have split : u.toList.rdropWhile Char.isDigit ++ u.toList.rtakeWhile Char.isDigit = u.toList :=
    List.rdropWhile_append_rtakeWhile
  generalize u.toList.rdropWhile Char.isDigit = before at split other
  generalize u.toList.rtakeWhile Char.isDigit = run at split nonempty digits
  obtain ⟨inside, unblank, separator⟩ := solid_of_isLetter letter
  have starts : ∀ c ∈ (before ++ run).head?, Text.isBlank c = false := by
    rw [split]
    exact solid
  have lexed := lexStart_digits starts other nonempty digits
  have narrow : ∀ c ∈ run, c.toNat < 0x80 := fun c member =>
    ascii c (by simp [← split, member])
  have apart : Joined c d = false := joined_of_ne (by simp [inWord_of_isDigit digit, inside])
  have change := parse_run_change split ascii ascii' narrow lexed lexed (Lexeme.isWord_digits _)
    (Lexeme.isWord_digits _) rfl last first apart unblank separator rfl
  rw [change, split]
  simp [parse, String.toList_append]

theorem toList_lastWord (text : String) :
    (lastWord text).toList = text.toList.rtakeWhile inWord := by
  rw [lastWord, String.toList_ofList]
  rfl

theorem toList_beforeLastWord (text : String) :
    (beforeLastWord text).toList = text.toList.rdropWhile inWord := by
  rw [beforeLastWord, String.toList_ofList]
  rfl

theorem beforeLastWord_append_lastWord (text : String) :
    beforeLastWord text ++ lastWord text = text := by
  refine String.toList_inj.1 ?_
  rw [String.toList_append, toList_beforeLastWord, toList_lastWord]
  exact List.rdropWhile_append_rtakeWhile

theorem IsAscii.lastWord (ascii : IsAscii u) : IsAscii (lastWord u) := by
  rw [← beforeLastWord_append_lastWord u] at ascii
  exact fun c member => ascii c (by simp [String.toList_append, member])

theorem inWord_of_mem_lastWord (member : c ∈ (lastWord u).toList) : inWord c = true := by
  rw [toList_lastWord] at member
  exact List.mem_rtakeWhile_imp member

theorem lastWord_ne_empty (ends : EndsWith isLetter u) : lastWord u ≠ "" := by
  obtain ⟨c, last, letter⟩ := ends
  have nonempty := (last_run last (Bool.and_eq_true_iff.1 letter).1).1
  rw [← toList_lastWord] at nonempty
  simpa using nonempty

theorem StartsSolid.beforeLastWord (solid : StartsSolid u) : StartsSolid (beforeLastWord u) := by
  rw [← beforeLastWord_append_lastWord u] at solid
  intro c first
  refine solid c ?_
  rw [String.toList_append, List.head?_append, Option.mem_def.1 first]
  rfl

theorem StartsSolid.append (solid : StartsSolid u) (solid' : StartsSolid v) :
    StartsSolid (u ++ v) := by
  intro c first
  rw [String.toList_append, List.head?_append] at first
  rcases Option.or_eq_some_iff.1 (Option.mem_def.1 first) with first | ⟨-, first⟩
  · exact solid c first
  · exact solid' c first

theorem parse_word_digit (ascii : IsAscii u) (ascii' : IsAscii v) (solid : StartsSolid u)
    (ends : EndsWith isLetter u) (starts : StartsWith Char.isDigit v) {full : String}
    (fullAscii : IsAscii full) (fullSolid : StartsSolid (beforeLastWord u ++ full))
    (fullNonempty : full ≠ "") (fullInside : ∀ c ∈ full.toList, inWord c = true)
    (means : Text.lowercase full = writtenOut (Text.lowercase (lastWord u))) :
    parse (u ++ v) = parse (beforeLastWord u ++ full ++ "-" ++ v) := by
  obtain ⟨c, last, letter⟩ := ends
  obtain ⟨d, first, digit⟩ := starts
  have ending := (solid_of_isLetter letter).1
  obtain ⟨nonempty, inside, other⟩ := last_run last ending
  rw [← toList_lastWord] at nonempty inside
  rw [← toList_beforeLastWord] at other
  have split : (beforeLastWord u).toList ++ (lastWord u).toList = u.toList := by
    rw [← String.toList_append, beforeLastWord_append_lastWord]
  have starts : ∀ c ∈ ((beforeLastWord u).toList ++ (lastWord u).toList).head?,
      Text.isBlank c = false := by
    rw [split]
    exact solid
  have starts' : ∀ c ∈ ((beforeLastWord u).toList ++ full.toList).head?, Text.isBlank c = false := by
    rw [← String.toList_append]
    exact fullSolid
  have lexed := lexStart_word starts other nonempty inside
  have lexed' := lexStart_word starts' other (by simpa using fullNonempty) fullInside
  obtain ⟨unblank, separator⟩ := solid_of_isDigit digit
  have apart : Joined c d = false := joined_of_ne (by simp [inWord_of_isDigit digit, ending])
  have same : (Lexeme.letters ((lastWord u).toList.map Char.toLower)).item d.isDigit =
      (Lexeme.letters (full.toList.map Char.toLower)).item false := by
    rw [digit, Lexeme.item, Lexeme.item, ← Text.lowercase_of_ascii ascii.lastWord,
      ← Text.lowercase_of_ascii fullAscii, if_pos rfl, Qualifier.beforeDigit_eq, means]
    rfl
  have change := parse_run_change split ascii ascii' fullAscii lexed lexed'
    (Lexeme.isWord_letters _) (Lexeme.isWord_letters _) (by simp only [Lexeme.isDigits]) last first
    apart unblank separator same
  rw [change]
  simp [parse, String.toList_append]

theorem writtenOut_short {word : String} (short : word ∈ ["a", "b", "m"]) :
    writtenOut word ≠ "" ∧ ∀ c ∈ (writtenOut word).toList, 0x61 ≤ c.toNat ∧ c.toNat < 0x7B := by
  simp only [List.mem_cons, List.not_mem_nil, or_false] at short
  rcases short with rfl | rfl | rfl <;> simp [writtenOut]

theorem writtenOut_long {word : String} (long : word ∉ ["a", "b", "m"]) :
    writtenOut word = word := by
  unfold writtenOut
  split <;> simp_all

theorem lowercase_eq_self {word : String}
    (letters : ∀ c ∈ word.toList, 0x61 ≤ c.toNat ∧ c.toNat < 0x7B) :
    Text.lowercase word = word := by
  have low : ∀ c ∈ word.toList, c.toNat < 0x80 ∧ c.isUpper = false := by
    intro c member
    have letter := letters c member
    refine ⟨by omega, ?_⟩
    simp [Char.isUpper, UInt32.le_iff_toNat_le]
    omega
  rw [Text.lowercase, Text.lowerChars_eq_self low, String.ofList_toList]

/-- A change to a letter is read like a hyphen, and so is one to a digit after any word that is not
short for another one. -/
theorem parse_change (ascii : IsAscii u) (ascii' : IsAscii v) (solid : StartsSolid u) :
    (EndsWith Char.isDigit u → StartsWith isLetter v → parse (u ++ v) = parse (u ++ "-" ++ v)) ∧
      (EndsWith isLetter u → StartsWith Char.isDigit v →
        (Text.lowercase (lastWord u) ∉ ["a", "b", "m"] →
          parse (u ++ v) = parse (u ++ "-" ++ v)) ∧
        (Text.lowercase (lastWord u) ∈ ["a", "b", "m"] →
          parse (u ++ v) = parse (beforeLastWord u ++
            writtenOut (Text.lowercase (lastWord u)) ++ "-" ++ v))) := by
  refine ⟨parse_digits_letter ascii ascii' solid, fun ends starts =>
    ⟨fun long => ?_, fun short => ?_⟩⟩
  · have change := parse_word_digit ascii ascii' solid ends starts ascii.lastWord
      (by rwa [beforeLastWord_append_lastWord]) (lastWord_ne_empty ends)
      (fun _ => inWord_of_mem_lastWord) (writtenOut_long long).symm
    rwa [beforeLastWord_append_lastWord] at change
  · obtain ⟨nonempty, letters⟩ := writtenOut_short short
    refine parse_word_digit ascii ascii' solid ends starts ?_ ?_ nonempty ?_
      (lowercase_eq_self letters)
    · exact fun c member => by have := letters c member; omega
    · refine solid.beforeLastWord.append fun c first => ?_
      have letter := letters c (List.mem_of_head? first)
      exact Text.isBlank_of_toNat (by omega) (by omega)
    · exact fun c member => inWord_of_toNat (by have := letters c member; omega)

theorem parse_change_alpha :
    IsAscii "1-A" ∧ IsAscii "1-x a" ∧ IsAscii "2.0" ∧ IsAscii "rc" ∧
      StartsSolid "1-A" ∧ StartsSolid "1-x a" ∧ StartsSolid "2.0" ∧
      Text.lowercase (lastWord "1-A") = "a" ∧ Text.lowercase (lastWord "1-x a") = "x a" ∧
      parse ("1-A" ++ "2.0") = parse ("1-" ++ "alpha" ++ "-" ++ "2.0") ∧
      parse ("1-x a" ++ "2.0") = parse ("1-x a" ++ "-" ++ "2.0") ∧
      parse ("2.0" ++ "rc") = parse ("2.0" ++ "-" ++ "rc") := by
  have ascii : IsAscii "1-A" := by simp [IsAscii]
  have ascii' : IsAscii "1-x a" := by simp [IsAscii]
  have ascii'' : IsAscii "2.0" := by simp [IsAscii]
  have ascii''' : IsAscii "rc" := by simp [IsAscii]
  have solid : StartsSolid "1-A" := by
    simp [StartsSolid]
    decide
  have solid' : StartsSolid "1-x a" := by
    simp [StartsSolid]
    decide
  have solid'' : StartsSolid "2.0" := by
    simp [StartsSolid]
    decide
  have digit : StartsWith Char.isDigit "2.0" := ⟨'2', by simp, by decide⟩
  have short : Text.lowercase (lastWord "1-A") = "a" := by decide +kernel
  have long : Text.lowercase (lastWord "1-x a") = "x a" := by decide +kernel
  have before : beforeLastWord "1-A" = "1-" := by decide +kernel
  have lone := ((parse_change ascii ascii'' solid).2 ⟨'A', by simp, by decide⟩ digit).2
    (by simp [short])
  rw [short, before] at lone
  have word := ((parse_change ascii' ascii'' solid').2 ⟨'a', by simp, by decide⟩ digit).1
    (by simp [long])
  have letter := (parse_change ascii'' ascii''' solid'').1 ⟨'0', by simp, by decide⟩
    ⟨'r', by simp, by decide⟩
  exact ⟨ascii, ascii', ascii'', ascii''', solid, solid', solid'', short, long, lone, word, letter⟩

end VersionAlignment.Version
