import VersionAlignment.Toml.Quoted
import VersionAlignment.Toml.Style

set_option autoImplicit false

namespace VersionAlignment.Toml

theorem isHexDigit_hexDigit : ∀ n < 16, isHexDigit (hexDigit n) = true := by decide

theorem digitValue_hexDigit : ∀ n < 16, digitValue (hexDigit n) = n := by decide

theorem code_of_needsEscape {c : Char} (control : needsEscape c = true) :
    let high := hexDigit (c.toNat / 16)
    let low := hexDigit (c.toNat % 16)
    isHexDigit high = true ∧ isHexDigit low = true ∧
      charOfCode? (16 * digitValue high + digitValue low) = some c := by
  have ascii : c.toNat < 0x80 := by
    simp only [needsEscape, Bool.and_eq_true, Bool.or_eq_true, decide_eq_true_eq, beq_iff_eq]
      at control
    omega
  have first : c.toNat / 16 < 16 := by omega
  have last : c.toNat % 16 < 16 := by omega
  refine ⟨isHexDigit_hexDigit _ first, isHexDigit_hexDigit _ last, ?_⟩
  rw [digitValue_hexDigit _ first, digitValue_hexDigit _ last, Nat.div_add_mod, charOfCode?,
    if_pos (.inl (by omega)), Char.ofNat_toNat]

theorem isInline_of_needsEscape {c : Char} (shown : ¬ needsEscape c = true) (apart : c ≠ '\n') :
    isInline c = true := by
  by_cases tab : c = '\t'
  · simp [isInline, tab]
  · have graphic : 0x20 ≤ c.toNat ∧ c.toNat ≠ 0x7F := by
      simpa [needsEscape, tab, apart] using shown
    simp [isInline, graphic]

theorem exists_escaped (block : Bool) {c : Char} (apart : c ≠ '"') :
    ∃ first more, escaped block c = first :: more ∧ first ≠ '"' ∧ first ≠ '\r' ∧
      (first = '\n' → c = '\n') := by
  unfold escaped
  split
  case h_3 => cases block <;> simp
  case h_7 => split <;> simp_all
  all_goals simp

section

variable {c : Char} {cs rest more : List Char}

theorem basicLine_escaped (apart : c ≠ '"') :
    basicLine .nothing (escaped false c ++ more) = (basicLine .nothing more).prepend c := by
  unfold escaped
  split
  case h_7 newline _ _ backslash =>
    split
    · next control =>
      obtain ⟨high, low, code⟩ := code_of_needsEscape control
      have zero : isHexDigit '0' = true ∧ digitValue '0' = 0 := by decide
      simp [basicLine, zero, high, low, code]
    · next shown =>
      have inline := isInline_of_needsEscape shown newline
      have backslash : c ≠ '\\' := backslash
      simp [basicLine, apart, backslash, inline]
  all_goals rfl

theorem basicLine_escapedText :
    basicLine .nothing (escapedText false 0 cs ++ '"' :: rest) = some (cs, rest) := by
  induction cs with
  | nil => rfl
  | cons c cs ih =>
    by_cases quote : c = '"'
    · have step : basicLine .nothing ('\\' :: '"' :: (escapedText false 0 cs ++ '"' :: rest)) =
          (basicLine .nothing (escapedText false 0 cs ++ '"' :: rest)).prepend '"' := rfl
      simp [escapedText, quote, step, ih, Quoted.prepend]
    · simp [escapedText, quote, basicLine_escaped quote, ih, Quoted.prepend]

theorem basicBlock_escaped (apart : c ≠ '"') :
    basicBlock .nothing (escaped true c ++ more) = (basicBlock .nothing more).prepend c := by
  unfold escaped
  split
  case h_7 newline _ carriage backslash =>
    split
    · next control =>
      obtain ⟨high, low, code⟩ := code_of_needsEscape control
      have zero : isHexDigit '0' = true ∧ digitValue '0' = 0 := by decide
      simp [basicBlock, zero, high, low, code]
    · next shown =>
      have inline := isInline_of_needsEscape shown newline
      have backslash : c ≠ '\\' := backslash
      have carriage : c ≠ '\r' := carriage
      simp [basicBlock, apart, carriage, backslash, inline]
  case h_3 => simp [basicBlock]
  all_goals simp [basicBlock, isGap, escapeOf?]

theorem basicBlock_close (apart : rest.head? ≠ some '"') :
    basicBlock .nothing ('"' :: '"' :: '"' :: rest) = some ([], rest) ∧
      basicBlock .nothing ('"' :: '"' :: '"' :: '"' :: rest) = some (['"'], rest) ∧
      basicBlock .nothing ('"' :: '"' :: '"' :: '"' :: '"' :: rest) = some (['"', '"'], rest) := by
  match rest with
  | [] => exact ⟨rfl, rfl, rfl⟩
  | c :: rest => simp_all [basicBlock]

theorem basicBlock_quote (apart : cs.take 2 ≠ ['"', '"']) :
    basicBlock .nothing ('"' :: cs) = (basicBlock .nothing cs).prepend '"' := by
  match cs with
  | [] => rfl
  | [c] => simp [basicBlock, isInline]
  | c :: d :: cs =>
    simp only [List.take_succ_cons, List.take_zero] at apart
    by_cases first : c = '"' <;> simp_all [basicBlock, isInline]

-- Escaped text goes on with two quotes only if a run of quotes is all that is left of it.
theorem take_escapedText {run : Nat} (opened : 0 < run) (goes : cs ≠ [])
    (apart : run = 1 → cs ≠ ['"']) : (escapedText true run cs ++ more).take 2 ≠ ['"', '"'] := by
  match cs with
  | c :: cs =>
    by_cases quote : c = '"'
    · by_cases full : run = 1
      · match cs with
        | [] => simp [quote, full] at apart
        | d :: cs =>
          by_cases again : d = '"'
          · simp [escapedText, quote, full, again]
          · obtain ⟨first, after, same, apart, -⟩ := exists_escaped true again
            simp [escapedText, quote, full, again, same, apart]
      · have full : ¬ run < 2 := by omega
        simp [escapedText, quote, full]
    · obtain ⟨first, after, same, apart, -⟩ := exists_escaped true quote
      simp [escapedText, quote, same, apart]

theorem basicBlock_escapedText (apart : rest.head? ≠ some '"') (run : Nat) :
    basicBlock .nothing (escapedText true run cs ++ '"' :: '"' :: '"' :: rest) =
      some (cs, rest) := by
  obtain ⟨three, four, five⟩ := basicBlock_close apart
  induction cs generalizing run with
  | nil => exact three
  | cons c cs ih =>
    by_cases quote : c = '"'
    · by_cases raw : run < 2
      · -- The quotes at the end of the text are read together with those that close it.
        by_cases last : cs = []
        · simp [escapedText, quote, raw, last, four]
        · by_cases pair : run = 0 ∧ cs = ['"']
          · simp [escapedText, quote, pair, five]
          · have goes : (escapedText true (run + 1) cs ++ '"' :: '"' :: '"' :: rest).take 2 ≠
                ['"', '"'] :=
              take_escapedText (Nat.succ_pos run) last fun first same => pair ⟨by omega, same⟩
            simp [escapedText, quote, raw, basicBlock_quote goes, ih, Quoted.prepend]
      · have step (more : List Char) : basicBlock .nothing ('\\' :: '"' :: more) =
            (basicBlock .nothing more).prepend '"' := by simp [basicBlock, isGap, escapeOf?]
        simp [escapedText, quote, raw, step, ih, Quoted.prepend]
    · simp [escapedText, quote, basicBlock_escaped quote, ih, Quoted.prepend]

theorem literalLine_append (shown : Style.literalLine.shows cs = true) :
    literalLine (cs ++ '\'' :: rest) = some (cs, rest) := by
  simp only [Style.shows, Bool.and_eq_true, Bool.not_eq_true', List.any_eq_false,
    List.contains_eq_mem, decide_eq_false_iff_not] at shown
  obtain ⟨⟨shown, oneLine⟩, unquoted⟩ := shown
  induction cs with
  | nil => rfl
  | cons c cs ih =>
    simp only [List.mem_cons, not_or, forall_eq_or_imp] at shown oneLine unquoted
    have inline := isInline_of_needsEscape shown.1 (Ne.symm oneLine.1)
    simp [literalLine, Ne.symm unquoted.1, inline, ih unquoted.2 shown.2 oneLine.2, Quoted.prepend]

theorem le_longestRun (q : Char) (run : Nat) : run ≤ longestRun q run cs := by
  induction cs generalizing run with
  | nil => exact Nat.le_refl _
  | cons c cs ih =>
    rw [longestRun]
    split
    · exact Nat.le_of_succ_le (ih (run + 1))
    · exact Nat.le_max_left _ _

theorem literalBlock_close (apart : rest.head? ≠ some '\'') :
    literalBlock ('\'' :: '\'' :: '\'' :: rest) = some ([], rest) ∧
      literalBlock ('\'' :: '\'' :: '\'' :: '\'' :: rest) = some (['\''], rest) ∧
      literalBlock ('\'' :: '\'' :: '\'' :: '\'' :: '\'' :: rest) =
        some (['\'', '\''], rest) := by
  match rest with
  | [] => exact ⟨rfl, rfl, rfl⟩
  | c :: rest => simp_all [literalBlock]

theorem literalBlock_quote (apart : cs.take 2 ≠ ['\'', '\'']) :
    literalBlock ('\'' :: cs) = (literalBlock cs).prepend '\'' := by
  match cs with
  | [] => rfl
  | [c] => simp [literalBlock, isInline]
  | c :: d :: cs =>
    simp only [List.take_succ_cons, List.take_zero] at apart
    by_cases first : c = '\'' <;> simp_all [literalBlock, isInline]

theorem take_of_longestRun {run : Nat} (opened : 0 < run) (bound : longestRun '\'' run cs ≤ 2)
    (goes : cs ≠ []) (apart : cs ≠ ['\'']) : (cs ++ more).take 2 ≠ ['\'', '\''] := by
  match cs with
  | [c] => simp_all
  | c :: d :: cs =>
    rintro two
    obtain ⟨rfl, rfl⟩ : c = '\'' ∧ d = '\'' := by simpa using two
    have longer : run + 1 + 1 ≤ 2 := Nat.le_trans (le_longestRun _ _) bound
    omega

theorem literalBlock_append (shown : ∀ c ∈ cs, ¬ needsEscape c = true)
    (apart : rest.head? ≠ some '\'') (run : Nat) (bound : longestRun '\'' run cs ≤ 2) :
    literalBlock (cs ++ '\'' :: '\'' :: '\'' :: rest) = some (cs, rest) := by
  obtain ⟨three, four, five⟩ := literalBlock_close apart
  induction cs generalizing run with
  | nil => exact three
  | cons c cs ih =>
    obtain ⟨first, shown⟩ := List.forall_mem_cons.1 shown
    by_cases quote : c = '\''
    · rw [longestRun, if_pos quote] at bound
      by_cases last : cs = []
      · simp [quote, last, four]
      · by_cases pair : cs = ['\'']
        · simp [quote, pair, five]
        · have goes : (cs ++ '\'' :: '\'' :: '\'' :: rest).take 2 ≠ ['\'', '\''] :=
            take_of_longestRun (Nat.succ_pos run) bound last pair
          simp [quote, literalBlock_quote goes, ih shown _ bound, Quoted.prepend]
    · rw [longestRun, if_neg quote] at bound
      have carriage : c ≠ '\r' := by
        rintro rfl
        exact first rfl
      have read : c = '\n' ∨ isInline c = true :=
        Decidable.or_iff_not_imp_left.2 (isInline_of_needsEscape first)
      have rest := ih shown 0 (Nat.le_trans (Nat.le_max_right _ _) bound)
      simp [literalBlock, quote, carriage, read, rest, Quoted.prepend]

theorem dropLineEnd_of_ne {c : Char} (newline : c ≠ '\n') (carriage : c ≠ '\r') :
    dropLineEnd (c :: cs) = c :: cs := by
  unfold dropLineEnd
  split <;> simp_all

theorem dropLineEnd_escapedText :
    dropLineEnd (blockStart cs ++ (escapedText true 0 cs ++ '"' :: rest)) =
      escapedText true 0 cs ++ '"' :: rest := by
  by_cases lines : '\n' ∈ cs
  · simp [blockStart, lines, dropLineEnd]
  · match cs with
    | [] => rfl
    | c :: cs =>
      rw [List.mem_cons, not_or] at lines
      by_cases quote : c = '"'
      · simp [blockStart, lines, escapedText, quote, dropLineEnd]
      · obtain ⟨first, after, same, -, carriage, newline⟩ := exists_escaped true quote
        have newline : first ≠ '\n' := fun ends => lines.1 (newline ends).symm
        simp [blockStart, lines, escapedText, quote, same, dropLineEnd_of_ne newline carriage]

theorem dropLineEnd_blockStart (shown : ∀ c ∈ cs, ¬ needsEscape c = true) :
    dropLineEnd (blockStart cs ++ (cs ++ '\'' :: rest)) = cs ++ '\'' :: rest := by
  by_cases lines : '\n' ∈ cs
  · simp [blockStart, lines, dropLineEnd]
  · match cs with
    | [] => rfl
    | c :: cs =>
      have newline : c ≠ '\n' := by
        rintro rfl
        exact lines List.mem_cons_self
      have carriage : c ≠ '\r' := by
        rintro rfl
        exact shown _ List.mem_cons_self rfl
      simp [blockStart, lines, dropLineEnd_of_ne newline carriage]

theorem quotedText_double (opened : cs.take 2 ≠ ['"', '"']) :
    quotedText ('"' :: cs) = basicLine .nothing cs := by
  unfold quotedText
  split <;> simp_all

theorem quotedText_single (opened : cs.take 2 ≠ ['\'', '\'']) :
    quotedText ('\'' :: cs) = literalLine cs := by
  unfold quotedText
  split <;> simp_all

theorem quotedText_basicLine (apart : rest.head? ≠ some '"') :
    quotedText (Style.basicLine.write cs ++ rest) = some (cs, rest) := by
  have opened : (escapedText false 0 cs ++ '"' :: rest).take 2 ≠ ['"', '"'] := by
    match cs with
    | [] => match rest with
      | [] => simp [escapedText]
      | c :: rest => simp_all [escapedText]
    | c :: cs =>
      by_cases quote : c = '"'
      · simp [escapedText, quote]
      · obtain ⟨first, after, same, apart, -⟩ := exists_escaped false quote
        simp [escapedText, quote, same, apart]
  calc quotedText (Style.basicLine.write cs ++ rest)
      = quotedText ('"' :: (escapedText false 0 cs ++ '"' :: rest)) := by simp [Style.write]
    _ = some (cs, rest) := by rw [quotedText_double opened, basicLine_escapedText]

theorem quotedText_basicBlock (apart : rest.head? ≠ some '"') :
    quotedText (Style.basicBlock.write cs ++ rest) = some (cs, rest) := by
  rw [Style.write]
  simp [quotedText, dropLineEnd_escapedText, basicBlock_escapedText apart]

theorem quotedText_literalLine (shown : Style.literalLine.shows cs = true)
    (apart : rest.head? ≠ some '\'') :
    quotedText (Style.literalLine.write cs ++ rest) = some (cs, rest) := by
  have opened : (cs ++ '\'' :: rest).take 2 ≠ ['\'', '\''] := by
    match cs with
    | [] => match rest with
      | [] => simp
      | c :: rest => simp_all
    | c :: cs =>
      have unquoted : c ≠ '\'' := by
        rintro rfl
        simp [Style.shows] at shown
      simp [unquoted]
  calc quotedText (Style.literalLine.write cs ++ rest)
      = quotedText ('\'' :: (cs ++ '\'' :: rest)) := by simp [Style.write]
    _ = some (cs, rest) := by rw [quotedText_single opened, literalLine_append shown]

theorem quotedText_literalBlock (shown : Style.literalBlock.shows cs = true)
    (apart : rest.head? ≠ some '\'') :
    quotedText (Style.literalBlock.write cs ++ rest) = some (cs, rest) := by
  simp only [Style.shows, Bool.and_eq_true, Bool.not_eq_true', List.any_eq_false,
    decide_eq_true_eq] at shown
  rw [Style.write]
  simp [quotedText, dropLineEnd_blockStart shown.1, literalBlock_append shown.1 apart 0 shown.2]

theorem Style.choose_eq :
    choose cs = basicLine ∨ choose cs = basicBlock ∨ (choose cs).shows cs = true := by
  unfold choose
  cases found : ([basicLine, literalLine, basicBlock, literalBlock] : List Style).find?
      (·.shows cs) with
  | some style => exact .inr (.inr (List.find?_some found))
  | none => by_cases lines : '\n' ∈ cs <;> simp [lines]

theorem quotedText_quotedChars (double : rest.head? ≠ some '"') (single : rest.head? ≠ some '\'') :
    quotedText (quotedChars cs ++ rest) = some (cs, rest) := by
  unfold quotedChars
  have suited : Style.choose cs = .basicLine ∨ Style.choose cs = .basicBlock ∨
      (Style.choose cs).shows cs = true := Style.choose_eq
  cases style : Style.choose cs with
  | basicLine => exact quotedText_basicLine double
  | basicBlock => exact quotedText_basicBlock double
  | literalLine =>
    have shown : Style.literalLine.shows cs = true := by simpa [style] using suited
    exact quotedText_literalLine shown single
  | literalBlock =>
    have shown : Style.literalBlock.shows cs = true := by simpa [style] using suited
    exact quotedText_literalBlock shown single

end

end VersionAlignment.Toml
