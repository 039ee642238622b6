import VersionAlignment.Proofs.EqualVersions
import VersionAlignment.Proofs.SeparatedTexts
import VersionAlignment.Version.Dotted

set_option autoImplicit false

namespace VersionAlignment

namespace Text

theorem isBlank_of_toNat {c : Char} (low : 0x20 < c.toNat) (high : c.toNat < 0x80) :
    isBlank c = false := by
  simp [isBlank, blankRuns, Runs.contains]
  omega

theorem lowerChars_eq_self {cs : List Char}
    (low : ∀ c ∈ cs, c.toNat < 0x80 ∧ c.isUpper = false) : lowerChars cs = cs := by
  suffices same : ∀ before, lowerAfter before cs = cs from same []
  induction cs with
  | nil => simp [lowerAfter]
  | cons c cs ih =>
    obtain ⟨⟨narrow, lower⟩, low⟩ := List.forall_mem_cons.1 low
    have other : c ≠ 'Σ' := by
      rintro rfl
      exact absurd narrow (by decide)
    intro before
    simp [lowerAfter, lowerChar, other, narrow, Char.toLower_eq_of_not_isUpper, lower, ih low]

end Text

namespace Version

def IsRun (run : List Char) : Prop := run ≠ [] ∧ ∀ c ∈ run, c.isDigit = true

variable {run rest : List Char} {runs others : List (List Char)} {as bs : List Nat}

theorem mem_dottedChars (numeric : ∀ run ∈ runs, IsRun run) :
    ∀ c ∈ ['.'].intercalate runs, c.isDigit = true ∨ c = '.' := by
  induction runs with
  | nil => simp
  | cons run runs ih =>
    obtain ⟨⟨-, digits⟩, numeric⟩ := List.forall_mem_cons.1 numeric
    cases runs with
    | nil => simpa using fun c member => .inl (digits c member)
    | cons next runs =>
      rw [List.intercalate_cons_cons]
      simp only [List.mem_append, List.mem_singleton]
      rintro c ((member | dot) | member)
      · exact .inl (digits c member)
      · exact .inr dot
      · exact ih numeric c member

theorem lex_run (numeric : IsRun run) (apart : ∀ ds more, lex rest ≠ .digits ds :: more) :
    lex (run ++ rest) = .digits run :: lex rest := by
  obtain ⟨nonempty, digits⟩ := numeric
  induction run with
  | nil => exact absurd rfl nonempty
  | cons c run ih =>
    obtain ⟨digit, digits⟩ := List.forall_mem_cons.1 digits
    have dot : c ≠ '.' := by rintro rfl; cases digit
    have hyphen : c ≠ '-' := by rintro rfl; cases digit
    cases run with
    | nil =>
      simp only [List.cons_append, List.nil_append, lex, Lexeme.attach, dot, hyphen, digit]
      grind
    | cons d run =>
      rw [List.cons_append, lex, ih (by simp) digits]
      simp [Lexeme.attach, dot, hyphen, digit]

theorem lex_dottedChars (numeric : ∀ run ∈ runs, IsRun run) :
    lex (['.'].intercalate runs) = (runs.map Lexeme.digits).intersperse .dot := by
  induction runs with
  | nil => rfl
  | cons run runs ih =>
    obtain ⟨first, numeric⟩ := List.forall_mem_cons.1 numeric
    cases runs with
    | nil =>
      have alone : lex (run ++ []) = .digits run :: lex [] := lex_run first (by simp [lex])
      simpa [lex] using alone
    | cons next runs =>
      have dotted : lex ('.' :: ['.'].intercalate (next :: runs)) =
          .dot :: lex (['.'].intercalate (next :: runs)) := rfl
      rw [List.intercalate_cons_cons, List.append_assoc, List.singleton_append,
        lex_run first (by simp [dotted]), dotted, ih numeric]
      rfl

theorem itemsOf_dotted (runs : List (List Char)) :
    itemsOf ((runs.map Lexeme.digits).intersperse .dot) =
      (runs.map valueOfDigits).map .number := by
  induction runs with
  | nil => rfl
  | cons run runs ih =>
    cases runs with
    | nil => rfl
    | cons next runs => simpa [itemsOf, Lexeme.item] using ih

theorem parse_dotted (numeric : ∀ run ∈ runs, IsRun run) :
    parse (dotted runs) = normalize ((runs.map valueOfDigits).map .number) := by
  have narrow : ∀ c ∈ ['.'].intercalate runs, 46 ≤ c.toNat ∧ c.toNat < 0x3A := by
    intro c member
    rcases mem_dottedChars numeric c member with digit | rfl
    · rw [Char.isDigit_iff_toNat] at digit
      simp at digit
      omega
    · decide
  have solid : ∀ c ∈ ['.'].intercalate runs, Text.isBlank c = false := fun c member =>
    Text.isBlank_of_toNat (by have := narrow c member; omega) (by have := narrow c member; omega)
  have trimmed : Text.trimChars (['.'].intercalate runs) = ['.'].intercalate runs :=
    Text.trimChars_eq_self (fun c first => solid c (List.mem_of_head? first))
      fun c last => solid c (List.mem_of_getLast? last)
  have low : ∀ c ∈ ['.'].intercalate runs, c.toNat < 0x80 ∧ c.isUpper = false := by
    intro c member
    have bounds := narrow c member
    refine ⟨by omega, ?_⟩
    simp [Char.isUpper, UInt32.le_iff_toNat_le]
    omega
  rw [parse, dotted, String.toList_ofList, parseChars, trimmed,
    Text.lowerChars_eq_self low, lex_dottedChars numeric, itemsOf_dotted]

theorem exists_normalize_numbers (as : List Nat) : ∃ kept zeros,
    as = kept ++ List.replicate zeros 0 ∧ normalize (as.map .number) = kept.map .number := by
  induction as using List.reverseRecOn with
  | nil => exact ⟨[], 0, rfl, rfl⟩
  | append_singleton as a ih =>
    by_cases null : a = 0
    · obtain ⟨kept, zeros, rfl, same⟩ := ih
      refine ⟨kept, zeros + 1, ?_, ?_⟩
      · rw [null, List.append_assoc, List.replicate_succ']
      · rw [← same]
        simp [normalize, dropNull, Item.isNull, null]
    · refine ⟨as ++ [a], 0, by simp, ?_⟩
      simp [normalize, dropNull, Item.isNull, Item.isList, null]

theorem compareNone_numbers (bs : List Nat) :
    compareNone (bs.map .number) = compareNumbers bs [] := by
  induction bs with
  | nil => rfl
  | cons b bs ih => simp [compareNone, Item.compareMissing, ih]

theorem compareNumbers_swap (as bs : List Nat) :
    compareNumbers bs as = (compareNumbers as bs).swap := by
  rw [compareNumbers, compareNumbers]
  exact Std.OrientedCmp.eq_swap

theorem compareItems_numbers (as bs : List Nat) :
    compareItems (as.map .number) (bs.map .number) = compareNumbers as bs := by
  induction as generalizing bs with
  | nil =>
    rw [List.map_nil, compareItems_swap, compareItems_nil_right, compareNone_numbers,
      compareNumbers_swap bs []]
  | cons a as ih =>
    cases bs with
    | nil => rw [List.map_nil, compareItems_nil_right, compareNone_numbers]
    | cons b bs => simp [compareItems, Item.compare, ih]

theorem compareNumbers_append_zeros (as bs : List Nat) (zeros : Nat) :
    compareNumbers (as ++ List.replicate zeros 0) bs = compareNumbers as bs := by
  induction as generalizing bs with
  | nil =>
    induction zeros generalizing bs with
    | zero => rfl
    | succ zeros ih =>
      rw [List.nil_append] at *
      cases bs <;> simp [List.replicate_succ, ih]
  | cons a as ih => cases bs <;> simp [ih]

def digit (c : Char) : Nat := c.toNat - '0'.toNat

theorem valueOfDigits_cons (c : Char) (ds : List Char) :
    valueOfDigits (c :: ds) = digit c * 10 ^ ds.length + valueOfDigits ds := by
  suffices carried : ∀ n, ds.foldl (fun n d => 10 * n + (d.toNat - '0'.toNat)) n =
      n * 10 ^ ds.length + valueOfDigits ds by
    simpa [valueOfDigits, digit] using carried (c.toNat - '0'.toNat)
  induction ds with
  | nil => simp [valueOfDigits]
  | cons d ds ih =>
    intro n
    simp only [valueOfDigits, List.foldl_cons, List.length_cons] at ih ⊢
    rw [ih, ih (10 * 0 + _)]
    ring

theorem digit_lt {c : Char} (is : c.isDigit = true) : digit c < 10 := by
  rw [Char.isDigit_iff_toNat] at is
  simp [digit] at *
  omega

theorem valueOfDigits_lt (digits : ∀ c ∈ run, c.isDigit = true) :
    valueOfDigits run < 10 ^ run.length := by
  induction run with
  | nil => simp [valueOfDigits]
  | cons c run ih =>
    obtain ⟨is, digits⟩ := List.forall_mem_cons.1 digits
    have first := digit_lt is
    have below := ih digits
    rw [valueOfDigits_cons, List.length_cons, Nat.pow_succ]
    nlinarith

theorem compare_append_digit {x y u v size : Nat} (below : u < size) (below' : v < size) :
    Ord.compare (x * size + u) (y * size + v) = (Ord.compare x y).then (Ord.compare u v) := by
  rcases Nat.lt_trichotomy x y with lt | rfl | gt
  · have first : Ord.compare x y = .lt := Nat.compare_eq_lt.2 lt
    rw [first, Ordering.lt_then, Nat.compare_eq_lt]
    nlinarith
  · simp [Nat.compare_eq_ite_lt]
  · have first : Ord.compare x y = .gt := Nat.compare_eq_gt.2 gt
    rw [first, Ordering.gt_then, Nat.compare_eq_gt]
    nlinarith

theorem compare_digit {c d : Char} (is : c.isDigit = true) (is' : d.isDigit = true) :
    Ord.compare (digit c) (digit d) = Ord.compare c d := by
  rw [Char.isDigit_iff_toNat] at is is'
  have lt : c < d ↔ c.toNat < d.toNat := by rw [Char.lt_def, UInt32.lt_iff_toNat_lt]; rfl
  have eq : c = d ↔ c.toNat = d.toNat := by rw [Char.toNat_inj]
  have chars : Ord.compare c d = compareOfLessAndEq c d := rfl
  rw [chars, compareOfLessAndEq, Nat.compare_eq_ite_lt]
  simp [digit, lt, eq] at *
  grind

theorem compare_valueOfDigits_of_length {other : List Char} (digits : ∀ c ∈ run, c.isDigit = true)
    (digits' : ∀ c ∈ other, c.isDigit = true) (level : run.length = other.length) :
    Ord.compare (valueOfDigits run) (valueOfDigits other) = Ord.compare run other := by
  induction run generalizing other with
  | nil => rw [List.length_eq_zero_iff.1 level.symm]; rfl
  | cons c run ih =>
    obtain ⟨d, other, rfl⟩ := List.exists_cons_of_length_eq_add_one level.symm
    obtain ⟨is, digits⟩ := List.forall_mem_cons.1 digits
    obtain ⟨is', digits'⟩ := List.forall_mem_cons.1 digits'
    have level : run.length = other.length := by simpa using level
    have below := valueOfDigits_lt digits
    have below' := valueOfDigits_lt digits'
    rw [← level] at below'
    rw [valueOfDigits_cons, valueOfDigits_cons, ← level, compare_append_digit below below',
      ih digits digits' level, compare_digit is is', List.compare_cons_cons]

def significant (run : List Char) : List Char := run.dropWhile (· == '0')

theorem valueOfDigits_significant (run : List Char) :
    valueOfDigits (significant run) = valueOfDigits run := by
  induction run with
  | nil => rfl
  | cons c run ih =>
    by_cases zero : c = '0'
    · rw [significant, List.dropWhile_cons_of_pos (by simp [zero]), ← significant, ih,
        valueOfDigits_cons, zero]
      simp [digit]
    · rw [significant, List.dropWhile_cons_of_neg (by simpa using zero)]

theorem valueOfDigits_lt_of_length {other : List Char} (digits : ∀ c ∈ run, c.isDigit = true)
    (digits' : ∀ c ∈ other, c.isDigit = true)
    (shorter : run.length < (significant other).length) :
    valueOfDigits run < valueOfDigits (significant other) := by
  have digits' : ∀ c ∈ significant other, c.isDigit = true := fun c member =>
    digits' c ((List.dropWhile_sublist _).mem member)
  have leads := List.head?_dropWhile_not (· == '0') other
  rw [← significant] at leads
  cases split : significant other with
  | nil => simp [split] at shorter
  | cons c rest =>
    rw [split] at leads digits' shorter
    have is := digits' c List.mem_cons_self
    have positive : 0 < digit c := by
      have other : c ≠ '0' := by simpa using leads
      rw [Char.isDigit_iff_toNat] at is
      have apart : c.toNat ≠ '0'.toNat := fun same => other (Char.toNat_inj.1 same)
      simp only [digit]
      omega
    calc valueOfDigits run
        < 10 ^ run.length := valueOfDigits_lt digits
      _ ≤ 10 ^ rest.length := Nat.pow_le_pow_right (by decide) (by simpa using shorter)
      _ ≤ digit c * 10 ^ rest.length := Nat.le_mul_of_pos_left _ positive
      _ ≤ valueOfDigits (c :: rest) := by rw [valueOfDigits_cons]; omega

/-- Digits are compared by their number, those in front that are zeros apart, and else as texts. -/
def compareDigits (run other : List Char) : Ordering :=
  (Ord.compare (significant run).length (significant other).length).then
    (Ord.compare (significant run) (significant other))

def compareRuns : List (List Char) → List (List Char) → Ordering
  | [], [] => .eq
  | run :: runs, [] => (compareDigits run []).then (compareRuns runs [])
  | [], other :: others => (compareDigits [] other).then (compareRuns [] others)
  | run :: runs, other :: others => (compareDigits run other).then (compareRuns runs others)

theorem compare_valueOfDigits {other : List Char} (digits : ∀ c ∈ run, c.isDigit = true)
    (digits' : ∀ c ∈ other, c.isDigit = true) :
    Ord.compare (valueOfDigits run) (valueOfDigits other) = compareDigits run other := by
  have kept : ∀ c ∈ significant run, c.isDigit = true := fun c member =>
    digits c ((List.dropWhile_sublist _).mem member)
  have kept' : ∀ c ∈ significant other, c.isDigit = true := fun c member =>
    digits' c ((List.dropWhile_sublist _).mem member)
  rw [compareDigits, ← valueOfDigits_significant run, ← valueOfDigits_significant other]
  rcases Nat.lt_trichotomy (significant run).length (significant other).length with lt | level | gt
  · rw [Nat.compare_eq_lt.2 lt, Ordering.lt_then, Nat.compare_eq_lt]
    exact valueOfDigits_lt_of_length kept digits' lt
  · rw [Nat.compare_eq_eq.2 level, Ordering.eq_then]
    exact compare_valueOfDigits_of_length kept kept' level
  · rw [Nat.compare_eq_gt.2 gt, Ordering.gt_then, Nat.compare_eq_gt]
    exact valueOfDigits_lt_of_length kept' digits gt

theorem compareNumbers_runs (numeric : ∀ run ∈ runs, IsRun run)
    (numeric' : ∀ run ∈ others, IsRun run) :
    compareNumbers (runs.map valueOfDigits) (others.map valueOfDigits) =
      compareRuns runs others := by
  have missing : ∀ c ∈ ([] : List Char), c.isDigit = true := by simp
  fun_induction compareRuns runs others with
  | case1 => rfl
  | case2 run runs ih =>
    obtain ⟨⟨-, digits⟩, numeric⟩ := List.forall_mem_cons.1 numeric
    rw [← ih numeric numeric', ← compare_valueOfDigits digits missing]
    exact compareNumbers_cons_nil _ _
  | case3 other others ih =>
    obtain ⟨⟨-, digits'⟩, numeric'⟩ := List.forall_mem_cons.1 numeric'
    rw [← ih numeric numeric', ← compare_valueOfDigits missing digits']
    exact compareNumbers_nil_cons _ _
  | case4 run runs other others ih =>
    obtain ⟨⟨-, digits⟩, numeric⟩ := List.forall_mem_cons.1 numeric
    obtain ⟨⟨-, digits'⟩, numeric'⟩ := List.forall_mem_cons.1 numeric'
    rw [← ih numeric numeric', ← compare_valueOfDigits digits digits']
    exact compareNumbers_cons_cons _ _ _ _

theorem compare_dotted_items (numeric : ∀ run ∈ runs, IsRun run)
    (numeric' : ∀ run ∈ others, IsRun run) :
    compare (dotted runs) (dotted others) = compareItems ((runs.map valueOfDigits).map .number)
      ((others.map valueOfDigits).map .number) := by
  obtain ⟨kept, zeros, split, same⟩ := exists_normalize_numbers (runs.map valueOfDigits)
  obtain ⟨kept', zeros', split', same'⟩ := exists_normalize_numbers (others.map valueOfDigits)
  calc compare (dotted runs) (dotted others)
      = compareItems (kept.map .number) (kept'.map .number) := by
        rw [compare, parse_dotted numeric, parse_dotted numeric', same, same']
    _ = compareNumbers kept kept' := compareItems_numbers kept kept'
    _ = compareNumbers (kept ++ List.replicate zeros 0) kept' :=
        (compareNumbers_append_zeros kept kept' zeros).symm
    _ = compareNumbers (kept ++ List.replicate zeros 0) (kept' ++ List.replicate zeros' 0) := by
        rw [compareNumbers_swap, ← compareNumbers_append_zeros kept' _ zeros',
          ← compareNumbers_swap]
    _ = compareItems ((runs.map valueOfDigits).map .number)
        ((others.map valueOfDigits).map .number) := by
        rw [compareItems_numbers, split, split']

theorem compare_dotted (numeric : ∀ run ∈ runs, IsRun run)
    (numeric' : ∀ run ∈ others, IsRun run) :
    compare (dotted runs) (dotted others) =
      compareNumbers (runs.map valueOfDigits) (others.map valueOfDigits) := by
  rw [compare_dotted_items numeric numeric', compareItems_numbers]

theorem compare_dotted_zeros :
    let runs := [['1'], ['0', '1', '0']]
    let others := [['0', '1'], ['9'], ['0', '0']]
    (∀ run ∈ runs, IsRun run) ∧ (∀ run ∈ others, IsRun run) ∧
      dotted runs = "1.010" ∧ dotted others = "01.9.00" ∧
      compare "1.010" "01.9.00" = compareNumbers [1, 10] [1, 9, 0] ∧
      compareNumbers [1, 10] [1, 9, 0] = .gt := by
  have numeric : ∀ run ∈ [['1'], ['0', '1', '0']], IsRun run := by simp [IsRun]
  have numeric' : ∀ run ∈ [['0', '1'], ['9'], ['0', '0']], IsRun run := by simp [IsRun]
  have text : dotted [['1'], ['0', '1', '0']] = "1.010" := by cbv
  have text' : dotted [['0', '1'], ['9'], ['0', '0']] = "01.9.00" := by cbv
  have order := compare_dotted numeric numeric'
  rw [text, text'] at order
  exact ⟨numeric, numeric', text, text', order, by decide⟩

/-- No number has to be computed to compare such versions, however long their runs are. -/
theorem compare_dotted_digits (numeric : ∀ run ∈ runs, IsRun run)
    (numeric' : ∀ run ∈ others, IsRun run) :
    compare (dotted runs) (dotted others) = compareRuns runs others := by
  rw [compare_dotted_items numeric numeric', compareItems_numbers,
    compareNumbers_runs numeric numeric']

end Version

end VersionAlignment
