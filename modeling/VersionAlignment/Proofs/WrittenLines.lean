import VersionAlignment.Proofs.WrittenValues

set_option autoImplicit false

namespace VersionAlignment.Toml

theorem skipGaps_of_not_isGap {c : Char} {cs : List Char} (apart : ¬ isGap c = true) :
    skipGaps (c :: cs) = c :: cs :=
  List.dropWhile_cons_of_neg apart

section Keys

def IsBare (key : String) : Prop := (!key.toList.isEmpty && key.toList.all isBareKeyChar) = true

instance (key : String) : Decidable (IsBare key) :=
  inferInstanceAs (Decidable ((!key.toList.isEmpty && key.toList.all isBareKeyChar) = true))

variable {key : String} {c : Char} {rest : List Char}

theorem IsBare.nonempty (bare : IsBare key) : key.toList ≠ [] := by
  rw [IsBare, Bool.and_eq_true] at bare
  simpa using bare.1

theorem IsBare.allowed (bare : IsBare key) : ∀ c ∈ key.toList, isBareKeyChar c = true := by
  rw [IsBare, Bool.and_eq_true] at bare
  exact List.all_eq_true.1 bare.2

theorem IsBare.exists_cons (bare : IsBare key) : ∃ first more, key.toList = first :: more ∧
    ∀ d, isBareKeyChar d = false → first ≠ d := by
  match same : key.toList with
  | [] => exact absurd same bare.nonempty
  | first :: more =>
    refine ⟨first, more, rfl, ?_⟩
    rintro d other rfl
    exact Bool.eq_false_iff.1 other (bare.allowed first (same ▸ List.mem_cons_self))

theorem simpleKey?_append (bare : IsBare key) (ends : isBareKeyChar c = false) :
    simpleKey? (key.toList ++ c :: rest) = some (key, c :: rest) := by
  have split : (key.toList ++ c :: rest).span isBareKeyChar = (key.toList, c :: rest) := by
    simp [List.span_eq_takeWhile_dropWhile, List.takeWhile_append_of_pos bare.allowed,
      List.dropWhile_append_of_pos bare.allowed, ends]
  obtain ⟨first, more, same, apart⟩ := bare.exists_cons
  rw [same, List.cons_append] at split ⊢
  rw [simpleKey?, split]
  · rw [← same] at *
    simp [bare.nonempty]
  · exact fun _ other => apart '"' rfl (List.cons.inj other).1
  · exact fun _ other => apart '\'' rfl (List.cons.inj other).1

theorem key?_append (bare : IsBare key) (parts : Nat) (ends : isBareKeyChar c = false)
    (last : (skipGaps (c :: rest)).head? ≠ some '.') :
    key? (parts + 1) (key.toList ++ c :: rest) = some ([key], skipGaps (c :: rest)) := by
  have skip : skipGaps (key.toList ++ c :: rest) = key.toList ++ c :: rest := by
    obtain ⟨first, more, same, apart⟩ := bare.exists_cons
    rw [same]
    exact skipGaps_of_not_isGap (by simp [isGap, apart ' ' rfl, apart '\t' rfl])
  rw [key?, skip, simpleKey?_append bare ends]
  dsimp only
  split
  · next other => simp [other] at last
  · rfl

end Keys

section Lines

structure Writes (text : String) (value : Value) : Prop where
  first : (text.toList.head?.all fun c => !isGap c) = true
  read : ∀ levels rest,
    value? (levels + 1) (text.toList ++ '\n' :: rest) = some (value, '\n' :: rest)

theorem writes_quotedValue (s : String) : Writes (quotedValue s) (.string s) where
  first := by
    obtain ⟨first, more, same, rfl | rfl⟩ := exists_quotedChars s.toList <;>
      simp [quotedValue, same, isGap]
  read levels rest := by
    rw [quotedValue, String.toList_ofList]
    exact value?_quotedChars s (by simp) (by simp)

theorem writes_listText (texts : List String) :
    Writes (Plan.listText texts) (.array (texts.map .string)) where
  first := by
    match texts with
    | [] => rfl
    | [s] => simp [Plan.listText, isGap]
    | s :: s' :: texts => simp [Plan.listText, isGap]
  read _ _ := value?_listText texts

theorem writes_formatVersion : Writes (toString Plan.formatVersion) (.integer 1) where
  first := rfl
  read _ _ := value?_one

variable {key text : String} {value : Value}

theorem Writes.skipGaps_append (writes : Writes text value) (rest : List Char) :
    skipGaps (text.toList ++ '\n' :: rest) = text.toList ++ '\n' :: rest := by
  have first := writes.first
  match same : text.toList with
  | [] => exact skipGaps_of_not_isGap (by decide)
  | c :: cs => exact skipGaps_of_not_isGap (by simpa [same] using first)

theorem assignment?_append (bare : IsBare key) (writes : Writes text value) (rest : List Char) :
    assignment? (value? (nestingLimit - 1))
        (key.toList ++ ' ' :: '=' :: ' ' :: (text.toList ++ '\n' :: rest)) =
      some (([key], value), '\n' :: rest) := by
  have skip (cs : List Char) : skipGaps (' ' :: '=' :: cs) = '=' :: cs := by
    simp [skipGaps, isGap]
  have path : key? (nestingLimit - 1)
      (key.toList ++ ' ' :: '=' :: ' ' :: (text.toList ++ '\n' :: rest)) =
        some ([key], '=' :: ' ' :: (text.toList ++ '\n' :: rest)) := by
    rw [← skip]
    exact key?_append bare _ rfl (by simp [skip])
  have next : skipGaps (' ' :: (text.toList ++ '\n' :: rest)) = text.toList ++ '\n' :: rest :=
    writes.skipGaps_append rest
  have done : skipGaps ('\n' :: rest) = '\n' :: rest := skipGaps_of_not_isGap (by decide)
  have read : value? (nestingLimit - 1) (text.toList ++ '\n' :: rest) =
      some (value, '\n' :: rest) := writes.read _ rest
  rw [assignment?, path]
  simp [next, read, done]

theorem lineEnd?_newline (rest : List Char) : lineEnd? ('\n' :: rest) = some rest := by
  simp [lineEnd?, skipGaps, isGap]

theorem line?_assignment (bare : IsBare key) (writes : Writes text value) (rest : List Char) :
    line? ((Plan.assignment key text).toList ++ rest) =
      some (some (.assign [key] value), rest) := by
  have shape : (Plan.assignment key text).toList ++ rest =
      key.toList ++ ' ' :: '=' :: ' ' :: (text.toList ++ '\n' :: rest) := by
    simp [Plan.assignment]
  have assigned := assignment?_append bare writes rest
  obtain ⟨first, more, same, apart⟩ := bare.exists_cons
  rw [shape]
  rw [same, List.cons_append] at assigned ⊢
  have skip (cs : List Char) : skipGaps (first :: cs) = first :: cs :=
    skipGaps_of_not_isGap (by simp [isGap, apart ' ' rfl, apart '\t' rfl])
  have goes (cs : List Char) : lineEnd? (first :: cs) = none := by
    simp [lineEnd?, skip, apart '#' rfl, apart '\n' rfl, apart '\r' rfl]
  have bracket : first ≠ '[' := apart '[' rfl
  simp [line?, skip, goes, bracket, assigned, lineEnd?_newline]

theorem line?_header (bare : IsBare key) (rest : List Char) :
    line? ('[' :: '[' :: (key.toList ++ ']' :: ']' :: '\n' :: rest)) =
      some (some (.header (.element [key])), rest) := by
  have skip : skipGaps (']' :: ']' :: '\n' :: rest) = ']' :: ']' :: '\n' :: rest :=
    skipGaps_of_not_isGap (by decide)
  have path : key? (nestingLimit - 1) (key.toList ++ ']' :: ']' :: '\n' :: rest) =
      some ([key], ']' :: ']' :: '\n' :: rest) := by
    rw [← skip]
    exact key?_append bare _ rfl (by simp [skip])
  have opened (cs : List Char) : skipGaps ('[' :: cs) = '[' :: cs :=
    skipGaps_of_not_isGap (by decide)
  simp [line?, opened, path, lineEnd?_newline]

theorem line?_blank (rest : List Char) : line? ('\n' :: rest) = some (none, rest) := by
  have skip : skipGaps ('\n' :: rest) = '\n' :: rest := skipGaps_of_not_isGap (by decide)
  simp [line?, skip, lineEnd?_newline]

/-- Text of a number of lines yields statements, whatever comes after it. No line is without
characters, whose number bounds the lines that are read of a document. -/
def Yields (text : List Char) (statements : List Statement) : Prop :=
  ∃ lines ≤ text.length, ∀ fuel rest, statements? (lines + fuel) (text ++ rest) =
    (statements? fuel rest).map (statements ++ ·)

theorem Yields.append {a b : List Char} {before after : List Statement} (first : Yields a before)
    (second : Yields b after) : Yields (a ++ b) (before ++ after) := by
  obtain ⟨n, few, first⟩ := first
  obtain ⟨m, few', second⟩ := second
  refine ⟨n + m, by rw [List.length_append]; omega, fun fuel rest => ?_⟩
  rw [List.append_assoc, Nat.add_assoc, first, second, Option.map_map]
  simp [Function.comp_def]

theorem yields_nil : Yields [] [] := ⟨0, Nat.le_refl _, fun fuel rest => by simp⟩

theorem Yields.join {α : Type} {text : α → List Char} {statements : α → List Statement}
    (items : List α) (each : ∀ item ∈ items, Yields (text item) (statements item)) :
    Yields (items.flatMap text) (items.flatMap statements) := by
  induction items with
  | nil => exact yields_nil
  | cons item items ih =>
    obtain ⟨first, each⟩ := List.forall_mem_cons.1 each
    exact first.append (ih each)

theorem yields_line {text : List Char} {statement : Option Statement} (goes : text ≠ [])
    (read : ∀ rest, line? (text ++ rest) = some (statement, rest)) :
    Yields text statement.toList := by
  refine ⟨1, List.length_pos_iff.2 goes, fun fuel rest => ?_⟩
  obtain ⟨first, more, rfl⟩ := List.exists_cons_of_ne_nil goes
  have read := read rest
  rw [Nat.add_comm, List.cons_append] at *
  rw [statements?, read]
  · cases statement <;> simp
  · simp

theorem yields_assignment (bare : IsBare key) (writes : Writes text value) :
    Yields (Plan.assignment key text).toList [.assign [key] value] :=
  yields_line (by simp [Plan.assignment]) (line?_assignment bare writes)

theorem yields_header (bare : IsBare key) :
    Yields ('\n' :: '[' :: '[' :: (key.toList ++ [']', ']', '\n'])) [.header (.element [key])] := by
  have blank : Yields ['\n'] (none : Option Statement).toList :=
    yields_line (by simp) line?_blank
  have header : Yields ('[' :: '[' :: (key.toList ++ [']', ']', '\n']))
      (some (Statement.header (.element [key]))).toList :=
    yields_line (by simp) fun rest => by simpa using line?_header bare rest
  exact blank.append header

theorem yields_block (bare : IsBare key) {body : String} {statements : List Statement}
    (inside : Yields body.toList statements) :
    Yields (Plan.block key body).toList (.header (.element [key]) :: statements) := by
  have shape : (Plan.block key body).toList =
      '\n' :: '[' :: '[' :: (key.toList ++ [']', ']', '\n']) ++ body.toList := by
    simp [Plan.block]
  rw [shape]
  exact (yields_header bare).append inside

theorem Yields.statements_eq {text : List Char} {statements : List Statement}
    (yields : Yields text statements) : statements? text.length text = some statements := by
  obtain ⟨lines, few, read⟩ := yields
  obtain ⟨fuel, enough⟩ := Nat.exists_eq_add_of_le few
  have read := read fuel []
  rw [List.append_nil, ← enough] at read
  simpa [Toml.statements?] using read

end Lines

end VersionAlignment.Toml
