import VersionAlignment.Configuration.Value

set_option autoImplicit false

namespace VersionAlignment.Configuration

inductive Step
  | key (name : String)
  | place (index : Int)
  deriving DecidableEq, Repr

structure KeyPath where
  root : String
  steps : List Step := []
  deriving DecidableEq, Repr

namespace KeyPath

def isKeyChar (c : Char) : Bool := c.isAlphanum || c == '_' || c == '-'

def isSpace (c : Char) : Bool := c == ' ' || c == '\t'

def natOfDigits? (cs : List Char) : Option Nat :=
  if cs.isEmpty || !cs.all Char.isDigit then none
  else some (cs.foldl (fun n c => 10 * n + (c.toNat - '0'.toNat)) 0)

def index? (cs : List Char) : Option Int :=
  match ((cs.dropWhile isSpace).reverse.dropWhile isSpace).reverse with
  | '-' :: digits => (natOfDigits? digits).map fun n => -(n : Int)
  | digits => (natOfDigits? digits).map fun n => (n : Int)

theorem length_dropWhile_le {p : Char → Bool} (cs : List Char) :
    (cs.dropWhile p).length ≤ cs.length :=
  (List.dropWhile_sublist p).length_le

def steps? : List Char → Option (List Step)
  | [] => some []
  | '.' :: cs =>
    match cs.takeWhile isKeyChar with
    | [] => none
    | name => (steps? (cs.dropWhile isKeyChar)).map (.key (String.ofList name) :: ·)
  | '[' :: cs =>
    match index? (cs.takeWhile (· != ']')), _h : cs.dropWhile (· != ']') with
    | some index, _ :: rest => (steps? rest).map (.place index :: ·)
    | _, _ => none
  | _ => none
termination_by cs => cs.length
decreasing_by
  · have := length_dropWhile_le (p := isKeyChar) cs
    simp only [List.length_cons]
    omega
  · have := length_dropWhile_le (p := (· != ']')) cs
    rw [_h] at this
    simp only [List.length_cons] at *
    omega

def ofText? (key : String) : Option KeyPath :=
  match key.toList.takeWhile isKeyChar with
  | [] => none
  | root => (steps? (key.toList.dropWhile isKeyChar)).map (⟨String.ofList root, ·⟩)

def ofText (key : String) : KeyPath := (ofText? key).getD ⟨key, []⟩

end KeyPath

namespace Value

def entries : Option Value → List (String × Value)
  | some (.table entries) => entries
  | _ => []

def values : Option Value → List Value
  | some (.list values) => values
  | _ => []

mutual

def setOver (old : Option Value) : Value → Value
  -- A table without entries sets nothing but a table.
  | .table [] =>
    match old with
    | none | some .absent => .table []
    | some kept => kept
  | .table (entry :: added) => .table (setEntries (entries old) (entry :: added))
  | v => v

def setEntries (table : List (String × Value)) : List (String × Value) → List (String × Value)
  | [] => table
  | (key, value) :: added =>
    setEntries (Sorted.alter key (fun old => setOver old value) table) added

end

def alterAt (index : Int) (value : Option Value → Value) (values : List Value) : List Value :=
  let place := if index < 0 then index + values.length else index
  if place < 0 then
    -- A place before the start moves the list up, with gaps in between.
    value (some .absent) :: List.replicate (place.natAbs - 1) .absent ++ values
  else
    let filled := values ++ List.replicate (place.toNat + 1 - values.length) .absent
    filled.modify place.toNat fun old => value (some old)

def setBelow (new : Value) : List Step → Option Value → Value
  | [], old => setOver old new
  | .key name :: steps, old => .table (Sorted.alter name (setBelow new steps) (entries old))
  | .place index :: steps, old => .list (alterAt index (setBelow new steps) (values old))

end Value

abbrev Entries := List (String × Value)

def set (table : Entries) (key : String) (new : Value) : Entries :=
  let path := KeyPath.ofText key
  Sorted.alter path.root (Value.setBelow new path.steps) table

end VersionAlignment.Configuration
