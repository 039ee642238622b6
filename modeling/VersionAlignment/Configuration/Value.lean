import VersionAlignment.Decimal.Shortest
import VersionAlignment.Sorted
import VersionAlignment.Text.Lowercase
import VersionAlignment.Text.Quoted
import VersionAlignment.Toml.Value

set_option autoImplicit false

namespace VersionAlignment.Configuration

inductive Value
  | absent
  | boolean (value : Bool)
  | integer (value : Int)
  | float (value : Binary64)
  | text (value : String)
  | list (values : List Value)
  | table (entries : List (String × Value))
  deriving Repr

mutual

def Value.ofToml : Toml.Value → Value
  | .string s => .text s
  | .integer n => .integer n
  | .float x => .float x
  | .boolean b => .boolean b
  | .moment m => .text m.text
  | .array values => .list (listOfToml values)
  | .table entries => .table (Sorted.mapOfList (entriesOfToml entries))

def listOfToml : List Toml.Value → List Value
  | [] => []
  | v :: values => Value.ofToml v :: listOfToml values

def entriesOfToml : List (String × Toml.Value) → List (String × Value)
  | [] => []
  | (key, value) :: entries => (key, Value.ofToml value) :: entriesOfToml entries

end

inductive Misfit
  | text (value : String)
  | sequence
  | map
  | unit
  deriving DecidableEq, Repr

def Misfit.message : Misfit → String
  | .text s => "string " ++ Text.quoted s
  | .sequence => "sequence"
  | .map => "map"
  | .unit => "unit value"

def floatStyle : Binary64.Style := ⟨"NaN", "NaN", false⟩

def flagOfWord? : String → Option Bool
  | "1" | "true" | "on" | "yes" => some true
  | "0" | "false" | "off" | "no" => some false
  | _ => none

namespace Value

def toFlag : Value → Except Misfit Bool
  | .boolean b => .ok b
  | .integer n => .ok (n != 0)
  | .float x => .ok !x.isZero
  | .text s =>
    match flagOfWord? (Text.lowercase s) with
    | some b => .ok b
    | none => .error (.text (Text.lowercase s))
  | .list _ => .error .sequence
  | .table _ => .error .map
  | .absent => .error .unit

def toText : Value → Except Misfit String
  | .text s => .ok s
  | .boolean b => .ok (if b then "true" else "false")
  | .integer n => .ok (toString n)
  | .float x => .ok (x.text floatStyle)
  | .list _ => .error .sequence
  | .table _ => .error .map
  | .absent => .error .unit

end Value

end VersionAlignment.Configuration
