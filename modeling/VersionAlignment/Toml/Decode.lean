import VersionAlignment.Toml.Value

set_option autoImplicit false

namespace VersionAlignment.Toml

def momentKey : String := "$__toml_private_datetime"

namespace Value

def string? : Value → Option String
  | .string s => some s
  | _ => none

def boolean? : Value → Option Bool
  | .boolean b => some b
  | _ => none

def list? {α : Type} (read : Value → Option α) : Value → Option (List α)
  | .array values => values.mapM read
  | _ => none

/-- The entries of a table. A moment counts as a table of one entry. -/
def table? : Value → Option Table
  | .table entries => some entries
  | .moment m => some [(momentKey, .string m.text)]
  | _ => none

def strings? (v : Value) : Option (List (String × String)) :=
  v.table?.bind fun entries => entries.mapM fun (key, value) => value.string?.map ((key, ·))

end Value

/-- The fields of a record, by name or by place. -/
inductive Fields
  | named (entries : Table)
  | listed (values : List Value)

namespace Fields

def ofValue? : Value → Option Fields
  | .array values => some (.listed values)
  | v => v.table?.map .named

def get? (fields : Fields) (place : Nat) (name : String) : Option Value :=
  match fields with
  | .named entries => entries.lookup name
  | .listed values => values[place]?

def fits (fields : Fields) (count : Nat) : Bool :=
  match fields with
  | .named _ => true
  | .listed values => values.length ≤ count

section

variable {α : Type}

def required (fields : Fields) (place : Nat) (name : String) (read : Value → Option α) :
    Option α :=
  (fields.get? place name).bind read

def withDefault (fields : Fields) (place : Nat) (name : String) (default : α)
    (read : Value → Option α) : Option α :=
  match fields.get? place name with
  | some value => read value
  | none => some default

def optional (fields : Fields) (place : Nat) (name : String) (read : Value → Option α) :
    Option (Option α) :=
  match fields.get? place name, fields with
  | some value, _ => (read value).map some
  | none, .named _ => some none
  | none, .listed _ => none

end

end Fields

end VersionAlignment.Toml
