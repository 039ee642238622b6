import VersionAlignment.Plan.Basic
import VersionAlignment.ReadError
import VersionAlignment.Toml.Decode
import VersionAlignment.Toml.Document

set_option autoImplicit false

namespace VersionAlignment

open Toml

mutual

def Toml.Value.momentsAsText : Value → Value
  | .moment m => .string m.text
  | .array values => .array (textsOfMoments values)
  | .table entries => .table (entryTextsOfMoments entries)
  | v => v

def Toml.textsOfMoments : List Value → List Value
  | [] => []
  | v :: values => v.momentsAsText :: textsOfMoments values

def Toml.entryTextsOfMoments : List (String × Value) → List (String × Value)
  | [] => []
  | (key, value) :: entries => (key, value.momentsAsText) :: entryTextsOfMoments entries

end

namespace Plan

def texts? : Value → Option (List String) := Value.list? Value.string?

def changeFields? (fields : Fields) (count : Nat) : Option Fields :=
  match fields with
  | .named entries => some (.named entries)
  | .listed values => if values.length ≤ count + 1 then some (.listed values.tail) else none

def changeOfValue? (v : Value) : Option PlannedChange := do
  let fields ← Fields.ofValue? v
  let op ← fields.required 0 "op" Value.string?
  match op with
  | "set_property" =>
    let fields ← changeFields? fields 3
    return .setProperty (← fields.required 0 "module" Value.string?)
      (← fields.required 1 "name" Value.string?) (← fields.required 2 "value" Value.string?)
  | "inject_property" =>
    let fields ← changeFields? fields 3
    return .injectProperty (← fields.required 0 "module" Value.string?)
      (← fields.required 1 "name" Value.string?) (← fields.required 2 "value" Value.string?)
  | "override_inline_version" =>
    let fields ← changeFields? fields 4
    return .overrideVersion (← fields.required 0 "module" Value.string?)
      (← fields.required 1 "dependency" Value.string?)
      (← fields.required 2 "old_version" Value.string?)
      (← fields.required 3 "new_version" Value.string?)
  | "inject_managed_dependency" =>
    let fields ← changeFields? fields 5
    return .manage (← fields.required 0 "module" Value.string?)
      (← fields.required 1 "dependency" Value.string?)
      (← fields.required 2 "version" Value.string?)
      (← fields.required 3 "original_version" Value.string?)
      (← fields.withDefault 4 "exclusions" [] texts?)
  | _ => none

/-- A reason is its keyword, also as the only key of a table with nothing in it. -/
def reasonOfValue? : Value → Option Reason
  | .string word => Reason.ofKeyword? word
  | .table [(word, .table [])] => Reason.ofKeyword? word
  | .table [(word, .array [])] => Reason.ofKeyword? word
  | _ => none

def unalignedOfValue? (v : Value) : Option PlannedUnaligned := do
  let fields ← Fields.ofValue? v
  guard (fields.fits 5)
  return {
    owner := ← fields.required 0 "module" Value.string?
    dependency := ← fields.required 1 "dependency" Value.string?
    current := ← fields.required 2 "current_version" Value.string?
    target := ← fields.required 3 "channel_version" Value.string?
    reason := ← fields.required 4 "reason" reasonOfValue? }

def ofTable? (table : Table) : Option Plan := do
  -- Moments may stand where texts are wanted.
  let fields := Fields.named (entryTextsOfMoments table)
  return {
    notCovered := ← fields.withDefault 0 "not_covered" [] texts?
    changes := ← fields.withDefault 1 "changes" [] (Value.list? changeOfValue?)
    unaligned := ← fields.withDefault 2 "unaligned" [] (Value.list? unalignedOfValue?) }

def ofText (document : String) : Except ReadError Plan :=
  match Toml.read? document with
  | none => .error .malformed
  | some table =>
    match table.lookup "version" with
    | none => .error .noPlanVersion
    | some (.integer 1) =>
      match ofTable? table with
      | some plan => .ok plan
      | none => .error .malformed
    | some version => .error (.planVersion version)

end Plan

end VersionAlignment
