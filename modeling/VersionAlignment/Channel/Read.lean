import VersionAlignment.Channel.Index
import VersionAlignment.ReadError
import VersionAlignment.Toml.Decode

set_option autoImplicit false

namespace VersionAlignment

open Toml

namespace Stream

def ofValue? (v : Value) : Option Stream := do
  let fields ← Fields.ofValue? v
  return {
    group := ← fields.required 0 "group_id" Value.string?
    artifact := ← fields.required 1 "artifact_id" Value.string?
    version := ← fields.required 2 "version" Value.string? }

end Stream

namespace Manifest

def ofTable? (table : Table) : Option Manifest := do
  let fields := Fields.named table
  return {
    name := ← fields.optional 0 "name" Value.string?
    streams := ← fields.withDefault 1 "streams" [] (Value.list? Stream.ofValue?) }

def ofText (document : String) : Except ReadError Manifest :=
  match (Toml.read? document).bind ofTable? with
  | some m => .ok m
  | none => .error .malformed

end Manifest

structure ManifestReference where
  path : Option String := none
  group : Option String := none
  artifact : Option String := none
  version : Option String := none
  deriving DecidableEq, Repr

structure Channel where
  name : Option String := none
  manifest : ManifestReference := {}
  deriving DecidableEq, Repr

namespace Channel

def referenceOfValue? (v : Value) : Option ManifestReference := do
  let fields ← Fields.ofValue? v
  return {
    path := ← fields.optional 0 "path" Value.string?
    group := ← fields.optional 1 "group_id" Value.string?
    artifact := ← fields.optional 2 "artifact_id" Value.string?
    version := ← fields.optional 3 "version" Value.string? }

def ofTable? (table : Table) : Option Channel := do
  let fields := Fields.named table
  return {
    name := ← fields.optional 0 "name" Value.string?
    manifest := ← fields.withDefault 1 "manifest" {} referenceOfValue? }

def ofText (document : String) : Except ReadError Channel :=
  match (Toml.read? document).bind ofTable? with
  | some c => .ok c
  | none => .error .malformed

end Channel

end VersionAlignment
