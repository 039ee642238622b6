import VersionAlignment.Coordinate

set_option autoImplicit false

namespace VersionAlignment

inductive Change
  | setProperty (owner : Nat) (name value : String)
  | injectProperty (owner : Nat) (name value : String)
  | overrideVersion (owner : Nat) (coordinate : Coordinate) (old new : String)
  | manage (owner : Nat) (coordinate : Coordinate) (version : String)
      (exclusions : List Exclusion) (former : String)
  deriving DecidableEq, Repr

namespace Change

def owner : Change → Nat
  | .setProperty owner .. => owner
  | .injectProperty owner .. => owner
  | .overrideVersion owner .. => owner
  | .manage owner .. => owner

def text : Change → String
  | .setProperty _ name value => s!"set property {name} to {value}"
  | .injectProperty _ name value => s!"inject property {name} = {value}"
  | .overrideVersion _ coordinate old new => s!"override {coordinate} {old} -> {new}"
  | .manage _ coordinate version _ former =>
    s!"inject managed dependency {coordinate}:{version} (was {former})"

instance : ToString Change := ⟨text⟩

end Change

structure ChangeSet where
  changes : List Change := []
  deriving DecidableEq, Repr

namespace ChangeSet

def push (set : ChangeSet) (change : Change) : ChangeSet × Bool :=
  if change ∈ set.changes then (set, false) else (⟨set.changes ++ [change]⟩, true)

def insert (set : ChangeSet) (change : Change) : ChangeSet := (set.push change).1

def extend (set : ChangeSet) (changes : List Change) : ChangeSet := changes.foldl insert set

def ofModule (set : ChangeSet) (index : Nat) : List Change :=
  set.changes.filter (·.owner == index)

def isEmpty (set : ChangeSet) : Bool := set.changes.isEmpty

def size (set : ChangeSet) : Nat := set.changes.length

end ChangeSet

inductive Reason
  | ignoredStream
  | ignoredScope
  | ignoredProperty
  | overridden
  | downgradeRefused
  | notInjected
  deriving DecidableEq, Repr

namespace Reason

def all : List Reason :=
  [.ignoredStream, .ignoredScope, .ignoredProperty, .overridden, .downgradeRefused, .notInjected]

def keyword : Reason → String
  | .ignoredStream => "ignored_stream"
  | .ignoredScope => "ignored_scope"
  | .ignoredProperty => "ignored_property"
  | .overridden => "hard_override"
  | .downgradeRefused => "downgrade_refused"
  | .notInjected => "external_property_not_injected"

def ofKeyword? (word : String) : Option Reason := all.find? (·.keyword == word)

theorem ofKeyword?_keyword (reason : Reason) : ofKeyword? reason.keyword = some reason := by
  cases reason <;> decide

def text : Reason → String
  | .ignoredStream => "stream is ignored"
  | .ignoredScope => "scope is ignored"
  | .ignoredProperty => "property is ignored"
  | .overridden => "version is overridden"
  | .downgradeRefused => "downgrades are disabled"
  | .notInjected => "external property injection is disabled"

instance : ToString Reason := ⟨text⟩

end Reason

structure Unaligned where
  owner : Nat
  coordinate : Coordinate
  current : String
  target : String
  reason : Reason
  deriving DecidableEq, Repr

structure Warning where
  owner : Nat
  coordinate : Coordinate
  property : Option String
  message : String
  deriving DecidableEq, Repr

def Warning.text (w : Warning) : String :=
  match w.property with
  | some property => s!"{w.coordinate} (property {property}): {w.message}"
  | none => s!"{w.coordinate}: {w.message}"

instance : ToString Warning := ⟨Warning.text⟩

end VersionAlignment
