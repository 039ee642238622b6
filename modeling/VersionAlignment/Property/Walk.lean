import VersionAlignment.Project
import VersionAlignment.Property.Reference

set_option autoImplicit false

namespace VersionAlignment.Property

structure Spot (κ : Type) where
  owner : κ
  name : String
  deriving DecidableEq, Repr

inductive Move (κ ε : Type)
  | go (next : Spot κ)
  | stop (ending : ε)

def maxLookups : Nat := 32

inductive PropertyError
  | cycle (name : String)
  | tooDeep (name : String)
  deriving DecidableEq, Repr

def PropertyError.message : PropertyError → String
  | .cycle name => s!"Property `{name}` is part of a reference cycle"
  | .tooDeep name => s!"Property `{name}` could not be resolved within {maxLookups} lookups"

section

variable {κ ε : Type} [DecidableEq κ]

def follow (move : Spot κ → Move κ ε) : Nat → List (Spot κ) → Spot κ → Except PropertyError ε
  | 0, _, spot => .error (.tooDeep spot.name)
  | left + 1, seen, spot =>
    if spot ∈ seen then .error (.cycle spot.name)
    else match move spot with
      | .go next => follow move left (spot :: seen) next
      | .stop ending => .ok ending

def walk (move : Spot κ → Move κ ε) (start : Spot κ) : Except PropertyError ε :=
  follow move maxLookups [] start

end

inductive Ending
  | literal (spot : Spot Nat) (value : String)
  | undefined
  | boundary (spot : Spot Nat) (parent : Artifact)

def insideMove (p : Project) (spot : Spot Nat) : Move Nat Ending :=
  match p.module? spot.owner with
  | none => .stop .undefined
  | some m =>
    match m.property? spot.name with
    | some value =>
      match reference? value with
      | some name => .go ⟨spot.owner, name⟩
      | none => .stop (.literal spot value)
    | none =>
      match m.parent with
      | some (.inside parent) => .go ⟨parent, spot.name⟩
      | some (.outside parent) => .stop (.boundary spot parent)
      | none => .stop .undefined

/-- The known parent with an identity; of several the last one listed. -/
def outsideParent? (parents : List OutsideParent) (identity : Artifact) : Option OutsideParent :=
  (parents.filter (·.artifact == identity)).getLast?

def outsideMove (parents : List OutsideParent) (spot : Spot Artifact) :
    Move Artifact (Option String) :=
  match outsideParent? parents spot.owner with
  | none => .stop none
  | some definition =>
    match definition.properties.lookup spot.name with
    | some value =>
      match reference? value with
      | some name => .go ⟨spot.owner, name⟩
      | none => .stop (some value)
    | none =>
      match definition.parent with
      | some parent => .go ⟨parent, spot.name⟩
      | none => .stop none

def resolveOutside (parents : List OutsideParent) (parent : Artifact) (name : String) :
    Except PropertyError (Option String) :=
  walk (outsideMove parents) ⟨parent, name⟩

/-- Where a property takes its value: the module that defines it, or the module whose parent is
outside of the project. A change to the property is written to that module. -/
structure Site where
  owner : Nat
  name : String
  outside : Bool
  deriving DecidableEq, Repr

def Site.text (s : Site) : String :=
  if s.outside then s!"{s.name} (external, below module #{s.owner})"
  else s!"{s.name} (module #{s.owner})"

instance : ToString Site := ⟨Site.text⟩

structure Resolution where
  site : Site
  value : String
  deriving DecidableEq, Repr

def resolve (p : Project) (outside : Artifact → String → Except PropertyError (Option String))
    (owner : Nat) (name : String) : Except PropertyError (Option Resolution) :=
  match walk (insideMove p) ⟨owner, name⟩ with
  | .error error => .error error
  | .ok .undefined => .ok none
  | .ok (.literal spot value) => .ok (some ⟨⟨spot.owner, spot.name, false⟩, value⟩)
  | .ok (.boundary spot parent) =>
    match outside parent spot.name with
    | .error error => .error error
    | .ok none => .ok none
    | .ok (some value) => .ok (some ⟨⟨spot.owner, spot.name, true⟩, value⟩)

end VersionAlignment.Property
