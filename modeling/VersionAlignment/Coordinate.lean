import VersionAlignment.Text.Blank
import VersionAlignment.Text.Split

set_option autoImplicit false

namespace VersionAlignment

structure Coordinate where
  group : String
  artifact : String
  kind : String := "jar"
  classifier : Option String := none
  deriving DecidableEq, Repr

namespace Coordinate

/-- The kind is left out where it is the usual one and no classifier follows it. -/
def text (c : Coordinate) : String :=
  match c.classifier with
  | some classifier => c.group ++ ":" ++ c.artifact ++ ":" ++ c.kind ++ ":" ++ classifier
  | none =>
    if c.kind = "jar" then c.group ++ ":" ++ c.artifact
    else c.group ++ ":" ++ c.artifact ++ ":" ++ c.kind

instance : ToString Coordinate := ⟨text⟩

def stream (c : Coordinate) : String := c.group ++ ":" ++ c.artifact

def order : Coordinate → Coordinate → Ordering :=
  compareLex (compareOn group) <| compareLex (compareOn artifact) <|
    compareLex (compareOn kind) (compareOn classifier)

instance : Ord Coordinate := ⟨order⟩

theorem order_eq_iff {a b : Coordinate} : order a b = .eq ↔ a = b := by
  simp only [order, compareLex_eq_eq, compareOn, Std.compare_eq_iff_eq]
  cases a
  cases b
  simp

instance : Std.LawfulEqOrd Coordinate where
  compare_self := order_eq_iff.2 rfl
  eq_of_compare := order_eq_iff.1

instance : Std.TransOrd Coordinate :=
  inferInstanceAs (Std.TransCmp (compareLex (compareOn group) <| compareLex (compareOn artifact) <|
    compareLex (compareOn kind) (compareOn classifier)))

end Coordinate

structure Artifact where
  coordinate : Coordinate
  version : String
  deriving DecidableEq, Repr

namespace Artifact

def text (a : Artifact) : String := a.coordinate.text ++ ":" ++ a.version

instance : ToString Artifact := ⟨text⟩

/-- Reads `group:artifact:version`, with a kind before the version, or a kind and a classifier. -/
def ofText? (s : String) : Option Artifact :=
  let parts := Text.split ':' (Text.trim s)
  if parts.contains "" then none
  else match parts with
    | [group, artifact, version] => some ⟨⟨group, artifact, "jar", none⟩, version⟩
    | [group, artifact, kind, version] => some ⟨⟨group, artifact, kind, none⟩, version⟩
    | [group, artifact, kind, classifier, version] =>
      some ⟨⟨group, artifact, kind, some classifier⟩, version⟩
    | _ => none

end Artifact

def pairOfText? (s : String) : Option (String × String) :=
  match Text.split ':' (Text.trim s) with
  | [first, second] => if first = "" ∨ second = "" then none else some (first, second)
  | _ => none

structure Exclusion where
  group : String
  artifact : String
  deriving DecidableEq, Repr

namespace Exclusion

def text (e : Exclusion) : String := e.group ++ ":" ++ e.artifact

instance : ToString Exclusion := ⟨text⟩

def order : Exclusion → Exclusion → Ordering := compareLex (compareOn group) (compareOn artifact)

instance : Ord Exclusion := ⟨order⟩

theorem order_eq_iff {a b : Exclusion} : order a b = .eq ↔ a = b := by
  simp only [order, compareLex_eq_eq, compareOn, Std.compare_eq_iff_eq]
  cases a
  cases b
  simp

instance : Std.LawfulEqOrd Exclusion where
  compare_self := order_eq_iff.2 rfl
  eq_of_compare := order_eq_iff.1

instance : Std.TransOrd Exclusion :=
  inferInstanceAs (Std.TransCmp (compareLex (compareOn group) (compareOn artifact)))

def ofText? (s : String) : Option Exclusion :=
  (pairOfText? s).map fun (group, artifact) => ⟨group, artifact⟩

end Exclusion

structure StreamPattern where
  group : String
  artifact : Option String
  deriving DecidableEq, Repr

namespace StreamPattern

def text (p : StreamPattern) : String := p.group ++ ":" ++ p.artifact.getD "*"

instance : ToString StreamPattern := ⟨text⟩

def ofText? (s : String) : Option StreamPattern :=
  (pairOfText? s).map fun (group, artifact) =>
    ⟨group, if artifact = "*" then none else some artifact⟩

def covers (p : StreamPattern) (group artifact : String) : Bool :=
  p.group == group && p.artifact.all (· == artifact)

def specificity (p : StreamPattern) : Nat := if p.artifact.isSome then 1 else 0

end StreamPattern

end VersionAlignment
