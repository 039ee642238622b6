import VersionAlignment.Coordinate

set_option autoImplicit false

namespace VersionAlignment

inductive Place
  | dependencies
  | management
  deriving DecidableEq, Repr

structure Declaration where
  coordinate : Coordinate
  version : Option String := none
  scope : Option String := none
  exclusions : List Exclusion := []
  place : Place := .dependencies
  deriving DecidableEq, Repr

def defaultScope : String := "compile"

def Declaration.effectiveScope (d : Declaration) : String := d.scope.getD defaultScope

inductive Parent
  | inside (index : Nat)
  | outside (artifact : Artifact)
  deriving DecidableEq, Repr

structure Module where
  group : String
  artifact : String
  version : String
  isRoot : Bool := false
  parent : Option Parent := none
  properties : List (String × String) := []
  declarations : List Declaration := []
  deriving DecidableEq, Repr

namespace Module

def text (m : Module) : String := m.group ++ ":" ++ m.artifact

instance : ToString Module := ⟨text⟩

def identity (m : Module) : Artifact := ⟨⟨m.group, m.artifact, "jar", none⟩, m.version⟩

def property? (m : Module) (name : String) : Option String := m.properties.lookup name

end Module

inductive ProjectError
  | noRoot
  | manyRoots (modules : List String)
  | unknownParent (child : String) (parent : Nat)
  deriving DecidableEq, Repr

def ProjectError.message : ProjectError → String
  | .noRoot => "No execution root module found in the project"
  | .manyRoots modules =>
    "Multiple execution root modules found: " ++ Text.joinWith ", " modules
  | .unknownParent child parent => s!"Module {child} references unknown parent module #{parent}"

structure Project where
  modules : List Module
  root : Nat
  deriving DecidableEq, Repr

namespace Project

def danglingParent? (modules : List Module) : Option ProjectError :=
  modules.findSome? fun m =>
    match m.parent with
    | some (.inside i) => if i < modules.length then none else some (.unknownParent m.text i)
    | _ => none

/-- A project has exactly one execution root, and every inside parent is one of its modules. -/
def ofModules (modules : List Module) : Except ProjectError Project :=
  match danglingParent? modules with
  | some error => .error error
  | none =>
    match modules.zipIdx.filter (·.1.isRoot) with
    | [] => .error .noRoot
    | [(_, root)] => .ok ⟨modules, root⟩
    | roots => .error (.manyRoots (roots.map (·.1.text)))

def module? (p : Project) (index : Nat) : Option Module := p.modules[index]?

def indexed (p : Project) : List (Module × Nat) := p.modules.zipIdx

def find? (p : Project) (group artifact : String) : Option Nat :=
  p.modules.findIdx? fun m => m.group == group && m.artifact == artifact

def owns (p : Project) (c : Coordinate) : Bool := (p.find? c.group c.artifact).isSome

end Project

structure OutsideParent where
  artifact : Artifact
  parent : Option Artifact := none
  properties : List (String × String) := []
  deriving DecidableEq, Repr

end VersionAlignment
