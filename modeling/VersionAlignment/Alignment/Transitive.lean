import VersionAlignment.Alignment.Setting
import VersionAlignment.Sorted

set_option autoImplicit false

namespace VersionAlignment

def Project.declaredCoordinates (p : Project) : List Coordinate :=
  p.modules.map (·.identity.coordinate) ++
    p.modules.flatMap fun m => m.declarations.map (·.coordinate)

structure Occurrence where
  version : String
  exclusions : List Exclusion
  deriving DecidableEq, Repr

abbrev Candidates := List (Coordinate × Occurrence)

namespace Candidates

def admits (s : Setting) (node : GraphNode) : Bool :=
  let c := node.artifact.coordinate
  !(s.project.owns c || s.project.declaredCoordinates.contains c ||
    s.policy.ignoresScope node.effectiveScope || s.policy.ignoresStream c)

def merge (s : Setting) (node : GraphNode) : Option Occurrence → Occurrence
  | none => ⟨node.artifact.version, node.exclusions⟩
  | some old =>
    -- Of versions that compare equal the first one stays.
    ⟨if s.given.order node.artifact.version old.version = .gt then node.artifact.version
      else old.version,
      Sorted.union old.exclusions node.exclusions⟩

def addNode (s : Setting) (candidates : Candidates) (node : GraphNode) : Candidates :=
  if admits s node then Sorted.alter node.artifact.coordinate (merge s node) candidates
  else candidates

def visit (s : Setting) (candidates : Candidates) (graph : Forest) : Candidates :=
  graph.nodes.foldl (addNode s) candidates

end Candidates

structure TransitiveOutcome where
  injections : List Change := []
  notCovered : List Coordinate := []
  unaligned : List Unaligned := []

namespace TransitiveOutcome

def add (s : Setting) (outcome : TransitiveOutcome) (candidate : Coordinate × Occurrence) :
    TransitiveOutcome :=
  let (c, ⟨version, exclusions⟩) := candidate
  match s.given.channel c version with
  | none => { outcome with notCovered := Sorted.insert c outcome.notCovered }
  | some target =>
    if s.isMove version target then
      { outcome with
        injections :=
          outcome.injections ++ [.manage s.project.root c target exclusions version] }
    else if s.isSame version target then outcome
    else
      { outcome with
        unaligned :=
          outcome.unaligned ++ [⟨s.project.root, c, version, target, .downgradeRefused⟩] }

def ofCandidates (s : Setting) (candidates : Candidates) : TransitiveOutcome :=
  candidates.foldl (add s) {}

end TransitiveOutcome

end VersionAlignment
