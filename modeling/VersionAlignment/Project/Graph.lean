import VersionAlignment.Project

set_option autoImplicit false

namespace VersionAlignment

structure GraphNode where
  artifact : Artifact
  scope : Option String := none
  exclusions : List Exclusion := []
  children : List GraphNode := []
  deriving Repr

namespace GraphNode

def effectiveScope (n : GraphNode) : String := n.scope.getD defaultScope

end GraphNode

abbrev Forest := List GraphNode

namespace Forest

def size : Forest → Nat
  | [] => 0
  | ⟨_, _, _, children⟩ :: rest => 1 + size children + size rest

@[simp] theorem size_append (a b : Forest) : size (a ++ b) = size a + size b := by
  induction a with
  | nil => simp [size]
  | cons n a ih => cases n; simp only [List.cons_append, size, ih]; omega

/-- All nodes, visited from a list of pending ones: the children of a node come right after it. -/
def nodes : Forest → List GraphNode
  | [] => []
  | node :: pending => node :: nodes (node.children ++ pending)
termination_by pending => size pending
decreasing_by cases node; simp only [size_append, size]; omega

def preorder : Forest → List GraphNode
  | [] => []
  | ⟨artifact, scope, exclusions, children⟩ :: rest =>
    ⟨artifact, scope, exclusions, children⟩ :: (preorder children ++ preorder rest)

end Forest

end VersionAlignment
