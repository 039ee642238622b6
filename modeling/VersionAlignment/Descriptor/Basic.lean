import VersionAlignment.Alignment.Setting

set_option autoImplicit false

namespace VersionAlignment

structure Descriptor where
  project : Project
  outsideParents : List OutsideParent := []
  graphs : List (Nat × Forest) := []
  deriving Repr

namespace Descriptor

def identified (d : Descriptor) : List (Artifact × Forest) :=
  d.graphs.filterMap fun (index, graph) =>
    (d.project.module? index).map fun m => (m.identity, graph)

/-- The graph recorded for a module, the last one if several modules have its identity; none
recorded is an empty one. -/
def graph (d : Descriptor) (m : Module) : Forest :=
  ((d.identified.reverse).lookup m.identity).getD []

def surroundings (d : Descriptor) (channel : Coordinate → String → Option String)
    (order : String → String → Ordering) : Surroundings where
  channel
  outside := Property.resolveOutside d.outsideParents
  graph := fun m => .ok (d.graph m)
  order

end Descriptor

end VersionAlignment
