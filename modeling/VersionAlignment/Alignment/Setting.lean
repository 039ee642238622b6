import VersionAlignment.Policy
import VersionAlignment.Project.Graph
import VersionAlignment.Property.Walk
import VersionAlignment.Version.Order

set_option autoImplicit false

namespace VersionAlignment

open Property

structure Surroundings where
  channel : Coordinate → String → Option String
  outside : Artifact → String → Except PropertyError (Option String)
  graph : Module → Except String Forest
  order : String → String → Ordering

structure Setting where
  project : Project
  policy : Policy
  options : Options
  given : Surroundings

namespace Setting

def resolve (s : Setting) (owner : Nat) (name : String) :
    Except PropertyError (Option Resolution) :=
  Property.resolve s.project s.given.outside owner name

def isMove (s : Setting) (old new : String) : Bool :=
  Version.isMove s.given.order s.options.doNotDowngrade old new

def isSame (s : Setting) (a b : String) : Bool := s.given.order a b == .eq

end Setting

end VersionAlignment
