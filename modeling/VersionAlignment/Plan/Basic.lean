import VersionAlignment.Alignment.Report

set_option autoImplicit false

namespace VersionAlignment

inductive PlannedChange
  | setProperty (owner name value : String)
  | injectProperty (owner name value : String)
  | overrideVersion (owner dependency old new : String)
  | manage (owner dependency version former : String) (exclusions : List String)
  deriving DecidableEq, Repr

structure PlannedUnaligned where
  owner : String
  dependency : String
  current : String
  target : String
  reason : Reason
  deriving DecidableEq, Repr

structure Plan where
  notCovered : List String := []
  changes : List PlannedChange := []
  unaligned : List PlannedUnaligned := []
  deriving DecidableEq, Repr

def Project.moduleText (p : Project) (index : Nat) : String :=
  ((p.module? index).map Module.text).getD ""

namespace Plan

def ofChange (p : Project) : Change → PlannedChange
  | .setProperty owner name value => .setProperty (p.moduleText owner) name value
  | .injectProperty owner name value => .injectProperty (p.moduleText owner) name value
  | .overrideVersion owner c old new => .overrideVersion (p.moduleText owner) c.text old new
  | .manage owner c version exclusions former =>
    .manage (p.moduleText owner) c.text version former (exclusions.map Exclusion.text)

def ofUnaligned (p : Project) (u : Unaligned) : PlannedUnaligned :=
  ⟨p.moduleText u.owner, u.coordinate.text, u.current, u.target, u.reason⟩

def ofReport (r : Report) (p : Project) : Plan where
  notCovered := r.notCovered.map Coordinate.text
  changes := r.changes.changes.map (ofChange p)
  unaligned := r.unaligned.map (ofUnaligned p)

end Plan

end VersionAlignment
