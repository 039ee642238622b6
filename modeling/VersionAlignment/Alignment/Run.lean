import VersionAlignment.Alignment.Lock
import VersionAlignment.Alignment.Setting
import VersionAlignment.Sorted

set_option autoImplicit false

namespace VersionAlignment

structure Run where
  locks : Locks := {}
  overridden : List (Nat × Coordinate) := []
  changes : ChangeSet := {}
  notCovered : List Coordinate := []
  unaligned : List Unaligned := []
  warnings : List Warning := []
  log : Log := []

namespace Run

def note (run : Run) (message : String) : Run :=
  { run with log := run.log ++ [⟨.info, message⟩] }

def push (run : Run) (change : Change) : Run :=
  { run with changes := run.changes.insert change }

def lock (run : Run) (site : Property.Site) (value : String) (origin : LockOrigin) : Run :=
  { run with locks := run.locks.lock site ⟨value, origin⟩ }

def settle (run : Run) (owner : Nat) (c : Coordinate) : Run :=
  { run with overridden := (owner, c) :: run.overridden }

def leaveUncovered (run : Run) (c : Coordinate) : Run :=
  { run with notCovered := Sorted.insert c run.notCovered }

def warn (run : Run) (w : Warning) : Run :=
  { run with
    warnings := run.warnings ++ [w]
    log := run.log ++ [⟨.warn, s!"Leaving {w}"⟩] }

/-- Reports a dependency that stays behind, unless its version is the channel's by another name. -/
def report (run : Run) (s : Setting) (u : Unaligned) : Run :=
  if s.isSame u.current u.target then run
  else { run with unaligned := run.unaligned ++ [u] }

end Run

end VersionAlignment
