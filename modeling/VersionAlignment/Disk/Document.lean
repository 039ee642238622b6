import VersionAlignment.Disk.Basic
import VersionAlignment.ReadError
import VersionAlignment.Session

set_option autoImplicit false

namespace VersionAlignment.Disk

variable {m : Type → Type} [Monad m] {α : Type}

def load (disk : Disk m) (p : Path) (ofText : String → Except ReadError α) :
    m (Except ReadError α) :=
  return ((← disk.readText p).mapError .disk) >>= ofText

def loadLogged (disk : Disk m) (p : Path) (ofText : String → Except ReadError α) (task : String) :
    Session ReadError m α := do
  match ← Session.perform (disk.readText p) with
  | .error e => throw (.disk e)
  | .ok text =>
    match ofText text with
    | .ok a => return a
    | .error e =>
      Session.log .error s!"Could not {task} {p.text} due to err {e.message}"
      throw e

end VersionAlignment.Disk
