import VersionAlignment.Disk.Error
import VersionAlignment.Path

set_option autoImplicit false

namespace VersionAlignment

inductive EntryKind
  | file
  | directory
  deriving DecidableEq, Repr

structure Disk (m : Type → Type) where
  kind : Path → m (Option EntryKind)
  read : Path → m (Except DiskError ByteArray)
  write : Path → String → m (Except DiskError Unit)
  names : Path → m (Except DiskError (List String))

namespace Disk

variable {m : Type → Type} [Monad m]

def isFile (disk : Disk m) (p : Path) : m Bool := return (← disk.kind p) == some .file

def isDirectory (disk : Disk m) (p : Path) : m Bool := return (← disk.kind p) == some .directory

def isUsed (disk : Disk m) (p : Path) : m Bool := return (← disk.kind p).isSome

def textOfBytes (bytes : ByteArray) : Except DiskError String :=
  match String.fromUTF8? bytes with
  | some s => .ok s
  | none => .error .notText

def readText (disk : Disk m) (p : Path) : m (Except DiskError String) :=
  return (← disk.read p) >>= textOfBytes

end Disk

end VersionAlignment
