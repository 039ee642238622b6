import VersionAlignment.Configuration.KeyPath
import VersionAlignment.Disk.Basic
import VersionAlignment.Text.Utf8
import VersionAlignment.Toml.Document

set_option autoImplicit false

namespace VersionAlignment.Configuration

def variableStart : List Char := "channel_align_".toList

def dotsForUnderscores : List Char → List Char
  | '_' :: '_' :: cs => '.' :: dotsForUnderscores cs
  | c :: cs => c :: dotsForUnderscores cs
  | [] => []

def keyOfVariable? (name : String) : Option String :=
  let cs := Text.lowerChars name.toList
  if variableStart.isPrefixOf cs then
    some (String.ofList (dotsForUnderscores (cs.drop variableStart.length)))
  else none

def setVariable (table : Entries) (name value : String) : Entries :=
  match keyOfVariable? name with
  | some key => set table key (.text value)
  | none => table

def setVariables (table : Entries) (named : List (String × String)) : Entries :=
  named.foldl (fun table (name, value) => setVariable table name value) table

def ofDocument? (document : String) : Option Entries :=
  (Toml.read? document).map fun table =>
    table.foldl (fun entries entry => set entries entry.1 (Value.ofToml entry.2)) []

def textOfFile (bytes : ByteArray) : String :=
  let marked := bytes.data.toList.take 3 == [0xEF, 0xBB, 0xBF]
  Text.ofBytes (if marked then bytes.extract 3 bytes.size else bytes)

section

variable {m : Type → Type} [Monad m]

def findFile (disk : Disk m) (file : Path) : m (Option Path) := do
  if ← disk.isFile file then return some file
  -- A file may be named without its extension.
  let some other := file.addExtension? "toml" | return none
  if ← disk.isFile other then return some other
  return none

def readFile (disk : Disk m) (file : Path) : m (Option Entries) := do
  let some file ← findFile disk file | return some []
  match ← disk.read file with
  | .ok bytes => return ofDocument? (textOfFile bytes)
  | .error _ => return some []

def load (disk : Disk m) (file : Path) (named : List (String × String)) :
    m (Option Entries) :=
  return (← readFile disk file).map (setVariables · named)

end

end VersionAlignment.Configuration
