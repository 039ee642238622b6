import VersionAlignment.CommandLine.Help
import VersionAlignment.CommandLine.Program

set_option autoImplicit false

namespace VersionAlignment.CommandLine

/-- The number of a system error, which may come with its sign changed. -/
def errorNumber (code : UInt32) : UInt32 := min code (0 - code)

def diskError : IO.Error → DiskError
  | .noFileOrDirectory .. => .notFound
  | .inappropriateType _ code _ => if errorNumber code = 20 then .notDirectory else .isDirectory
  | .invalidArgument _ code details =>
    if errorNumber code = 36 then .nameTooLong else .other details
  | e => .other (toString e)

def attempt {α : Type} (action : IO α) : IO (Except DiskError α) := do
  match ← action.toBaseIO with
  | .ok a => return .ok a
  | .error e => return .error (diskError e)

def systemDisk : Disk IO where
  kind p := do
    let found ← attempt do
      let path ← IO.FS.realPath p.text
      return (← path.isDir, ← path.pathExists)
    return match found with
      | .ok (true, _) => some .directory
      | .ok (false, true) => some .file
      | _ => none
  read p := attempt (IO.FS.readBinFile p.text)
  write p text := attempt (IO.FS.writeFile p.text text)
  names p := attempt do
    let entries ← (← IO.FS.realPath p.text).readDir
    return entries.toList.map (·.fileName)

def entryOfText? (s : String) : Option (String × String) := Text.splitOnce? '=' s

def systemVariables : IO (List (String × String)) := do
  let bytes ← IO.FS.readBinFile "/proc/self/environ"
  return (Text.split '\x00' (Text.ofBytes bytes)).filterMap entryOfText?

def systemEnvironment : IO Environment := do
  return ⟨← systemVariables, ⟨(← IO.currentDir).toString⟩⟩

def showRefusal : Refusal → IO Unit
  | .help => IO.println helpText
  | .version => IO.println versionText
  | .usage => IO.eprintln helpText

def runOnSystem (words : List String) : IO UInt32 := do
  match Arguments.ofWords words with
  | .ok arguments =>
    let ending ← run arguments systemDisk (← systemEnvironment)
    for line in ending.log do
      IO.eprintln s!"[{line.level.name}] {line.message}"
    return ending.exitCode.toUInt32
  | .error refusal =>
    showRefusal refusal
    return (Ending.ofRefusal refusal).exitCode.toUInt32

end VersionAlignment.CommandLine

def main (words : List String) : IO UInt32 := VersionAlignment.CommandLine.runOnSystem words
