import VersionAlignment.Disk.Error
import VersionAlignment.Project
import VersionAlignment.Toml.Inline

set_option autoImplicit false

namespace VersionAlignment

inductive ReadError
  | disk (error : DiskError)
  | malformed
  | coordinate (text : String)
  | exclusion (text : String)
  | duplicateModule (identity : String)
  | project (error : ProjectError)
  | planVersion (value : Toml.Value)
  | noPlanVersion
  deriving Repr

def ReadError.message : ReadError → String
  | .disk error => "IO error reading configuration toml: " ++ error.message
  | .malformed => "TOML parsing error: the document does not have the expected form"
  | .coordinate text => s!"Invalid coordinate `{text}`, expected `group:artifact:version`"
  | .exclusion text => s!"Invalid exclusion `{text}`, expected `group:artifact`"
  | .duplicateModule identity => s!"Duplicate module {identity} in project descriptor"
  | .project error => "Project error: " ++ error.message
  | .planVersion value => "Unsupported plan file version " ++ value.inlineText
  | .noPlanVersion => "Plan file has no version"

namespace Artifact

def ofText (s : String) : Except ReadError Artifact :=
  match ofText? s with
  | some a => .ok a
  | none => .error (.coordinate s)

end Artifact

namespace Exclusion

def ofText (s : String) : Except ReadError Exclusion :=
  match ofText? s with
  | some e => .ok e
  | none => .error (.exclusion s)

end Exclusion

end VersionAlignment
