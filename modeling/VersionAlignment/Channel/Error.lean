import VersionAlignment.Path
import VersionAlignment.ReadError
import VersionAlignment.Text.Quoted

set_option autoImplicit false

namespace VersionAlignment

inductive ChannelError
  | partialCoordinate (group artifact : Option String)
  | component (text : String)
  | noManifest (channel : Path)
  | notPublished (coordinate : String) (repository : Path)
  | unreadable (path : Path) (error : ReadError)
  | noHome
  | disk (error : DiskError)
  deriving Repr

namespace ChannelError

def optionText : Option String → String
  | none => "None"
  | some s => "Some(" ++ Text.quoted s ++ ")"

def message : ChannelError → String
  | partialCoordinate group artifact =>
    "A manifest coordinate needs both a group id and an artifact id, " ++
      s!"got group {optionText group} and artifact {optionText artifact}"
  | component text => s!"Invalid manifest coordinate component `{text}`"
  | noManifest channel => s!"Channel {channel.text} does not reference a manifest"
  | notPublished coordinate repository =>
    s!"Manifest {coordinate} not found in local repository {repository.text}"
  | unreadable path error => s!"Error while parsing {path.text}: {error.message}"
  | noHome => "Could not find home dir. Please define $HOME env variable."
  | disk error => s!"IO error: {error.message}"

end ChannelError

end VersionAlignment
