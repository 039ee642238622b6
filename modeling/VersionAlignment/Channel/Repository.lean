import VersionAlignment.Channel.ManifestCoordinate
import VersionAlignment.Disk.Basic
import VersionAlignment.Session

set_option autoImplicit false

namespace VersionAlignment

structure Repository where
  root : Path
  deriving DecidableEq, Repr

namespace Repository

def artifactDirectory (r : Repository) (group artifact : String) : Path :=
  ((Text.split '.' group).foldl Path.join r.root).join artifact

def manifestName (artifact version : String) : String := s!"{artifact}-{version}-manifest.toml"

def manifestPath (r : Repository) (group artifact version : String) : Path :=
  ((r.artifactDirectory group artifact).join version).join (manifestName artifact version)

def later (order : String → String → Ordering) (latest : Option String) (version : String) :
    Option String :=
  match latest with
  | some current => if (order current version).isGE then some current else some version
  | none => some version

def latestOf? (order : String → String → Ordering) (versions : List String) : Option String :=
  versions.foldl (later order) none

section

variable {m : Type → Type} [Monad m]

def latest? (r : Repository) (disk : Disk m) (order : String → String → Ordering)
    (group artifact : String) : Session ChannelError m (Option String) := do
  let directory := r.artifactDirectory group artifact
  if ← Session.perform (disk.isDirectory directory) then
    match ← Session.perform (disk.names directory) with
    | .error e => throw (.disk e)
    | .ok names =>
      -- A version without a manifest does not count.
      let published ← Session.perform <| names.filterM fun version =>
        disk.isFile (r.manifestPath group artifact version)
      return latestOf? order published
  else return none

def resolve (r : Repository) (disk : Disk m) (order : String → String → Ordering)
    (c : ManifestCoordinate) : Session ChannelError m Path := do
  let version ← match c.version with
    | some version => pure (some version)
    | none => r.latest? disk order c.group c.artifact
  let some version := version | throw (.notPublished c.text r.root)
  let path := r.manifestPath c.group c.artifact version
  if ← Session.perform (disk.isFile path) then return path
  else throw (.notPublished c.text r.root)

end

end Repository

end VersionAlignment
