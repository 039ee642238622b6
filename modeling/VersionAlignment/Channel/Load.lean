import VersionAlignment.Channel.Read
import VersionAlignment.Channel.Repository
import VersionAlignment.Disk.Document

set_option autoImplicit false

namespace VersionAlignment

structure Library (m : Type → Type) where
  disk : Disk m
  repository : Repository
  order : String → String → Ordering

namespace Library

variable {m : Type → Type} [Monad m]

def resolve (l : Library m) (c : ManifestCoordinate) : Session ChannelError m Path :=
  l.repository.resolve l.disk l.order c

def manifestPath (l : Library m) (channelFile : Path) : Session ChannelError m Path := do
  match ← Session.perform (l.disk.load channelFile Channel.ofText) with
  | .error e => throw (.unreadable channelFile e)
  | .ok channel =>
    let reference := channel.manifest
    let coordinate ← Session.ofExcept
      (ManifestCoordinate.ofParts reference.group reference.artifact reference.version)
    Session.logAll
      (ManifestCoordinate.partsLog reference.group reference.artifact reference.version)
    -- The coordinate is checked even where a path goes before it.
    match reference.path, coordinate with
    | some path, coordinate =>
      if let some coordinate := coordinate then
        Session.log .warn
          s!"Channel sets both a manifest path and {coordinate.text}, using the path"
      return channelFile.parent.join path
    | none, some coordinate => l.resolve coordinate
    | none, none => throw (.noManifest channelFile)

def loadManifest (l : Library m) (channelFile : Path) (wanted : Option ManifestCoordinate) :
    Session ChannelError m Manifest := do
  -- The channel file is not read at all where another manifest is wanted.
  let path ← match wanted with
    | some coordinate => do
      Session.log .info s!"Using manifest {coordinate.text} instead of the channel's own"
      l.resolve coordinate
    | none => l.manifestPath channelFile
  Session.log .info s!"Loading manifest from {path.text}"
  Session.adapt (.unreadable path) (l.disk.loadLogged path Manifest.ofText "read manifest")

end Library

end VersionAlignment
