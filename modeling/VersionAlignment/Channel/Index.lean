import VersionAlignment.Coordinate
import VersionAlignment.Log

set_option autoImplicit false

namespace VersionAlignment

structure Stream where
  group : String
  artifact : String
  version : String
  deriving DecidableEq, Repr

def Stream.isWildcard (s : Stream) : Bool := s.artifact == "*"

structure Manifest where
  name : Option String := none
  streams : List Stream := []
  deriving DecidableEq, Repr

structure ChannelIndex where
  artifacts : List ((String × String) × String) := []
  groups : List (String × String) := []
  deriving DecidableEq, Repr

namespace ChannelIndex

section

variable {κ : Type} [BEq κ]

def bindNew (key : κ) (version : String) (entries : List (κ × String)) :
    List (κ × String) × String :=
  match entries.lookup key with
  | some kept => (entries, kept)
  | none => (entries ++ [(key, version)], version)

end

def add (index : ChannelIndex) (s : Stream) : ChannelIndex × String :=
  if s.isWildcard then
    let (groups, kept) := bindNew s.group s.version index.groups
    ({ index with groups }, kept)
  else
    let (artifacts, kept) := bindNew (s.group, s.artifact) s.version index.artifacts
    ({ index with artifacts }, kept)

def addAll (index : ChannelIndex) : List Stream → ChannelIndex
  | [] => index
  | s :: rest => (index.add s).1.addAll rest

def conflicts (index : ChannelIndex) : List Stream → Log
  | [] => []
  | s :: rest =>
    let (next, kept) := index.add s
    let later := next.conflicts rest
    if kept = s.version then later
    else
      ⟨.warn, s!"Stream {s.group}:{s.artifact} is defined more than once, keeping version {kept}"⟩
        :: later

def ofManifest (m : Manifest) : ChannelIndex := ({} : ChannelIndex).addAll m.streams

def log (m : Manifest) : Log := ({} : ChannelIndex).conflicts m.streams

/-- The channel's version of a coordinate. A stream of one artifact goes before a stream of its
whole group, and of several streams of the same name the first one counts. -/
def version? (index : ChannelIndex) (c : Coordinate) : Option String :=
  (index.artifacts.lookup (c.group, c.artifact)).or (index.groups.lookup c.group)

end ChannelIndex

end VersionAlignment
