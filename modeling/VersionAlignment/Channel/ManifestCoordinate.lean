import VersionAlignment.Channel.Error
import VersionAlignment.Log

set_option autoImplicit false

namespace VersionAlignment

structure ManifestCoordinate where
  group : String
  artifact : String
  version : Option String := none
  deriving DecidableEq, Repr

namespace ManifestCoordinate

def isLead (c : Char) : Bool := c.isAlphanum || c == '_'

def isFollowing (c : Char) : Bool := isLead c || c == '.' || c == '+' || c == '-'

def hasDots : List Char → Bool
  | '.' :: '.' :: _ => true
  | _ :: cs => hasDots cs
  | [] => false

def isComponent (s : String) : Bool :=
  match s.toList with
  | [] => false
  | c :: cs => isLead c && cs.all isFollowing && !hasDots (c :: cs)

def checkComponents : List String → Except ChannelError Unit
  | [] => .ok ()
  | s :: rest => if isComponent s then checkComponents rest else .error (.component s)

def ofParts (group artifact version : Option String) :
    Except ChannelError (Option ManifestCoordinate) :=
  match group, artifact with
  | none, none => .ok none
  | some group, some artifact => do
    checkComponents (group :: artifact :: version.toList)
    return some ⟨group, artifact, version⟩
  | group, artifact => .error (.partialCoordinate group artifact)

def partsLog : (group artifact version : Option String) → Log
  | none, none, some version =>
    [⟨.warn, s!"Ignoring manifest version {version} given without a manifest coordinate"⟩]
  | _, _, _ => []

def text (c : ManifestCoordinate) : String :=
  c.group ++ ":" ++ c.artifact ++ (c.version.elim "" fun v => ":" ++ v)

end ManifestCoordinate

end VersionAlignment
