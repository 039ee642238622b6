import VersionAlignment.Disk.Basic

set_option autoImplicit false

namespace VersionAlignment

inductive TreeNode
  | file (bytes : ByteArray)
  | directory

def TreeNode.kind : TreeNode → EntryKind
  | .file _ => .file
  | .directory => .directory

abbrev FileTree.Place := List String

inductive Location
  | found (place : FileTree.Place) (node : TreeNode)
  | free (place : FileTree.Place)

structure FileTree where
  entries : List (FileTree.Place × TreeNode) := []

namespace FileTree

def node? (tree : FileTree) (place : Place) : Option TreeNode :=
  if place.isEmpty then some .directory else tree.entries.lookup place

def hasDirectory (tree : FileTree) (place : Place) : Bool :=
  (tree.node? place).any (·.kind == .directory)

def put (tree : FileTree) (place : Place) (node : TreeNode) : FileTree :=
  ⟨(place, node) :: tree.entries.filter fun entry => entry.1 != place⟩

def makeDirectories (tree : FileTree) (place : Place) : FileTree :=
  (List.range place.length).foldl (fun tree count =>
    let above := place.take (count + 1)
    if (tree.node? above).isSome then tree else tree.put above .directory) tree

def remove (tree : FileTree) (place : Place) : FileTree :=
  ⟨tree.entries.filter fun entry => !place.isPrefixOf entry.1⟩

def maxNameSize : Nat := 255

def pathSizeLimit : Nat := 4096

def follow (tree : FileTree) (place : Place) : List String → Except DiskError Location
  | [] =>
    match tree.node? place with
    | some node => .ok (.found place node)
    | none => .error .notFound
  | piece :: rest =>
    -- Also idle pieces and the way up need a directory to start from.
    if !tree.hasDirectory place then .error .notDirectory
    else if Path.isIdle piece then follow tree place rest
    else if piece = ".." then follow tree place.dropLast rest
    else if maxNameSize < piece.utf8ByteSize then .error .nameTooLong
    else
      let next := place ++ [piece]
      if (tree.node? next).isSome then follow tree next rest
      -- Only the last name may be missing.
      else if rest.isEmpty then .ok (.free next)
      else .error .notFound

def locate (tree : FileTree) (current : Place) (p : Path) (pieces : List String) :
    Except DiskError Location :=
  if p.text = "" then .error .notFound
  else if p.text.toList.contains '\x00' then .error .nullCharacter
  else if pathSizeLimit ≤ p.text.utf8ByteSize then .error .nameTooLong
  else follow tree (if Path.startsAtRoot p.text then [] else current) pieces

def pieces (p : Path) : List String := Text.split '/' p.text

def kind (tree : FileTree) (current : Place) (p : Path) : Option EntryKind :=
  match locate tree current p (pieces p) with
  | .ok (.found _ node) => some node.kind
  | .ok (.free _) | .error _ => none

def read (tree : FileTree) (current : Place) (p : Path) : Except DiskError ByteArray :=
  match locate tree current p (pieces p) with
  | .ok (.found _ (.file bytes)) => .ok bytes
  | .ok (.found _ .directory) => .error .isDirectory
  | .ok (.free _) => .error .notFound
  | .error e => .error e

def namedPieces (p : Path) : List String := ((pieces p).reverse.dropWhile (· == "")).reverse

def placeToWrite (tree : FileTree) (current : Place) (p : Path) : Except DiskError Place :=
  match locate tree current p (namedPieces p) with
  | .ok (.found _ .directory) => .error .isDirectory
  | .ok (.found place (.file _)) | .ok (.free place) =>
    -- A separator at the end asks for a directory.
    if p.text.toList.getLast? = some '/' then .error .isDirectory else .ok place
  | .error e => .error e

def write (tree : FileTree) (current : Place) (p : Path) (text : String) :
    Except DiskError Unit × FileTree :=
  match placeToWrite tree current p with
  | .ok place => (.ok (), tree.put place (.file text.toUTF8))
  | .error e => (.error e, tree)

def nameIn? (directory : Place) (entry : Place × TreeNode) : Option String :=
  match entry.1.getLast? with
  | some name => if entry.1.dropLast = directory then some name else none
  | none => none

def names (tree : FileTree) (current : Place) (p : Path) : Except DiskError (List String) :=
  match locate tree current p (pieces p) with
  | .ok (.found place .directory) => .ok (tree.entries.filterMap (nameIn? place))
  | .ok (.found _ (.file _)) => .error .notDirectory
  | .ok (.free _) => .error .notFound
  | .error e => .error e

def disk (current : Place) : Disk (StateM FileTree) where
  kind p := return (← get).kind current p
  read p := return (← get).read current p
  write p text := modifyGet fun tree => tree.write current p text
  names p := return (← get).names current p

end FileTree

end VersionAlignment
