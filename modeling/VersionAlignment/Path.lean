import VersionAlignment.Text.Split

set_option autoImplicit false

namespace VersionAlignment

structure Path where
  text : String
  deriving DecidableEq, Repr

namespace Path

def startsAtRoot (text : String) : Bool := text.toList.head? == some '/'

def separator (base : Path) : String :=
  match base.text.toList.getLast? with
  | none | some '/' => ""
  | some _ => "/"

/-- A path below a path. One that starts at the root replaces it, and an empty one adds at most a
separator. -/
def join (base : Path) (text : String) : Path :=
  if startsAtRoot text then ⟨text⟩ else ⟨base.text ++ base.separator ++ text⟩

def isIdle (piece : String) : Bool := piece == "" || piece == "."

inductive Component
  | root
  | here
  | up
  | name (text : String)
  deriving DecidableEq, Repr

def component? (piece : String) : Option Component :=
  if isIdle piece then none
  else if piece == ".." then some .up
  else some (.name piece)

def startComponent? (piece : String) : Option Component :=
  if piece == "." then some .here else component? piece

def components (p : Path) : List Component :=
  if startsAtRoot p.text then .root :: (Text.split '/' p.text).filterMap component?
  else match Text.split '/' p.text with
    | [] => []
    | first :: rest => (startComponent? first).toList ++ rest.filterMap component?

def parent (p : Path) : Path :=
  match Text.split '/' p.text with
  | [] => ⟨""⟩
  | first :: rest =>
    match rest.reverse.dropWhile isIdle with
    | [] => ⟨""⟩
    | _ :: before =>
      match (before.dropWhile isIdle).reverse with
      -- What is left is the root, or the first name.
      | [] => ⟨if first == "" then "/" else first⟩
      | kept => ⟨Text.joinWith "/" (first :: kept)⟩

def addExtension? (p : Path) (extension : String) : Option Path :=
  match p.components.getLast? with
  | some (.name last) =>
    some (p.parent.join (last ++ "." ++ extension))
  | _ => none

end Path

end VersionAlignment
