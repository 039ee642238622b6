import VersionAlignment.Toml.Node
import VersionAlignment.Toml.Quoted

set_option autoImplicit false

namespace VersionAlignment.Toml

def nestingLimit : Nat := 80

def isBareKeyChar (c : Char) : Bool := c.isAlphanum || c == '_' || c == '-'

def skipGaps (cs : List Char) : List Char := cs.dropWhile isGap

def skipLines (comment : Bool) : List Char → List Char
  | [] => []
  | '\n' :: cs => skipLines false cs
  | '\r' :: '\n' :: cs => skipLines false cs
  | c :: cs =>
    if comment then
      if isInline c then skipLines true cs else c :: cs
    else if c = '#' then skipLines true cs
    else if isGap c then skipLines false cs
    else c :: cs

def lineEnd? (cs : List Char) : Option (List Char) :=
  let cs := skipGaps cs
  let cs := if cs.head? = some '#' then cs.dropWhile isInline else cs
  match cs with
  | [] => some []
  | '\n' :: cs => some cs
  | '\r' :: '\n' :: cs => some cs
  | _ => none

def text? (q : Quoted) : Option (String × List Char) :=
  q.map fun (cs, rest) => (String.ofList cs, rest)

def simpleKey? : List Char → Option (String × List Char)
  | '"' :: cs => text? (basicLine .nothing cs)
  | '\'' :: cs => text? (literalLine cs)
  | cs =>
    let (key, rest) := cs.span isBareKeyChar
    if key.isEmpty then none else some (String.ofList key, rest)

def key? : Nat → List Char → Option (List String × List Char)
  | 0, _ => none
  | parts + 1, cs =>
    match simpleKey? (skipGaps cs) with
    | none => none
    | some (key, rest) =>
      match skipGaps rest with
      | '.' :: rest => (key? parts rest).map fun (path, rest) => (key :: path, rest)
      | rest => some ([key], rest)

section

variable {α : Type}

def elements? (element : List Char → Option (α × List Char)) :
    Nat → List Char → Option (List α × List Char)
  | 0, _ => none
  | fuel + 1, cs =>
    match skipLines false cs with
    | ']' :: rest => some ([], rest)
    | cs =>
      match element cs with
      | none => none
      | some (a, rest) =>
        match skipLines false rest with
        | ',' :: rest => (elements? element fuel rest).map fun (as, rest) => (a :: as, rest)
        | ']' :: rest => some ([a], rest)
        | _ => none

def assignment? (element : List Char → Option (α × List Char)) (cs : List Char) :
    Option ((List String × α) × List Char) :=
  match key? (nestingLimit - 1) cs with
  | some (path, '=' :: rest) =>
    (element (skipGaps rest)).map fun (a, rest) => ((path, a), skipGaps rest)
  | _ => none

def pairs? (element : List Char → Option (α × List Char)) :
    Nat → List Char → Option (List (List String × α) × List Char)
  | 0, _ => none
  | fuel + 1, cs =>
    match assignment? element cs with
    | some (pair, ',' :: rest) =>
      (pairs? element fuel rest).map fun (pairs, rest) => (pair :: pairs, rest)
    | some (pair, '}' :: rest) => some ([pair], rest)
    | _ => none

end

def value? : Nat → List Char → Option (Value × List Char)
  | _, '"' :: cs => (text? (quotedText ('"' :: cs))).map fun (s, rest) => (.string s, rest)
  | _, '\'' :: cs => (text? (quotedText ('\'' :: cs))).map fun (s, rest) => (.string s, rest)
  | levels + 1, '[' :: cs =>
    (elements? (value? levels) (cs.length + 1) cs).map fun (values, rest) => (.array values, rest)
  | levels + 1, '{' :: cs =>
    match skipGaps cs with
    | '}' :: rest => some (.table [], rest)
    | cs =>
      match pairs? (value? levels) (cs.length + 1) cs with
      | none => none
      | some (pairs, rest) =>
        (Nodes.fill [] pairs).map fun nodes => (.table (tableOfNodes nodes), rest)
  | _, cs =>
    let (word, rest) := splitWord cs
    (valueOfWord? word).map fun value => (value, rest)

inductive Header
  | table (path : List String)
  | element (path : List String)
  deriving DecidableEq, Repr

inductive Statement
  | header (h : Header)
  | assign (path : List String) (value : Value)
  deriving Repr

def line? (cs : List Char) : Option (Option Statement × List Char) :=
  let finish (statement : Option Statement) (rest : List Char) :=
    (lineEnd? rest).map fun rest => (statement, rest)
  match skipGaps cs with
  | '[' :: '[' :: cs =>
    match key? (nestingLimit - 1) cs with
    | some (path, ']' :: ']' :: rest) => finish (some (.header (.element path))) rest
    | _ => none
  | '[' :: cs =>
    match key? (nestingLimit - 1) cs with
    | some (path, ']' :: rest) => finish (some (.header (.table path))) rest
    | _ => none
  | cs =>
    match lineEnd? cs with
    | some rest => some (none, rest)
    | none =>
      match assignment? (value? (nestingLimit - 1)) cs with
      | some ((path, value), rest) => finish (some (.assign path value)) rest
      | none => none

def statements? : Nat → List Char → Option (List Statement)
  | _, [] => some []
  | 0, _ => none
  | fuel + 1, cs =>
    match line? cs with
    | none => none
    | some (none, rest) => statements? fuel rest
    | some (some statement, rest) => (statements? fuel rest).map (statement :: ·)

structure Section where
  header : Header
  pairs : List (List String × Value)

def sections : List Statement → List (List String × Value) × List Section
  | [] => ([], [])
  | .assign path value :: rest =>
    let (pairs, later) := sections rest
    ((path, value) :: pairs, later)
  | .header h :: rest =>
    let (pairs, later) := sections rest
    ([], ⟨h, pairs⟩ :: later)

def addSection (nodes : Nodes) (s : Section) : Option Nodes :=
  match s.header with
  | .table path =>
    path.getLast?.bind fun key => nodes.within (Nodes.openTable key s.pairs) path.dropLast
  | .element path =>
    path.getLast?.bind fun key => nodes.within (Nodes.openElement key s.pairs) path.dropLast

def tableOfStatements? (statements : List Statement) : Option Table :=
  let (top, later) := sections statements
  ((Nodes.fill [] top).bind fun nodes => later.foldlM addSection nodes).map tableOfNodes

def dropByteOrderMark : List Char → List Char
  | '\uFEFF' :: cs => cs
  | cs => cs

def readChars? (cs : List Char) : Option Table :=
  let cs := dropByteOrderMark cs
  (statements? cs.length cs).bind tableOfStatements?

def read? (document : String) : Option Table := readChars? document.toList

end VersionAlignment.Toml
