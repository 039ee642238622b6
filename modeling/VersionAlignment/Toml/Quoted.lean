import VersionAlignment.Toml.Scalar

set_option autoImplicit false

namespace VersionAlignment.Toml

def isInline (c : Char) : Bool := c == '\t' || (0x20 ≤ c.toNat && c.toNat != 0x7F)

def isGap (c : Char) : Bool := c == ' ' || c == '\t'

def escapeOf? : Char → Option Char
  | 'b' => some '\x08'
  | 't' => some '\t'
  | 'n' => some '\n'
  | 'f' => some '\x0C'
  | 'r' => some '\r'
  | '"' => some '"'
  | '\\' => some '\\'
  | _ => none

def charOfCode? (code : Nat) : Option Char :=
  if code < 0xD800 ∨ (0xDFFF < code ∧ code < 0x110000) then some (Char.ofNat code) else none

inductive Pending
  | nothing
  | escape
  | code (digits value : Nat)
  | fold
  | folding
  deriving DecidableEq, Repr

abbrev Quoted := Option (List Char × List Char)

def Quoted.prepend (c : Char) (q : Quoted) : Quoted := q.map fun (cs, rest) => (c :: cs, rest)

def basicLine : Pending → List Char → Quoted
  | _, [] => none
  | .nothing, c :: cs =>
    if c = '"' then some ([], cs)
    else if c = '\\' then basicLine .escape cs
    else if isInline c then (basicLine .nothing cs).prepend c
    else none
  | .escape, c :: cs =>
    if c = 'u' then basicLine (.code 4 0) cs
    else if c = 'U' then basicLine (.code 8 0) cs
    else match escapeOf? c with
      | some e => (basicLine .nothing cs).prepend e
      | none => none
  | .code digits value, c :: cs =>
    if !isHexDigit c then none
    else
      let value := 16 * value + digitValue c
      if digits = 1 then
        match charOfCode? value with
        | some e => (basicLine .nothing cs).prepend e
        | none => none
      else basicLine (.code (digits - 1) value) cs
  | .fold, _ => none
  | .folding, _ => none

def foldsOn : List Char → Pending
  | c :: _ => if isGap c || c == '\n' || c == '\r' then .folding else .nothing
  | [] => .nothing

/-- Up to three double quotes. One or two more before them belong to the text. -/
def basicBlock : Pending → List Char → Quoted
  | _, [] => none
  | .nothing, '"' :: '"' :: '"' :: '"' :: '"' :: cs => some (['"', '"'], cs)
  | .nothing, '"' :: '"' :: '"' :: '"' :: cs => some (['"'], cs)
  | .nothing, '"' :: '"' :: '"' :: cs => some ([], cs)
  | .nothing, '\r' :: '\n' :: cs => (basicBlock .nothing cs).prepend '\n'
  | .nothing, c :: cs =>
    if c = '\\' then basicBlock .escape cs
    else if c = '\n' || isInline c then (basicBlock .nothing cs).prepend c
    else none
  | .escape, '\r' :: '\n' :: cs => basicBlock (foldsOn cs) cs
  | .escape, c :: cs =>
    if c = 'u' then basicBlock (.code 4 0) cs
    else if c = 'U' then basicBlock (.code 8 0) cs
    else if c = '\n' then basicBlock (foldsOn cs) cs
    else if isGap c then basicBlock .fold cs
    else match escapeOf? c with
      | some e => (basicBlock .nothing cs).prepend e
      | none => none
  | .code digits value, c :: cs =>
    if !isHexDigit c then none
    else
      let value := 16 * value + digitValue c
      if digits = 1 then
        match charOfCode? value with
        | some e => (basicBlock .nothing cs).prepend e
        | none => none
      else basicBlock (.code (digits - 1) value) cs
  | .fold, '\r' :: '\n' :: cs => basicBlock (foldsOn cs) cs
  | .fold, c :: cs =>
    if c = '\n' then basicBlock (foldsOn cs) cs
    else if isGap c then basicBlock .fold cs
    else none
  | .folding, '\r' :: '\n' :: cs => basicBlock (foldsOn cs) cs
  | .folding, c :: cs =>
    if c = '\r' then none else basicBlock (foldsOn cs) cs

def literalLine : List Char → Quoted
  | [] => none
  | c :: cs =>
    if c = '\'' then some ([], cs)
    else if isInline c then (literalLine cs).prepend c
    else none

def literalBlock : List Char → Quoted
  | [] => none
  | '\'' :: '\'' :: '\'' :: '\'' :: '\'' :: cs => some (['\'', '\''], cs)
  | '\'' :: '\'' :: '\'' :: '\'' :: cs => some (['\''], cs)
  | '\'' :: '\'' :: '\'' :: cs => some ([], cs)
  | '\r' :: '\n' :: cs => (literalBlock cs).prepend '\n'
  | c :: cs =>
    if c = '\n' || isInline c then (literalBlock cs).prepend c else none

def dropLineEnd : List Char → List Char
  | '\n' :: cs => cs
  | '\r' :: '\n' :: cs => cs
  | cs => cs

def quotedText : List Char → Quoted
  | '"' :: '"' :: '"' :: cs => basicBlock .nothing (dropLineEnd cs)
  | '"' :: cs => basicLine .nothing cs
  | '\'' :: '\'' :: '\'' :: cs => literalBlock (dropLineEnd cs)
  | '\'' :: cs => literalLine cs
  | _ => none

end VersionAlignment.Toml
