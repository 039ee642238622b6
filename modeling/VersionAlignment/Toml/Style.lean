import VersionAlignment.Toml.Value

set_option autoImplicit false

namespace VersionAlignment.Toml

inductive Style
  | basicLine
  | literalLine
  | basicBlock
  | literalBlock
  deriving DecidableEq, Repr

def needsEscape (c : Char) : Bool :=
  c != '\t' && c != '\n' && (c.toNat < 0x20 || c.toNat == 0x7F)

def longestRun (c : Char) (run : Nat) : List Char → Nat
  | [] => run
  | d :: cs => if d = c then longestRun c (run + 1) cs else max run (longestRun c 0 cs)

def Style.shows (cs : List Char) : Style → Bool
  | .basicLine =>
    !cs.any needsEscape && !cs.contains '\n' && !cs.contains '\\' && !cs.contains '"'
  | .literalLine => !cs.any needsEscape && !cs.contains '\n' && !cs.contains '\''
  | .basicBlock => !cs.any needsEscape && !cs.contains '\\' && longestRun '"' 0 cs ≤ 2
  | .literalBlock => !cs.any needsEscape && longestRun '\'' 0 cs ≤ 2

def Style.choose (cs : List Char) : Style :=
  (([.basicLine, .literalLine, .basicBlock, .literalBlock] : List Style).find? (·.shows cs)).getD
    (if cs.contains '\n' then .basicBlock else .basicLine)

def hexDigit (n : Nat) : Char :=
  if n < 10 then Char.ofNat ('0'.toNat + n) else Char.ofNat ('A'.toNat + (n - 10))

def escaped (block : Bool) (c : Char) : List Char :=
  match c with
  | '\x08' => ['\\', 'b']
  | '\t' => ['\\', 't']
  | '\n' => if block then ['\n'] else ['\\', 'n']
  | '\x0C' => ['\\', 'f']
  | '\r' => ['\\', 'r']
  | '\\' => ['\\', '\\']
  | c =>
    if needsEscape c then ['\\', 'u', '0', '0', hexDigit (c.toNat / 16), hexDigit (c.toNat % 16)]
    else [c]

/-- Text between double quotes. In a block every third quote of a run is escaped, `run` of which
have been written right before; on a line every quote is. -/
def escapedText (block : Bool) (run : Nat) : List Char → List Char
  | [] => []
  | c :: cs =>
    if c = '"' then
      -- Three quotes in a row would end a block.
      if block && run < 2 then '"' :: escapedText block (run + 1) cs
      else '\\' :: '"' :: escapedText block 0 cs
    else escaped block c ++ escapedText block 0 cs

def blockStart (cs : List Char) : List Char := if cs.contains '\n' then ['\n'] else []

def Style.write (cs : List Char) : Style → List Char
  | .basicLine => '"' :: escapedText false 0 cs ++ ['"']
  | .literalLine => '\'' :: cs ++ ['\'']
  | .basicBlock =>
    ['"', '"', '"'] ++ blockStart cs ++ escapedText true 0 cs ++ ['"', '"', '"']
  | .literalBlock => ['\'', '\'', '\''] ++ blockStart cs ++ cs ++ ['\'', '\'', '\'']

def quotedChars (cs : List Char) : List Char := (Style.choose cs).write cs

def quotedValue (s : String) : String := String.ofList (quotedChars s.toList)

end VersionAlignment.Toml
