import VersionAlignment.Text.Blank
import VersionAlignment.Text.Lowercase
import VersionAlignment.Version.Item

set_option autoImplicit false

namespace VersionAlignment.Version

inductive Lexeme
  | dot
  | hyphen
  | digits (ds : List Char)
  | letters (cs : List Char)
  deriving DecidableEq, Repr

def Lexeme.attach (c : Char) (lexemes : List Lexeme) : List Lexeme :=
  if c = '.' then .dot :: lexemes
  else if c = '-' then .hyphen :: lexemes
  else if c.isDigit then
    match lexemes with
    | .digits ds :: rest => .digits (c :: ds) :: rest
    | _ => .digits [c] :: lexemes
  else
    match lexemes with
    | .letters cs :: rest => .letters (c :: cs) :: rest
    | _ => .letters [c] :: lexemes

def lex : List Char → List Lexeme
  | [] => []
  | c :: cs => Lexeme.attach c (lex cs)

def valueOfDigits (ds : List Char) : Nat :=
  ds.foldl (fun n d => 10 * n + (d.toNat - '0'.toNat)) 0

def Lexeme.isDigits : Lexeme → Bool
  | .digits _ => true
  | _ => false

/-- The item a lexeme stands for; a separator in place of an item stands for zero. -/
def Lexeme.item (beforeDigit : Bool) : Lexeme → Item
  | .digits ds => .number (valueOfDigits ds)
  | .letters cs =>
    let word := String.ofList cs
    .qualifier (if beforeDigit then .beforeDigit word else .ofWord word)
  | _ => .number 0

def itemsOf : List Lexeme → List Item
  | [] => []
  | .dot :: rest => .number 0 :: itemsOf rest
  | .hyphen :: rest => [.number 0, .list (normalize (itemsOf rest))]
  | [last] => [last.item false]
  | word :: .dot :: rest => word.item false :: itemsOf rest
  | word :: .hyphen :: rest => [word.item false, .list (normalize (itemsOf rest))]
  | word :: next :: rest =>
    [word.item next.isDigits, .list (normalize (itemsOf (next :: rest)))]

def parseChars (cs : List Char) : List Item :=
  normalize (itemsOf (lex (Text.lowerChars (Text.trimChars cs))))

/-- The items of a version. Case and blanks at the ends do not matter. -/
def parse (text : String) : List Item := parseChars text.toList

end VersionAlignment.Version
