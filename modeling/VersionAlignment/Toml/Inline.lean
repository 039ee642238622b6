import VersionAlignment.Decimal.Shortest
import VersionAlignment.Toml.Document
import VersionAlignment.Toml.Style

set_option autoImplicit false

namespace VersionAlignment.Toml

def keyText (key : String) : String :=
  let cs := key.toList
  if !cs.isEmpty && cs.all isBareKeyChar then key
  else if Style.literalLine.shows cs && !Style.basicLine.shows cs then
    String.ofList (Style.literalLine.write cs)
  else String.ofList (Style.basicLine.write cs)

def floatStyle : Binary64.Style := ⟨"nan", "-nan", true⟩

mutual

def Value.inlineText : Value → String
  | .string s => quotedValue s
  | .integer n => toString n
  | .float x => x.text floatStyle
  | .boolean b => if b then "true" else "false"
  | .moment m => m.text
  | .array values => "[" ++ ", ".intercalate (inlineTexts values) ++ "]"
  | .table [] => "\x7b\x7d"
  | .table entries => "\x7b " ++ ", ".intercalate (inlinePairs entries) ++ " \x7d"

def inlineTexts : List Value → List String
  | [] => []
  | v :: values => v.inlineText :: inlineTexts values

def inlinePairs : List (String × Value) → List String
  | [] => []
  | (key, value) :: entries => (keyText key ++ " = " ++ value.inlineText) :: inlinePairs entries

end

end VersionAlignment.Toml
