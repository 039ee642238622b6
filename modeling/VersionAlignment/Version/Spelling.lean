import VersionAlignment.Version.Parse

set_option autoImplicit false

namespace VersionAlignment.Version

def IsAscii (text : String) : Prop := ∀ c ∈ text.toList, c.toNat < 0x80

def StartsSolid (text : String) : Prop := ∀ c ∈ text.toList.head?, Text.isBlank c = false

def EndsSolid (text : String) : Prop := ∀ c ∈ text.toList.getLast?, Text.isBlank c = false

def StartsWith (test : Char → Bool) (text : String) : Prop :=
  ∃ c, text.toList.head? = some c ∧ test c = true

def EndsWith (test : Char → Bool) (text : String) : Prop :=
  ∃ c, text.toList.getLast? = some c ∧ test c = true

/-- Neither a digit nor a separator. Such characters in a row are one word. -/
def inWord (c : Char) : Bool := !(c.isDigit || c == '.' || c == '-')

def isLetter (c : Char) : Bool := inWord c && !Text.isBlank c

def Lexeme.IsWord (lexeme : Lexeme) : Prop := lexeme ≠ .dot ∧ lexeme ≠ .hyphen

theorem Lexeme.isWord_digits (ds : List Char) : (Lexeme.digits ds).IsWord :=
  ⟨by simp, by simp⟩

theorem Lexeme.isWord_letters (cs : List Char) : (Lexeme.letters cs).IsWord :=
  ⟨by simp, by simp⟩

def lastWord (text : String) : String :=
  String.ofList (text.toList.reverse.takeWhile inWord).reverse

def beforeLastWord (text : String) : String :=
  String.ofList (text.toList.reverse.dropWhile inWord).reverse

def writtenOut (word : String) : String :=
  match word with
  | "a" => "alpha"
  | "b" => "beta"
  | "m" => "milestone"
  | _ => word

def wordBefore (word rest : String) : String :=
  if rest.toList.head?.any Char.isDigit then writtenOut (Text.lowercase word)
  else Text.lowercase word

structure IsQualifier (word rest : String) : Prop where
  nonempty : word ≠ ""
  letters : ∀ c ∈ word.toList, c.isAlpha = true
  ascii : IsAscii rest
  solid : EndsSolid rest
  starts : ∀ c ∈ rest.toList.head?, c = '.' ∨ c = '-' ∨ c.isDigit = true

def earlyWords : List String := ["alpha", "beta", "milestone", "rc", "cr", "snapshot"]

def releaseWords : List String := ["ga", "final", "release"]

def IsNeutral (body : List Char) : Prop :=
  (body ≠ [] ∧ ∀ c ∈ body, c = '0') ∨
    String.ofList (body.map Char.toLower) ∈ releaseWords

def IsReleaseSuffix (suffix : String) : Prop :=
  ∃ separator body, separator ∈ ['.', '-'] ∧ IsNeutral body ∧
    suffix = String.ofList (separator :: body)

theorem Qualifier.beforeDigit_eq (word : String) :
    Qualifier.beforeDigit word = Qualifier.ofWord (writtenOut word) := by
  unfold Qualifier.beforeDigit writtenOut
  split
  · rfl
  · rfl
  · rfl
  · simp only

end VersionAlignment.Version
