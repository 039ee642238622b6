import VersionAlignment.Toml.Value

set_option autoImplicit false

namespace VersionAlignment.Toml

def ungroup (isDigit : Char → Bool) : List Char → Option (List Char)
  | [] => none
  | [c] => if isDigit c then some [c] else none
  | c :: '_' :: d :: rest =>
    if isDigit c then (ungroup isDigit (d :: rest)).map (c :: ·) else none
  | c :: rest => if isDigit c then (ungroup isDigit rest).map (c :: ·) else none

def digitValue (c : Char) : Nat :=
  if c.isDigit then c.toNat - '0'.toNat
  else if c.isUpper then c.toNat - 'A'.toNat + 10
  else c.toNat - 'a'.toNat + 10

def isHexDigit (c : Char) : Bool :=
  c.isDigit || ('a' ≤ c && c ≤ 'f') || ('A' ≤ c && c ≤ 'F')

def isOctalDigit (c : Char) : Bool := '0' ≤ c && c ≤ '7'

def isBinaryDigit (c : Char) : Bool := c == '0' || c == '1'

def natOfDigits (base : Nat) (ds : List Char) : Nat :=
  ds.foldl (fun n d => base * n + digitValue d) 0

def splitSign : List Char → Bool × List Char
  | '-' :: rest => (true, rest)
  | '+' :: rest => (false, rest)
  | cs => (false, cs)

def decimalDigits? (cs : List Char) : Option (List Char) :=
  match ungroup Char.isDigit cs with
  | some ('0' :: _ :: _) => none
  | digits => digits

def inRange (n : Int) : Option Int :=
  if Int64.minValue.toInt ≤ n ∧ n ≤ Int64.maxValue.toInt then some n else none

def integer? : List Char → Option Int
  | '0' :: 'x' :: cs => (ungroup isHexDigit cs).bind fun ds => inRange (natOfDigits 16 ds)
  | '0' :: 'o' :: cs => (ungroup isOctalDigit cs).bind fun ds => inRange (natOfDigits 8 ds)
  | '0' :: 'b' :: cs => (ungroup isBinaryDigit cs).bind fun ds => inRange (natOfDigits 2 ds)
  | cs =>
    let (negative, cs) := splitSign cs
    (decimalDigits? cs).bind fun ds =>
      let n : Int := natOfDigits 10 ds
      inRange (if negative then -n else n)

def exponent? : List Char → Option Int
  | [] => some 0
  | _ :: cs =>
    let (negative, cs) := splitSign cs
    (ungroup Char.isDigit cs).map fun ds =>
      let n : Int := natOfDigits 10 ds
      if negative then -n else n

def fraction? : List Char → Option (List Char)
  | [] => some []
  | _ :: cs => ungroup Char.isDigit cs

def float? (cs : List Char) : Option Binary64 :=
  let (negative, cs) := splitSign cs
  if cs = ['i', 'n', 'f'] then some (.infinite negative)
  else if cs = ['n', 'a', 'n'] then some (.nan negative)
  else
    let (significand, exponent) := cs.span (fun c => c != 'e' && c != 'E')
    let (whole, fraction) := significand.span (· != '.')
    if exponent.isEmpty && fraction.isEmpty then none
    else
      match decimalDigits? whole, fraction? fraction, exponent? exponent with
      | some whole, some fraction, some exponent =>
        let value := Binary64.ofDecimal negative (natOfDigits 10 (whole ++ fraction))
          (exponent - fraction.length)
        -- A number that is too large is refused, unless it is negative.
        if value = .infinite false then none else some value
      | _, _, _ => none

def twoDigits? (low high : Nat) (a b : Char) : Option Nat :=
  if a.isDigit && b.isDigit then
    let n := natOfDigits 10 [a, b]
    if low ≤ n && n ≤ high then some n else none
  else none

def daysOfMonth (year month : Nat) : Nat :=
  if month = 2 then
    if year % 4 = 0 ∧ (year % 100 ≠ 0 ∨ year % 400 = 0) then 29 else 28
  else if month = 4 ∨ month = 6 ∨ month = 9 ∨ month = 11 then 30
  else 31

def date? : List Char → Option (Date × List Char)
  | y₁ :: y₂ :: y₃ :: y₄ :: '-' :: m₁ :: m₂ :: '-' :: d₁ :: d₂ :: rest => do
    let year := [y₁, y₂, y₃, y₄]
    guard (year.all Char.isDigit)
    let year := natOfDigits 10 year
    let month ← twoDigits? 1 12 m₁ m₂
    let day ← twoDigits? 1 (daysOfMonth year month) d₁ d₂
    return (⟨year, month, day⟩, rest)
  | _ => none

def nanoseconds (digits : List Char) : Nat :=
  -- Further digits are dropped.
  natOfDigits 10 ((digits ++ List.replicate 9 '0').take 9)

def time? : List Char → Option (Time × List Char)
  | h₁ :: h₂ :: ':' :: m₁ :: m₂ :: ':' :: s₁ :: s₂ :: rest => do
    let hour ← twoDigits? 0 23 h₁ h₂
    let minute ← twoDigits? 0 59 m₁ m₂
    -- A leap second is allowed.
    let second ← twoDigits? 0 60 s₁ s₂
    match rest with
    | '.' :: rest =>
      let (digits, rest) := rest.span Char.isDigit
      guard !digits.isEmpty
      return (⟨hour, minute, second, nanoseconds digits⟩, rest)
    | _ => return (⟨hour, minute, second, 0⟩, rest)
  | _ => none

def offset? : List Char → Option (Option Offset)
  | [] => some none
  | ['Z'] => some (some .utc)
  | ['z'] => some (some .utc)
  | [sign, h₁, h₂, ':', m₁, m₂] => do
    guard (sign == '+' || sign == '-')
    let hour ← twoDigits? 0 23 h₁ h₂
    let minute ← twoDigits? 0 59 m₁ m₂
    let count : Int := hour * 60 + minute
    return some (.minutes (if sign = '-' then -count else count))
  | _ => none

def moment? (cs : List Char) : Option Moment :=
  match date? cs with
  | some (date, []) => some ⟨some date, none, none⟩
  | some (date, delimiter :: rest) => do
    guard (delimiter == 'T' || delimiter == 't' || delimiter == ' ')
    let (time, rest) ← time? rest
    let offset ← offset? rest
    return ⟨some date, some time, offset⟩
  | none =>
    match time? cs with
    | some (time, []) => some ⟨none, some time, none⟩
    | _ => none

def isWordChar (c : Char) : Bool :=
  c.isAlphanum || c == '+' || c == '-' || c == '_' || c == '.' || c == ':'

/-- The word at the front. A space between a date and a time belongs to it. -/
def splitWord (cs : List Char) : List Char × List Char :=
  let (word, rest) := cs.span isWordChar
  match date? word, rest with
  | some (_, []), ' ' :: c :: more =>
    if c.isDigit then
      let (time, rest) := (c :: more).span isWordChar
      (word ++ ' ' :: time, rest)
    else (word, rest)
  | _, _ => (word, rest)

def valueOfWord? (word : List Char) : Option Value :=
  if word = ['t', 'r', 'u', 'e'] then some (.boolean true)
  else if word = ['f', 'a', 'l', 's', 'e'] then some (.boolean false)
  -- A date is tried before numbers, as it starts with digits too.
  else ((moment? word).map .moment).or
    (((float? word).map .float).or ((integer? word).map .integer))

end VersionAlignment.Toml
