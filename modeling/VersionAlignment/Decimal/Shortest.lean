import VersionAlignment.Decimal.Binary64

set_option autoImplicit false

namespace VersionAlignment

namespace Binary64

structure Decimal where
  digits : Nat
  exponent : Int
  deriving DecidableEq, Repr

def compareScaled (a : Nat) (p : Int) (b : Nat) (q : Int) : Ordering :=
  compare (a * powerOfTen p * powerOfTwo (-q)) (b * powerOfTwo q * powerOfTen (-p))

/-- Whether a decimal rounds to `mantissa * 2 ^ exponent`. The bounds of the rounding interval
belong to it exactly if the mantissa is even; below a power of two it is half as wide. -/
def roundsTo (mantissa : Nat) (exponent : Int) (d : Decimal) : Bool :=
  let narrow := mantissa == powerOfTwo 52 && exponent > minExponent
  let low := 4 * mantissa - (if narrow then 1 else 2)
  let high := 4 * mantissa + 2
  let inside (o : Ordering) (strict : Ordering) : Bool :=
    o == strict || (o == .eq && mantissa % 2 == 0)
  inside (compareScaled d.digits d.exponent low (exponent - 2)) .gt &&
    inside (compareScaled d.digits d.exponent high (exponent - 2)) .lt

def magnitude (mantissa : Nat) (exponent : Int) : Int :=
  if exponent ≥ 0 then (Nat.toDigits 10 (mantissa * powerOfTwo exponent)).length
  else (Nat.toDigits 10 (mantissa * powerOfTen 400 / powerOfTwo (-exponent))).length - (400 : Int)

def neighbours (mantissa : Nat) (exponent place : Int) : Decimal × Decimal :=
  let num := mantissa * powerOfTwo exponent * powerOfTen (-place)
  let den := powerOfTwo (-exponent) * powerOfTen place
  (⟨num / den, place⟩, ⟨num / den + 1, place⟩)

def lowerIsNearer (mantissa : Nat) (exponent : Int) (low : Decimal) : Bool :=
  compareScaled (2 * low.digits + 1) low.exponent (2 * mantissa) exponent == .gt

def shortestFrom (mantissa : Nat) (exponent size : Int) : Nat → Int → Decimal
  | 0, length => (neighbours mantissa exponent (size - length)).1
  | tries + 1, length =>
    let (low, high) := neighbours mantissa exponent (size - length)
    match roundsTo mantissa exponent low, roundsTo mantissa exponent high with
    | true, true => if lowerIsNearer mantissa exponent low then low else high
    | true, false => low
    | false, true => high
    | false, false => shortestFrom mantissa exponent size tries (length + 1)

/-- The shortest decimal that reads back as the number, and of these the nearest one, the larger of
two that are equally near. -/
def shortest (mantissa : Nat) (exponent : Int) : Decimal :=
  shortestFrom mantissa exponent (magnitude mantissa exponent) 17 1

def Decimal.positional (d : Decimal) : String :=
  let ds := Nat.toDigits 10 d.digits
  if d.exponent ≥ 0 then String.ofList (ds ++ List.replicate d.exponent.toNat '0')
  else
    let places := (-d.exponent).toNat
    let padded := List.replicate (places + 1 - ds.length) '0' ++ ds
    let whole := padded.take (padded.length - places)
    let fraction := (padded.drop (padded.length - places)).reverse.dropWhile (· == '0')
    String.ofList (if fraction.isEmpty then whole else whole ++ '.' :: fraction.reverse)

structure Style where
  nan : String
  negativeNan : String
  showsPoint : Bool

def text (style : Style) : Binary64 → String
  | .nan negative => if negative then style.negativeNan else style.nan
  | .infinite negative => if negative then "-inf" else "inf"
  | .finite negative mantissa exponent =>
    let magnitude := if mantissa = 0 then "0" else (shortest mantissa exponent).positional
    let ending := if style.showsPoint && !magnitude.toList.contains '.' then ".0" else ""
    (if negative then "-" else "") ++ magnitude ++ ending

end Binary64

end VersionAlignment
