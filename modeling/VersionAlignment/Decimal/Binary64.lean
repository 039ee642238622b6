set_option autoImplicit false

namespace VersionAlignment

inductive Binary64
  | finite (negative : Bool) (mantissa : Nat) (exponent : Int)
  | infinite (negative : Bool)
  | nan (negative : Bool)
  deriving DecidableEq, Repr

namespace Binary64

def powerOfTwo (exponent : Int) : Nat := Nat.pow 2 exponent.toNat

def powerOfTen (exponent : Int) : Nat := Nat.pow 10 exponent.toNat

def minExponent : Int := -1074

def maxExponent : Int := 971

def roundDiv (num den : Nat) : Nat :=
  let floor := num / den
  let rest := 2 * (num % den)
  if rest < den then floor
  else if den < rest then floor + 1
  else if floor % 2 = 0 then floor
  else floor + 1

def shift (num den : Nat) (exponent : Int) : Nat × Nat :=
  (num * powerOfTwo (-exponent), den * powerOfTwo exponent)

/-- The number nearest to `num / den`; a tie goes to the even mantissa. -/
def ofRatio (negative : Bool) (num den : Nat) : Binary64 :=
  -- The quotient has 53 or 54 bits at this exponent.
  let estimate : Int := (num.log2 : Int) - den.log2 - 53
  let (n, d) := shift num den estimate
  let exponent := max minExponent (if n / d < powerOfTwo 53 then estimate else estimate + 1)
  let (n, d) := shift num den exponent
  let mantissa := roundDiv n d
  -- Rounding up may need one bit more.
  let (mantissa, exponent) :=
    if mantissa = powerOfTwo 53 then (powerOfTwo 52, exponent + 1) else (mantissa, exponent)
  if exponent > maxExponent then .infinite negative else .finite negative mantissa exponent

def ofDecimal (negative : Bool) (digits : Nat) (exponent : Int) : Binary64 :=
  if digits = 0 then .finite negative 0 minExponent
  else
    let magnitude := exponent + (Nat.toDigits 10 digits).length
    -- Beyond 400 places the answer is clear, and the powers below would be huge.
    if magnitude > 400 then .infinite negative
    else if magnitude < -400 then .finite negative 0 minExponent
    else if exponent ≥ 0 then ofRatio negative (digits * powerOfTen exponent) 1
    else ofRatio negative digits (powerOfTen (-exponent))

def isZero : Binary64 → Bool
  | .finite _ mantissa _ => mantissa == 0
  | _ => false

end Binary64

end VersionAlignment
