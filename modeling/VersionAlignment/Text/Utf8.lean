set_option autoImplicit false

namespace VersionAlignment.Text

def replacement : Char := '\uFFFD'

structure Unfinished where
  count : Nat
  low : Nat
  high : Nat
  bits : Nat

def announced? (b : Nat) : Option Unfinished :=
  if 0xC2 ≤ b ∧ b ≤ 0xDF then some ⟨1, 0x80, 0xBF, b - 0xC0⟩
  -- Narrower bounds keep out codes that fewer bytes could write, surrogates and what lies beyond
  -- the last code.
  else if b = 0xE0 then some ⟨2, 0xA0, 0xBF, 0⟩
  else if b = 0xED then some ⟨2, 0x80, 0x9F, 0xD⟩
  else if 0xE1 ≤ b ∧ b ≤ 0xEF then some ⟨2, 0x80, 0xBF, b - 0xE0⟩
  else if b = 0xF0 then some ⟨3, 0x90, 0xBF, 0⟩
  else if b = 0xF4 then some ⟨3, 0x80, 0x8F, 4⟩
  else if 0xF1 ≤ b ∧ b ≤ 0xF3 then some ⟨3, 0x80, 0xBF, b - 0xF0⟩
  else none

def startByte (b : Nat) : List Char × Option Unfinished :=
  if b < 0x80 then ([Char.ofNat b], none)
  else match announced? b with
    | some u => ([], some u)
    | none => ([replacement], none)

def nextByte (b : Nat) : Option Unfinished → List Char × Option Unfinished
  | none => startByte b
  | some u =>
    if u.low ≤ b ∧ b ≤ u.high then
      let bits := u.bits * 0x40 + (b - 0x80)
      if u.count ≤ 1 then ([Char.ofNat bits], none) else ([], some ⟨u.count - 1, 0x80, 0xBF, bits⟩)
    else
      -- The byte does not belong to the open character and starts anew.
      let (cs, next) := startByte b
      (replacement :: cs, next)

/-- The characters of the bytes that follow an open character. Each longest run of bytes that starts
a character and cannot go on becomes one replacement character. -/
def charsAfter : Option Unfinished → List UInt8 → List Char
  | none, [] => []
  | some _, [] => [replacement]
  | u, b :: bytes =>
    let (cs, next) := nextByte b.toNat u
    cs ++ charsAfter next bytes

def ofBytes (bytes : ByteArray) : String := String.ofList (charsAfter none bytes.data.toList)

end VersionAlignment.Text
