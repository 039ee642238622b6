import VersionAlignment.Decimal.Binary64

set_option autoImplicit false

namespace VersionAlignment.Toml

structure Date where
  year : Nat
  month : Nat
  day : Nat
  deriving DecidableEq, Repr

structure Time where
  hour : Nat
  minute : Nat
  second : Nat
  nanosecond : Nat
  deriving DecidableEq, Repr

inductive Offset
  | utc
  | minutes (count : Int)
  deriving DecidableEq, Repr

structure Moment where
  date : Option Date
  time : Option Time
  offset : Option Offset
  deriving DecidableEq, Repr

def padded (width n : Nat) : String :=
  let ds := Nat.toDigits 10 n
  String.ofList (List.replicate (width - ds.length) '0' ++ ds)

def Date.text (d : Date) : String :=
  padded 4 d.year ++ "-" ++ padded 2 d.month ++ "-" ++ padded 2 d.day

def Time.text (t : Time) : String :=
  let fraction := ((padded 9 t.nanosecond).toList.reverse.dropWhile (· == '0')).reverse
  padded 2 t.hour ++ ":" ++ padded 2 t.minute ++ ":" ++ padded 2 t.second ++
    (if fraction.isEmpty then "" else "." ++ String.ofList fraction)

def Offset.text : Offset → String
  | .utc => "Z"
  | .minutes count =>
    let size := count.natAbs
    (if count < 0 then "-" else "+") ++ padded 2 (size / 60) ++ ":" ++ padded 2 (size % 60)

def Moment.text (m : Moment) : String :=
  (m.date.map Date.text).getD "" ++ (if m.date.isSome && m.time.isSome then "T" else "") ++
    (m.time.map Time.text).getD "" ++ (m.offset.map Offset.text).getD ""

inductive Value
  | string (text : String)
  | integer (value : Int)
  | float (value : Binary64)
  | boolean (value : Bool)
  | moment (value : Moment)
  | array (values : List Value)
  | table (entries : List (String × Value))
  deriving Repr

abbrev Table := List (String × Value)

end VersionAlignment.Toml
