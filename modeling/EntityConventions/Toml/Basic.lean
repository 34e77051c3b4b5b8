import EntityConventions.Decimal.Binary64
import EntityConventions.Decimal.Digits

/-! # TOML values

A `Toml` value is what a configuration text says under a key.  A `Datetime` has a date, a time
or both, and an offset only beside both; `Datetime.text` writes it with a `T` between date and
time and without zeros at the end of the fraction. -/

namespace EntityConventions

open Decimal

namespace Toml

/-- A day of a year. -/
structure Date where
  year : Nat
  month : Nat
  day : Nat
  deriving DecidableEq, Repr

/-- A time of day. -/
structure Time where
  hour : Nat
  minute : Nat
  second : Nat
  nanosecond : Nat
  deriving DecidableEq, Repr

/-- The distance from universal time. -/
inductive Offset where
  | utc
  | minutes (east : Int)
  deriving DecidableEq, Repr

/-- A date, a time, or both. -/
structure Datetime where
  date? : Option Date
  time? : Option Time
  offset? : Option Offset
  deriving DecidableEq, Repr

/-- Four digits, two and two. -/
def Date.chars (d : Date) : List Char :=
  Digits.padded 4 d.year ++ '-' :: Digits.padded 2 d.month ++ '-' :: Digits.padded 2 d.day

/-- Hours, minutes and seconds, and the fraction of a second unless it is zero. -/
def Time.chars (t : Time) : List Char :=
  let fraction := ((Digits.padded 9 t.nanosecond).reverse.dropWhile (· == '0')).reverse
  Digits.padded 2 t.hour ++ ':' :: Digits.padded 2 t.minute ++ ':' :: Digits.padded 2 t.second ++
    if fraction.isEmpty then [] else '.' :: fraction

/-- A letter for universal time, or sign, hours and minutes. -/
def Offset.chars : Offset → List Char
  | .utc => ['Z']
  | .minutes east =>
      (if east < 0 then '-' else '+') :: Digits.padded 2 (east.natAbs / 60) ++
        ':' :: Digits.padded 2 (east.natAbs % 60)

/-- The text of a date and time. -/
def Datetime.text (d : Datetime) : String :=
  let date := (d.date?.map Date.chars).getD []
  let time := (d.time?.map Time.chars).getD []
  let mark := if d.date?.isSome && d.time?.isSome then ['T'] else []
  String.ofList (date ++ mark ++ time ++ (d.offset?.map Offset.chars).getD [])

end Toml

/-- A TOML value.  The keys of a table are distinct. -/
inductive Toml where
  | string (text : String)
  | integer (value : Int)
  | float (value : Binary64)
  | bool (value : Bool)
  | datetime (value : Toml.Datetime)
  | array (items : List Toml)
  | table (entries : List (String × Toml))

end EntityConventions
