import EntityConventions.Decimal.Digits
import EntityConventions.Decimal.Binary64

/-! # The shortest decimal of a floating-point number

Every real close enough to a `Binary64` rounds to it.  `Shortest.decimal` finds the decimal with
the fewest digits among those reals, and of two such decimals the nearer one, a tie going up.
`Shortest.text` lays it out: positionally for magnitudes from `1e-4` up to `1e16`, with at least
one digit behind the point, and with an exponent elsewhere. -/

namespace EntityConventions.Decimal.Shortest

/-- A positive rational number. -/
structure Ratio where
  num : Nat
  den : Nat

/-- `num * 2 ^ e`. -/
def Ratio.scaleTwo (num : Nat) (e : Int) : Ratio :=
  ⟨num * Nat.pow 2 e.toNat, Nat.pow 2 (-e).toNat⟩

/-- Whether `d * 10 ^ k` is below `r`. -/
def below (d : Nat) (k : Int) (r : Ratio) : Bool :=
  d * Nat.pow 10 k.toNat * r.den < r.num * Nat.pow 10 (-k).toNat

/-- Whether `d * 10 ^ k` is above `r`. -/
def above (d : Nat) (k : Int) (r : Ratio) : Bool :=
  r.num * Nat.pow 10 (-k).toNat < d * Nat.pow 10 k.toNat * r.den

/-- The reals that round to a number: the number itself, the two ends, and whether the ends
belong. -/
structure Interval where
  value : Ratio
  low : Ratio
  high : Ratio
  closed : Bool

/-- The reals that round to `mantissa * 2 ^ exponent`.  Below a power of two the numbers lie
twice as dense. -/
def Interval.around (mantissa : Nat) (exponent : Int) : Interval where
  value := Ratio.scaleTwo (4 * mantissa) (exponent - 2)
  low :=
    let isLeast := mantissa = Binary64.normalMantissa ∧ Binary64.minExponent < exponent
    let gap := if isLeast then 1 else 2
    Ratio.scaleTwo (4 * mantissa - gap) (exponent - 2)
  high := Ratio.scaleTwo (4 * mantissa + 2) (exponent - 2)
  closed := mantissa % 2 == 0

/-- Whether `d * 10 ^ k` rounds to the number. -/
def Interval.holds (i : Interval) (d : Nat) (k : Int) : Bool :=
  if i.closed then !below d k i.low && !above d k i.high
  else above d k i.low && below d k i.high

/-- The least `s` with `value < 10 ^ s`, searched upwards from `s`. -/
def magnitude (value : Ratio) : Nat → Int → Int
  | 0, s => s
  | fuel + 1, s => if above 1 s value then s else magnitude value fuel (s + 1)

/-- The hit on the grid of multiples of `10 ^ k`, if there is one: of the two neighbours of the
value the nearer, and the upper one in a tie. -/
def onGrid (i : Interval) (k : Int) : Option Nat :=
  let n := i.value.num * Nat.pow 10 (-k).toNat
  let d := i.value.den * Nat.pow 10 k.toNat
  let lower := n / d
  let upper := lower + 1
  match i.holds lower k, i.holds upper k with
  | true, true => some (if d ≤ 2 * (n % d) then upper else lower)
  | true, false => some lower
  | false, true => some upper
  | false, false => none

/-- The first hit on the grids with one, two, … digits. -/
def search (i : Interval) : Nat → Int → Nat × Int
  | 0, k => (((onGrid i k).getD 0), k)
  | fuel + 1, k =>
      match onGrid i k with
      | some d => (d, k)
      | none => search i fuel (k - 1)

/-- Move the zeros at the end of a coefficient into the exponent. -/
def dropZeros : Nat → Nat → Int → Nat × Int
  | 0, d, k => (d, k)
  | fuel + 1, d, k => if d % 10 = 0 then dropZeros fuel (d / 10) (k + 1) else (d, k)

/-- Coefficient and exponent of the shortest decimal of a positive number. -/
def decimal (mantissa : Nat) (exponent : Int) : Nat × Int :=
  let i := Interval.around mantissa exponent
  let s := magnitude i.value 700 (-330)
  let (d, k) := search i 16 (s - 1)
  dropZeros 20 d k

/-- Digits with the point after the first `place` of them; zeros fill the gaps on both sides,
and one digit at least stands behind the point. -/
def positional (digits : List Char) (place : Int) : List Char :=
  if place ≤ 0 then '0' :: '.' :: (List.replicate (-place).toNat '0' ++ digits)
  else
    let whole := digits.take place.toNat
    let rest := digits.drop place.toNat
    whole ++ List.replicate (place.toNat - whole.length) '0' ++ '.' ::
      (if rest.isEmpty then ['0'] else rest)

/-- Digits with the point after the first of them and an exponent. -/
def scientific (digits : List Char) (place : Int) : List Char :=
  let mark := 'e' :: Digits.ofInt (place - 1)
  match digits with
  | [] => mark
  | [d] => d :: mark
  | d :: rest => d :: '.' :: rest ++ mark

/-- The text of a floating-point number. -/
def text : Binary64 → String
  | .nan => "NaN"
  | .infinite negative => if negative then "-inf" else "inf"
  | .finite negative 0 _ => if negative then "-0.0" else "0.0"
  | .finite negative mantissa exponent =>
      let (d, k) := decimal mantissa exponent
      let digits := Digits.ofNat d
      let place := k + digits.length
      let body :=
        if -3 ≤ place ∧ place ≤ 16 then positional digits place else scientific digits place
      String.ofList (if negative then '-' :: body else body)

end EntityConventions.Decimal.Shortest
