/-! # Numbers with fifty-three binary digits

A `Binary64` is a signed multiple of a power of two with at most fifty-three significant binary
digits, a signed infinity, or no number at all.  `Binary64.ofRatio` rounds a quotient to the
nearest such number, a tie to the even mantissa; `Binary64.ofDecimal` rounds a decimal, and
`Binary64.mul` the product of two such numbers.  All arithmetic in between is exact, on natural
numbers. -/

namespace EntityConventions.Decimal

/-- A floating-point number; `finite s m q` is `m * 2 ^ q`, negated if `s` holds. -/
inductive Binary64 where
  | finite (negative : Bool) (mantissa : Nat) (exponent : Int)
  | infinite (negative : Bool)
  | nan
  deriving DecidableEq, Repr

namespace Binary64

/-- The exponent of the least positive number. -/
def minExponent : Int := -1074

/-- The exponent of the largest numbers. -/
def maxExponent : Int := 971

/-- Zero, with its sign. -/
def zero (negative : Bool) : Binary64 :=
  .finite negative 0 minExponent

/-- The least mantissa of a number that is not subnormal. -/
def normalMantissa : Nat := 4503599627370496

/-- The quotient `num / (den * 2 ^ e)`, rounded to the nearest integer, a tie to the even one. -/
def roundAt (num den : Nat) (e : Int) : Nat :=
  let n := num * Nat.pow 2 (-e).toNat
  let d := den * Nat.pow 2 e.toNat
  let q := n / d
  let twice := 2 * (n % d)
  if d < twice ∨ (twice = d ∧ q % 2 = 1) then q + 1 else q

/-- The exponent at which the quotient has fifty-three binary digits, if that is not too low. -/
def exponentFor (num den : Nat) : Int :=
  let e := max ((num.log2 : Int) - den.log2 - 53) minExponent
  if 2 * normalMantissa ≤ num * Nat.pow 2 (-e).toNat / (den * Nat.pow 2 e.toNat) then e + 1 else e

/-- The number nearest to `num / den`, for positive `den`. -/
def ofRatio (negative : Bool) (num den : Nat) : Binary64 :=
  if num = 0 then zero negative
  else
    let e := exponentFor num den
    let m := roundAt num den e
    let (m, e) := if m = 2 * normalMantissa then (normalMantissa, e + 1) else (m, e)
    if maxExponent < e then .infinite negative else .finite negative m e

/-- The number nearest to `coefficient * 10 ^ exponent`.  Exponents that decide the outcome on
their own are caught before any power is formed. -/
def ofDecimal (negative : Bool) (coefficient : Nat) (exponent : Int) : Binary64 :=
  if coefficient = 0 then zero negative
  else if 400 < exponent then .infinite negative
  else if exponent + (coefficient.log2 : Int) / 3 < -400 then zero negative
  else ofRatio negative (coefficient * Nat.pow 10 exponent.toNat) (Nat.pow 10 (-exponent).toNat)

/-- The number nearest to an integer. -/
def ofInt (i : Int) : Binary64 :=
  ofRatio (decide (i < 0)) i.natAbs 1

/-- The number nearest to the product of two numbers. -/
def mul : Binary64 → Binary64 → Binary64
  | .finite s m e, .finite t n f =>
      ofRatio (s != t) (m * n * Nat.pow 2 (e + f).toNat) (Nat.pow 2 (-(e + f)).toNat)
  | .infinite s, .finite t n _ => if n = 0 then .nan else .infinite (s != t)
  | .finite s m _, .infinite t => if m = 0 then .nan else .infinite (s != t)
  | .infinite s, .infinite t => .infinite (s != t)
  | .nan, _ => .nan
  | _, .nan => .nan

/-- Whether a number is one of the two infinities. -/
def isInfinite : Binary64 → Bool
  | .infinite _ => true
  | _ => false

end Binary64

end EntityConventions.Decimal
