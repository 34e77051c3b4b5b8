import EntityConventions.Decimal.Binary64
import EntityConventions.Decimal.Digits

/-! # Numbers in JSON texts

A `Numeral` keeps a number as it is written.  It is an integer if it has neither fraction nor
exponent, and otherwise a decimal that remembers how many of its digits stand behind the point.

A reader that has no use for a number still refuses one that is too large, and
`Numeral.overflows` says which those are.  The test is made on an approximation,
`Numeral.approximate`: digits count only while they fit into a word of sixty-four bits, the word
and the power of ten are rounded each on its own, and their product is rounded once more. -/

namespace EntityConventions

open Decimal

/-- A number as it is written; `decimal s c p e` has the digits of `c`, the last `p` of them
behind the point, and the exponent `e`. -/
inductive Numeral where
  | integer (negative : Bool) (magnitude : Nat)
  | decimal (negative : Bool) (coefficient places : Nat) (exponent : Int)
  deriving DecidableEq, Repr

namespace Numeral

/-- The integer that a numeral denotes; a negative zero denotes none. -/
def int? : Numeral → Option Int
  | .integer false n => some n
  | .integer true 0 => none
  | .integer true n => some (-(n : Int))
  | .decimal .. => none

/-- The digits of a decimal before the point and those behind it. -/
def digits (coefficient places : Nat) : List Char × List Char :=
  let scale := Nat.pow 10 places
  (Digits.ofNat (coefficient / scale),
    if places = 0 then [] else Digits.padded places (coefficient % scale))

/-- Append digits to a number until one of them no longer fits into a word: the number, and how
many digits it took. -/
def appendDigits (n : Nat) : List Char → Nat × Nat
  | [] => (n, 0)
  | d :: ds =>
      let more := 10 * n + Digits.digitValue d
      if more < 18446744073709551616 then
        let (n, taken) := appendDigits more ds
        (n, taken + 1)
      else (n, 0)

/-- The word of the digits that count, and the power of ten that belongs to it.  A digit before
the point that does not fit is a factor of ten; one behind the point is lost. -/
def approximate (coefficient places : Nat) (exponent : Int) : Nat × Int :=
  let (whole, fraction) := digits coefficient places
  let (n, before) := appendDigits 0 whole
  let (n, behind) := appendDigits n fraction
  (n, exponent + (whole.length : Int) - before - behind)

/-- Whether the product of a word and a power of ten is too large for a floating-point number.
An exponent above that of every floating-point number decides it on its own. -/
def exceeds (word : Nat) (exponent : Int) : Bool :=
  if word = 0 ∨ exponent < 0 then false
  else if 308 < exponent then true
  else (Binary64.mul (.ofInt word) (.ofDecimal false 1 exponent)).isInfinite

/-- Whether a numeral denotes a number too large to represent. -/
def overflows : Numeral → Bool
  | .integer _ n =>
      let (word, exponent) := approximate n 0 0
      exceeds word exponent
  | .decimal _ c p e =>
      let (word, exponent) := approximate c p e
      exceeds word exponent

end Numeral

end EntityConventions
