/-! # Decimal digits

`Digits.ofNat` writes a number in base ten without leading zeros, and `Digits.toNat` reads a run
of digits; `Digits.ofInt` puts a minus in front of a negative number.  `Digits.padded` fills up
with zeros on the left. -/

namespace EntityConventions.Decimal.Digits

/-- The digit of a value below ten. -/
def digitChar (n : Nat) : Char :=
  Char.ofNat ('0'.toNat + n)

/-- The value of a digit. -/
def digitValue (c : Char) : Nat :=
  c.toNat - '0'.toNat

/-- The digits of a number, without leading zeros. -/
def ofNat (n : Nat) : List Char :=
  if n < 10 then [digitChar n] else ofNat (n / 10) ++ [digitChar (n % 10)]

/-- The number that a run of digits denotes; the empty run denotes zero. -/
def toNat (cs : List Char) : Nat :=
  cs.foldl (fun n c => 10 * n + digitValue c) 0

/-- The digits of an integer, a minus in front of a negative one. -/
def ofInt : Int → List Char
  | .ofNat n => ofNat n
  | .negSucc n => '-' :: ofNat (n + 1)

/-- The digits of a number, filled up with zeros to at least `width` digits. -/
def padded (width n : Nat) : List Char :=
  List.replicate (width - (ofNat n).length) '0' ++ ofNat n

/-- The text of a number. -/
def natText (n : Nat) : String :=
  String.ofList (ofNat n)

end EntityConventions.Decimal.Digits
