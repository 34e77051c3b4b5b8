import EntityConventions.Decimal.Digits
import EntityConventions.Json.Basic

/-! # Reading JSON texts

`Json.parse` reads a whole text as one value, with nothing but blanks around it.  The grammar is
the strict one: no comments, no commas at the end, no control characters inside strings, no
leading zeros.  Nesting is not bounded here.

Each reader takes the characters ahead and returns what it read together with the characters
behind it.  Values contain values, so `Reader.value` takes a bound on the number of nested calls;
`Json.parse` supplies one that no text of that length can exceed. -/

namespace EntityConventions.Json

namespace Reader

open Decimal

/-- The four characters that may stand between tokens. -/
def isSpace (c : Char) : Bool :=
  c == ' ' || c == '\n' || c == '\r' || c == '\t'

/-- The characters behind the blanks ahead. -/
def skipSpace (cs : List Char) : List Char :=
  cs.dropWhile isSpace

/-! ### Strings -/

/-- A piece of a string: a character, or one half of a surrogate pair. -/
inductive Piece where
  | char (c : Char)
  | half (code : Nat)

/-- The value of a hexadecimal digit, in upper or lower case. -/
def hexValue? (c : Char) : Option Nat :=
  if c.isDigit then some (c.toNat - '0'.toNat)
  else if 'a' ≤ c ∧ c ≤ 'f' then some (c.toNat - 'a'.toNat + 10)
  else if 'A' ≤ c ∧ c ≤ 'F' then some (c.toNat - 'A'.toNat + 10)
  else none

/-- The value of four hexadecimal digits. -/
def hexValue4? (a b c d : Char) : Option Nat := do
  let a ← hexValue? a
  let b ← hexValue? b
  let c ← hexValue? c
  let d ← hexValue? d
  return ((a * 16 + b) * 16 + c) * 16 + d

/-- The piece that a sixteen-bit unit stands for. -/
def Piece.ofUnit (n : Nat) : Piece :=
  if 0xD800 ≤ n ∧ n < 0xE000 then .half n else .char (Char.ofNat n)

/-- The character that a letter behind a backslash stands for. -/
def escaped? (c : Char) : Option Char :=
  if c = '"' then some '"'
  else if c = '\\' then some '\\'
  else if c = '/' then some '/'
  else if c = 'b' then some '\x08'
  else if c = 'f' then some '\x0c'
  else if c = 'n' then some '\n'
  else if c = 'r' then some '\r'
  else if c = 't' then some '\t'
  else none

/-- The pieces up to the closing quote. -/
def pieces : List Char → Option (List Piece × List Char)
  | [] => none
  | '"' :: rest => some ([], rest)
  | '\\' :: 'u' :: a :: b :: c :: d :: rest => do
      let unit ← hexValue4? a b c d
      let (ps, rest) ← pieces rest
      return (.ofUnit unit :: ps, rest)
  | '\\' :: c :: rest => do
      let c ← escaped? c
      let (ps, rest) ← pieces rest
      return (.char c :: ps, rest)
  | c :: rest => do
      if c = '\\' ∨ c.toNat < 0x20 then none
      else
        let (ps, rest) ← pieces rest
        return (.char c :: ps, rest)

/-- The characters of a string, the two halves of a surrogate pair put together; a half on its
own stands for no character. -/
def join : List Piece → Option (List Char)
  | [] => some []
  | .char c :: ps => (join ps).map (c :: ·)
  | .half h :: .half l :: ps =>
      if h < 0xDC00 ∧ 0xDC00 ≤ l then
        (join ps).map (Char.ofNat (0x10000 + (h - 0xD800) * 0x400 + (l - 0xDC00)) :: ·)
      else none
  | .half _ :: _ => none

/-- A string, read behind its opening quote. -/
def string (cs : List Char) : Option (Option String × List Char) := do
  let (ps, rest) ← pieces cs
  return ((join ps).map String.ofList, rest)

/-! ### Numbers -/

/-- The digits ahead, at least one. -/
def digits (cs : List Char) : Option (List Char × List Char) :=
  match cs.takeWhile Char.isDigit with
  | [] => none
  | ds => some (ds, cs.dropWhile Char.isDigit)

/-- The digits behind a point, if there is a point. -/
def fraction : List Char → Option (Option (List Char) × List Char)
  | '.' :: cs => do
      let (ds, rest) ← digits cs
      return (some ds, rest)
  | cs => some (none, cs)

/-- A sign ahead, and whether it is a minus. -/
def sign : List Char → Bool × List Char
  | '+' :: cs => (false, cs)
  | '-' :: cs => (true, cs)
  | cs => (false, cs)

/-- The exponent behind its mark, if there is a mark. -/
def exponent : List Char → Option (Option Int × List Char)
  | c :: cs => do
      if c = 'e' ∨ c = 'E' then
        let (negative, cs) := sign cs
        let (ds, rest) ← digits cs
        let n : Int := Digits.toNat ds
        return (some (if negative then -n else n), rest)
      else return (none, c :: cs)
  | [] => some (none, [])

/-- A number without its sign. -/
def unsigned (negative : Bool) (cs : List Char) : Option (Numeral × List Char) := do
  let (whole, rest) ← digits cs
  if whole.head? = some '0' ∧ whole.length ≠ 1 then none
  else
    let (frac, rest) ← fraction rest
    let (exp, rest) ← exponent rest
    match frac, exp with
    | none, none => return (.integer negative (Digits.toNat whole), rest)
    | frac, exp =>
        let frac := frac.getD []
        let coefficient := Digits.toNat (whole ++ frac)
        return (.decimal negative coefficient frac.length (exp.getD 0), rest)

/-- A number. -/
def number : List Char → Option (Numeral × List Char)
  | '-' :: cs => unsigned true cs
  | cs => unsigned false cs

/-! ### Values -/

mutual

/-- A value, with blanks before it. -/
def value : Nat → List Char → Option (Json × List Char)
  | 0, _ => none
  | fuel + 1, cs =>
      match skipSpace cs with
      | 'n' :: 'u' :: 'l' :: 'l' :: rest => some (.null, rest)
      | 't' :: 'r' :: 'u' :: 'e' :: rest => some (.bool true, rest)
      | 'f' :: 'a' :: 'l' :: 's' :: 'e' :: rest => some (.bool false, rest)
      | '"' :: rest => do
          let (text, rest) ← string rest
          return (.string text, rest)
      | '[' :: rest =>
          match skipSpace rest with
          | ']' :: rest => some (.array [], rest)
          | rest => do
              let (items, rest) ← elements fuel rest
              return (.array items, rest)
      | '\x7b' :: rest =>
          match skipSpace rest with
          | '\x7d' :: rest => some (.object [], rest)
          | rest => do
              let (members, rest) ← entries fuel rest
              return (.object members, rest)
      | rest => do
          let (n, rest) ← number rest
          return (.number n, rest)

/-- The elements of an array up to its closing bracket, at least one. -/
def elements : Nat → List Char → Option (List Json × List Char)
  | 0, _ => none
  | fuel + 1, cs => do
      let (item, rest) ← value fuel cs
      match skipSpace rest with
      | ',' :: rest =>
          let (items, rest) ← elements fuel rest
          return (item :: items, rest)
      | ']' :: rest => return ([item], rest)
      | _ => none

/-- The members of an object up to its closing brace, at least one. -/
def entries : Nat → List Char → Option (List (Option String × Json) × List Char)
  | 0, _ => none
  | fuel + 1, cs =>
      match skipSpace cs with
      | '"' :: rest => do
          let (name, rest) ← string rest
          match skipSpace rest with
          | ':' :: rest =>
              let (item, rest) ← value fuel rest
              match skipSpace rest with
              | ',' :: rest =>
                  let (members, rest) ← entries fuel rest
                  return ((name, item) :: members, rest)
              | '\x7d' :: rest => return ([(name, item)], rest)
              | _ => none
          | _ => none
      | _ => none

end

end Reader

/-- The value that a whole text spells, if it spells one. -/
def parse (text : String) : Option Json :=
  let cs := text.toList
  match Reader.value (2 * cs.length + 2) cs with
  | some (j, rest) => if Reader.skipSpace rest = [] then some j else none
  | none => none

end EntityConventions.Json
