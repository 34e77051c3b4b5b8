import EntityConventions.Decimal.Digits
import EntityConventions.Text.Quoted
import EntityConventions.Json.Basic

/-! # Writing JSON texts

`Json.compact` writes a value without any blanks; `Json.pretty` puts every element and every
member on a line of its own, indented by two blanks for each array and object around it.  Both
write members in their order, and both escape the quote, the backslash and the control
characters, and nothing else. -/

namespace EntityConventions.Json

namespace Printer

open Decimal Text

/-- One character of a string. -/
def escape (c : Char) : List Char :=
  if c = '"' then ['\\', '"']
  else if c = '\\' then ['\\', '\\']
  else if c = '\n' then ['\\', 'n']
  else if c = '\r' then ['\\', 'r']
  else if c = '\t' then ['\\', 't']
  else if c = '\x08' then ['\\', 'b']
  else if c = '\x0c' then ['\\', 'f']
  else if c.toNat < 0x20 then
    ['\\', 'u', '0', '0', Quoted.hexDigit (c.toNat / 16), Quoted.hexDigit (c.toNat % 16)]
  else [c]

/-- A string between quotes; where there is no text, one half of a surrogate pair. -/
def string : Option String → List Char
  | some text => '"' :: text.toList.flatMap escape ++ ['"']
  | none => "\"\\ud800\"".toList

/-- A number. -/
def number : Numeral → List Char
  | .integer negative n => (if negative then ['-'] else []) ++ Digits.ofNat n
  | .decimal negative c p e =>
      let (whole, fraction) := Numeral.digits c p
      (if negative then ['-'] else []) ++ whole ++
        (if p = 0 then [] else '.' :: fraction) ++ 'e' :: Digits.ofInt e

mutual

/-- A value without blanks. -/
def flat : Json → List Char
  | .null => "null".toList
  | .bool true => "true".toList
  | .bool false => "false".toList
  | .number n => number n
  | .string t => string t
  | .array items => '[' :: flatItems items ++ [']']
  | .object members => '\x7b' :: flatMembers members ++ ['\x7d']

/-- Elements with commas between them. -/
def flatItems : List Json → List Char
  | [] => []
  | [j] => flat j
  | j :: k :: js => flat j ++ ',' :: flatItems (k :: js)

/-- Members with commas between them. -/
def flatMembers : List (Option String × Json) → List Char
  | [] => []
  | [(name, j)] => string name ++ ':' :: flat j
  | (name, j) :: m :: ms => string name ++ ':' :: flat j ++ ',' :: flatMembers (m :: ms)

end

/-- A new line with `level` steps of indentation. -/
def newline (level : Nat) : List Char :=
  '\n' :: List.replicate (2 * level) ' '

mutual

/-- A value at the given level of indentation. -/
def tall (level : Nat) : Json → List Char
  | .null => "null".toList
  | .bool true => "true".toList
  | .bool false => "false".toList
  | .number n => number n
  | .string t => string t
  | .array [] => "[]".toList
  | .array (j :: js) => '[' :: tallItems (level + 1) (j :: js) ++ newline level ++ [']']
  | .object [] => ['\x7b', '\x7d']
  | .object (m :: ms) =>
      '\x7b' :: tallMembers (level + 1) (m :: ms) ++ newline level ++ ['\x7d']

/-- Elements, each on a line of its own. -/
def tallItems (level : Nat) : List Json → List Char
  | [] => []
  | [j] => newline level ++ tall level j
  | j :: k :: js => newline level ++ tall level j ++ ',' :: tallItems level (k :: js)

/-- Members, each on a line of its own. -/
def tallMembers (level : Nat) : List (Option String × Json) → List Char
  | [] => []
  | [(name, j)] => newline level ++ string name ++ ':' :: ' ' :: tall level j
  | (name, j) :: m :: ms =>
      newline level ++ string name ++ ':' :: ' ' :: tall level j ++
        ',' :: tallMembers level (m :: ms)

end

end Printer

/-- The text of a value without blanks. -/
def compact (j : Json) : String :=
  String.ofList (Printer.flat j)

/-- The text of a value on lines of its own. -/
def pretty (j : Json) : String :=
  String.ofList (Printer.tall 0 j)

end EntityConventions.Json
