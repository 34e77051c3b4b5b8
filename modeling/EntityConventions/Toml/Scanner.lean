import EntityConventions.Json.Reader
import EntityConventions.Toml.Basic

/-! # The words of TOML texts

Readers of blanks, comments, strings, numbers and dates.  Each takes the characters ahead and
returns what it read together with the characters behind it; none decides what may follow.  Lines
end in a line feed, alone or behind a carriage return.  `Datetime.parse` reads a text that is a
date and time and nothing else. -/

namespace EntityConventions.Toml

namespace Scanner

open Decimal

/-! ### Blanks and comments -/

/-- The blanks within a line. -/
def isSpace (c : Char) : Bool :=
  c == ' ' || c == '\t'

/-- The characters behind the blanks ahead. -/
def skipSpace (cs : List Char) : List Char :=
  cs.dropWhile isSpace

/-- The characters that may stand in a comment. -/
def isCommentChar (c : Char) : Bool :=
  c == '\t' || (0x20 ≤ c.toNat && c.toNat != 0x7F)

/-- The characters behind the end of the line ahead. -/
def newline : List Char → Option (List Char)
  | '\n' :: rest => some rest
  | '\r' :: '\n' :: rest => some rest
  | _ => none

/-- The characters behind a comment, if one is ahead. -/
def skipComment : List Char → List Char
  | '#' :: rest => rest.dropWhile isCommentChar
  | cs => cs

/-- The rest of a line: blanks and a comment, up to the end of the line or of the text. -/
def endOfLine (cs : List Char) : Option (List Char) :=
  match skipComment (skipSpace cs) with
  | [] => some []
  | cs => newline cs

/-- The characters behind the blanks, ends of lines and comments ahead; `inside` a comment only
the end of the line ends it. -/
def skipTrivia (inside : Bool) : List Char → List Char
  | [] => []
  | '\n' :: rest => skipTrivia false rest
  | '\r' :: '\n' :: rest => skipTrivia false rest
  | c :: rest =>
      if inside then if isCommentChar c then skipTrivia true rest else c :: rest
      else if isSpace c then skipTrivia false rest
      else if c = '#' then skipTrivia true rest
      else c :: rest

/-! ### Strings -/

/-- The characters that may stand unescaped in any string. -/
def isStringChar (c : Char) : Bool :=
  c == '\t' || (0x20 ≤ c.toNat && c.toNat != 0x7F)

/-- The character that a letter behind a backslash stands for. -/
def escaped? (c : Char) : Option Char :=
  if c = 'b' then some '\x08'
  else if c = 't' then some '\t'
  else if c = 'n' then some '\n'
  else if c = 'f' then some '\x0c'
  else if c = 'r' then some '\r'
  else if c = '"' then some '"'
  else if c = '\\' then some '\\'
  else none

/-- The character with the code that some hexadecimal digits denote. -/
def ofHex? (digits : List Char) : Option Char := do
  let n ← digits.foldlM (fun n c => (Json.Reader.hexValue? c).map (16 * n + ·)) 0
  if n.isValidChar then some (Char.ofNat n) else none

/-- An escape sequence, read behind its backslash. -/
def escape : List Char → Option (Char × List Char)
  | 'u' :: a :: b :: c :: d :: rest => do
      let ch ← ofHex? [a, b, c, d]
      return (ch, rest)
  | 'U' :: a :: b :: c :: d :: e :: f :: g :: h :: rest => do
      let ch ← ofHex? [a, b, c, d, e, f, g, h]
      return (ch, rest)
  | c :: rest => do
      let ch ← escaped? c
      return (ch, rest)
  | [] => none

/-- A string with escapes on one line, read behind its opening quote. -/
def basic : Nat → List Char → Option (List Char × List Char)
  | 0, _ => none
  | _ + 1, [] => none
  | _ + 1, '"' :: rest => some ([], rest)
  | fuel + 1, '\\' :: rest => do
      let (c, rest) ← escape rest
      let (cs, rest) ← basic fuel rest
      return (c :: cs, rest)
  | fuel + 1, c :: rest => do
      if isStringChar c then
        let (cs, rest) ← basic fuel rest
        return (c :: cs, rest)
      else none

/-- A string without escapes on one line, read behind its opening quote. -/
def literal : List Char → Option (List Char × List Char)
  | [] => none
  | '\x27' :: rest => some ([], rest)
  | c :: rest => do
      if isStringChar c then
        let (cs, rest) ← literal rest
        return (c :: cs, rest)
      else none

/-- The characters behind a backslash at the end of a line, the next blanks and empty lines. -/
def continuation (cs : List Char) : Option (List Char) :=
  (newline (skipSpace cs)).map fun rest => skipLines rest
where
  /-- Skip blanks and ends of lines. -/
  skipLines : List Char → List Char
    | '\n' :: rest => skipLines rest
    | '\r' :: '\n' :: rest => skipLines rest
    | c :: rest => if isSpace c then skipLines rest else c :: rest
    | [] => []

/-- A string with escapes over several lines, read behind its opening quotes.  Up to two quotes
belong to the string when they stand before the closing ones. -/
def basicLines : Nat → List Char → Option (List Char × List Char)
  | 0, _ => none
  | _ + 1, '"' :: '"' :: '"' :: '"' :: '"' :: rest => some (['"', '"'], rest)
  | _ + 1, '"' :: '"' :: '"' :: '"' :: rest => some (['"'], rest)
  | _ + 1, '"' :: '"' :: '"' :: rest => some ([], rest)
  | fuel + 1, '\\' :: rest =>
      match continuation rest with
      | some rest => basicLines fuel rest
      | none => do
          let (c, rest) ← escape rest
          let (cs, rest) ← basicLines fuel rest
          return (c :: cs, rest)
  | fuel + 1, '\r' :: '\n' :: rest => do
      let (cs, rest) ← basicLines fuel rest
      return ('\n' :: cs, rest)
  | fuel + 1, c :: rest => do
      if isStringChar c || c == '\n' then
        let (cs, rest) ← basicLines fuel rest
        return (c :: cs, rest)
      else none
  | _ + 1, [] => none

/-- A string without escapes over several lines, read behind its opening quotes. -/
def literalLines : List Char → Option (List Char × List Char)
  | '\x27' :: '\x27' :: '\x27' :: '\x27' :: '\x27' :: rest => some (['\x27', '\x27'], rest)
  | '\x27' :: '\x27' :: '\x27' :: '\x27' :: rest => some (['\x27'], rest)
  | '\x27' :: '\x27' :: '\x27' :: rest => some ([], rest)
  | '\r' :: '\n' :: rest => do
      let (cs, rest) ← literalLines rest
      return ('\n' :: cs, rest)
  | c :: rest => do
      if isStringChar c || c == '\n' then
        let (cs, rest) ← literalLines rest
        return (c :: cs, rest)
      else none
  | [] => none

/-- The end of a line right behind the opening quotes does not belong to the string. -/
def dropFirstNewline (cs : List Char) : List Char :=
  (newline cs).getD cs

/-- A string of any of the four kinds. -/
def string : List Char → Option (String × List Char)
  | '"' :: '"' :: '"' :: rest => do
      let (cs, rest) ← basicLines (rest.length + 1) (dropFirstNewline rest)
      return (String.ofList cs, rest)
  | '\x27' :: '\x27' :: '\x27' :: rest => do
      let (cs, rest) ← literalLines (dropFirstNewline rest)
      return (String.ofList cs, rest)
  | '"' :: rest => do
      let (cs, rest) ← basic (rest.length + 1) rest
      return (String.ofList cs, rest)
  | '\x27' :: rest => do
      let (cs, rest) ← literal rest
      return (String.ofList cs, rest)
  | _ => none

/-! ### Keys -/

/-- The characters of a key without quotes. -/
def isKeyChar (c : Char) : Bool :=
  c.isAlphanum || c == '-' || c == '_'

/-- One part of a key. -/
def simpleKey : List Char → Option (String × List Char)
  | '"' :: rest => do
      let (cs, rest) ← basic (rest.length + 1) rest
      return (String.ofList cs, rest)
  | '\x27' :: rest => do
      let (cs, rest) ← literal rest
      return (String.ofList cs, rest)
  | cs =>
      match cs.takeWhile isKeyChar with
      | [] => none
      | name => some (String.ofList name, cs.dropWhile isKeyChar)

/-- The parts of a key, with points between them and blanks around each. -/
def keyParts : Nat → List Char → Option (List String × List Char)
  | 0, _ => none
  | fuel + 1, cs => do
      let (part, rest) ← simpleKey (skipSpace cs)
      match skipSpace rest with
      | '.' :: rest =>
          let (parts, rest) ← keyParts fuel rest
          return (part :: parts, rest)
      | rest => return ([part], rest)

/-- Keys have fewer parts than this, and arrays and tables nest less deep. -/
def limit : Nat := 80

/-- A key. -/
def key (cs : List Char) : Option (List String × List Char) := do
  let (parts, rest) ← keyParts (cs.length + 1) cs
  if parts.length < limit then return (parts, rest) else none

/-! ### Numbers -/

/-- Digits of a base, single underscores between them; the underscores are dropped. -/
def digitRun (isDigit : Char → Bool) : List Char → List Char × List Char
  | '_' :: c :: rest =>
      if isDigit c then
        let (ds, rest) := digitRun isDigit rest
        (c :: ds, rest)
      else ([], '_' :: c :: rest)
  | c :: rest =>
      if isDigit c then
        let (ds, rest) := digitRun isDigit rest
        (c :: ds, rest)
      else ([], c :: rest)
  | [] => ([], [])

/-- At least one digit of a base, then digits and single underscores. -/
def digits1 (isDigit : Char → Bool) : List Char → Option (List Char × List Char)
  | c :: rest =>
      if isDigit c then
        let (ds, rest) := digitRun isDigit rest
        some (c :: ds, rest)
      else none
  | [] => none

/-- A whole decimal number without its sign: a zero on its own, or no leading zero. -/
def whole : List Char → Option (List Char × List Char)
  | '0' :: rest => some (['0'], rest)
  | cs => digits1 Char.isDigit cs

/-- A sign ahead, and whether it is a minus. -/
def sign : List Char → Bool × List Char
  | '+' :: cs => (false, cs)
  | '-' :: cs => (true, cs)
  | cs => (false, cs)

/-- The fraction of a floating-point number. -/
def fraction : List Char → Option (List Char × List Char)
  | '.' :: cs => digits1 Char.isDigit cs
  | _ => none

/-- The exponent of a floating-point number. -/
def exponent : List Char → Option (Int × List Char)
  | c :: cs => do
      if c = 'e' ∨ c = 'E' then
        let (negative, cs) := sign cs
        let (ds, rest) ← digits1 Char.isDigit cs
        let n : Int := Digits.toNat ds
        return (if negative then -n else n, rest)
      else none
  | [] => none

/-- A floating-point number: with a fraction, an exponent or both.  It may be too small to
represent, or too large if it is negative, but not too large and positive. -/
def finiteFloat (cs : List Char) : Option (Binary64 × List Char) := do
  let (negative, cs) := sign cs
  let (ds, rest) ← whole cs
  let (frac, exp, rest) ←
    match fraction rest with
    | some (frac, rest) =>
        match exponent rest with
        | some (exp, rest) => some (frac, exp, rest)
        | none => some (frac, 0, rest)
    | none => (exponent rest).map fun (exp, rest) => ([], exp, rest)
  let value := Binary64.ofDecimal negative (Digits.toNat (ds ++ frac)) (exp - frac.length)
  if value = .infinite false then none else return (value, rest)

/-- An infinity or no number. -/
def specialFloat (cs : List Char) : Option (Binary64 × List Char) :=
  match sign cs with
  | (negative, 'i' :: 'n' :: 'f' :: rest) => some (.infinite negative, rest)
  | (_, 'n' :: 'a' :: 'n' :: rest) => some (.nan, rest)
  | _ => none

/-- Keep an integer of at most sixty-four bits. -/
def int64? (i : Int) : Option Int :=
  if -9223372036854775808 ≤ i ∧ i < 9223372036854775808 then some i else none

/-- Whether a character is a digit of a base up to sixteen. -/
def isDigitOf (base : Nat) (c : Char) : Bool :=
  match Json.Reader.hexValue? c with
  | some n => n < base
  | none => false

/-- The digits of a base, read behind its mark. -/
def inBase (base : Nat) (cs : List Char) : Option (Int × List Char) := do
  let (ds, rest) ← digits1 (isDigitOf base) cs
  let n := ds.foldl (fun n c => base * n + (Json.Reader.hexValue? c).getD 0) 0
  let i ← int64? n
  return (i, rest)

/-- An integer. -/
def integer : List Char → Option (Int × List Char)
  | '0' :: 'x' :: cs => inBase 16 cs
  | '0' :: 'o' :: cs => inBase 8 cs
  | '0' :: 'b' :: cs => inBase 2 cs
  | cs => do
      let (negative, cs) := sign cs
      let (ds, rest) ← whole cs
      let n : Int := Digits.toNat ds
      let i ← int64? (if negative then -n else n)
      return (i, rest)

/-! ### Dates and times -/

/-- A number of exactly `width` digits between two bounds. -/
def fixed (width low high : Nat) (cs : List Char) : Option (Nat × List Char) :=
  let ds := cs.take width
  if ds.length = width ∧ ds.all Char.isDigit then
    let n := Digits.toNat ds
    if low ≤ n ∧ n ≤ high then some (n, cs.drop width) else none
  else none

/-- The number of days in a month. -/
def daysIn (year month : Nat) : Nat :=
  if month = 2 then
    if year % 4 = 0 ∧ (year % 100 ≠ 0 ∨ year % 400 = 0) then 29 else 28
  else if month = 4 ∨ month = 6 ∨ month = 9 ∨ month = 11 then 30
  else 31

/-- One given character. -/
def expect (c : Char) : List Char → Option (List Char)
  | d :: rest => if d = c then some rest else none
  | [] => none

/-- A date. -/
def date (cs : List Char) : Option (Date × List Char) := do
  let (year, cs) ← fixed 4 0 9999 cs
  let cs ← expect '-' cs
  let (month, cs) ← fixed 2 1 12 cs
  let cs ← expect '-' cs
  let (day, cs) ← fixed 2 1 (daysIn year month) cs
  return (⟨year, month, day⟩, cs)

/-- The fraction of a second, cut off behind the ninth digit. -/
def nanoseconds : List Char → Option (Nat × List Char)
  | '.' :: cs =>
      match cs.takeWhile Char.isDigit with
      | [] => none
      | ds =>
          let kept := ds.take 9
          some (Digits.toNat kept * Nat.pow 10 (9 - kept.length), cs.dropWhile Char.isDigit)
  | cs => some (0, cs)

/-- A time of day; a second may be the sixtieth. -/
def time (cs : List Char) : Option (Time × List Char) := do
  let (hour, cs) ← fixed 2 0 23 cs
  let cs ← expect ':' cs
  let (minute, cs) ← fixed 2 0 59 cs
  let cs ← expect ':' cs
  let (second, cs) ← fixed 2 0 60 cs
  let (nanosecond, cs) ← nanoseconds cs
  return (⟨hour, minute, second, nanosecond⟩, cs)

/-- An offset. -/
def offset : List Char → Option (Offset × List Char)
  | 'Z' :: cs => some (.utc, cs)
  | 'z' :: cs => some (.utc, cs)
  | c :: cs => do
      if c = '+' ∨ c = '-' then
        let (hour, cs) ← fixed 2 0 23 cs
        let cs ← expect ':' cs
        let (minute, cs) ← fixed 2 0 59 cs
        let east : Int := hour * 60 + minute
        return (.minutes (if c = '-' then -east else east), cs)
      else none
  | [] => none

/-- The time behind a date, and perhaps an offset. -/
def timeBehindDate : List Char → Option (Time × Option Offset × List Char)
  | c :: cs => do
      if c = 'T' ∨ c = 't' ∨ c = ' ' then
        let (t, cs) ← time cs
        match offset cs with
        | some (o, cs) => return (t, some o, cs)
        | none => return (t, none, cs)
      else none
  | [] => none

/-- A date, a time or both. -/
def datetime (cs : List Char) : Option (Datetime × List Char) :=
  match date cs with
  | some (d, cs) =>
      match timeBehindDate cs with
      | some (t, o, cs) => some (⟨some d, some t, o⟩, cs)
      | none => some (⟨some d, none, none⟩, cs)
  | none => (time cs).map fun (t, cs) => (⟨none, some t, none⟩, cs)

end Scanner

/-- The date and time that a whole text spells. -/
def Datetime.parse (text : String) : Option Datetime :=
  match Scanner.datetime text.toList with
  | some (d, []) => some d
  | _ => none

end EntityConventions.Toml
