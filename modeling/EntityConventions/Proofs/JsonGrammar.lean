import EntityConventions.Json.Reader
import EntityConventions.Proofs.Digits
import Mathlib.Tactic.IntervalCases

/-! # Texts of JSON values

`Json.Written j cs` says that the characters `cs` are a way of writing the value `j`, by the rules
of the grammar alone: any blanks between tokens, any of the escapes of a character, any spelling
of a number.  A string with one half of a surrogate pair on its own is a way of writing a string
that is no text.  `Json.IsText` adds the blanks around the whole. -/

namespace EntityConventions.Json

open Decimal

/-! ### Blanks -/

/-- Nothing but the four characters that may stand between tokens. -/
def Blank (cs : List Char) : Prop :=
  ∀ c ∈ cs, c ∈ [' ', '\n', '\r', '\t']

/-! ### Strings -/

/-- A hexadecimal digit of a value, in either case. -/
def HexDigit (v : Nat) (c : Char) : Prop :=
  "0123456789abcdef".toList[v]? = some c ∨ "0123456789ABCDEF".toList[v]? = some c

/-- Four hexadecimal digits of a sixteen-bit unit. -/
inductive UnitWritten : Nat → List Char → Prop
  | mk {v w x y : Nat} {a b c d : Char} (ha : HexDigit v a) (hb : HexDigit w b)
      (hc : HexDigit x c) (hd : HexDigit y d) :
      UnitWritten (v * 4096 + w * 256 + x * 16 + y) [a, b, c, d]

/-- The letters that stand for a character behind a backslash. -/
def shortEscapes : List (Char × Char) :=
  [('"', '"'), ('\\', '\\'), ('/', '/'), ('b', '\x08'), ('f', '\x0c'), ('n', '\n'), ('r', '\r'),
   ('t', '\t')]

/-- The ways of writing a character inside a string: as itself, by a letter, by its sixteen-bit
unit, or by the two units of a surrogate pair. -/
inductive CharWritten : Char → List Char → Prop
  | plain {c : Char} (hquote : c ≠ '"') (hback : c ≠ '\\') (hcontrol : 0x20 ≤ c.toNat) :
      CharWritten c [c]
  | short {letter c : Char} (h : (letter, c) ∈ shortEscapes) : CharWritten c ['\\', letter]
  | unit {c : Char} {ds : List Char} (h : UnitWritten c.toNat ds) :
      CharWritten c ('\\' :: 'u' :: ds)
  | pair {c : Char} {ds es : List Char} (hc : 0x10000 ≤ c.toNat)
      (hhigh : UnitWritten (0xD800 + (c.toNat - 0x10000) / 0x400) ds)
      (hlow : UnitWritten (0xDC00 + (c.toNat - 0x10000) % 0x400) es) :
      CharWritten c ('\\' :: 'u' :: ds ++ '\\' :: 'u' :: es)

/-- The ways of writing some characters one after the other. -/
inductive CharsWritten : List Char → List Char → Prop
  | nil : CharsWritten [] []
  | cons {c : Char} {s cs ds : List Char} (hc : CharWritten c cs) (hs : CharsWritten s ds) :
      CharsWritten (c :: s) (cs ++ ds)

/-- The ways of writing characters and halves of surrogate pairs one after the other. -/
inductive PiecesWritten : List Reader.Piece → List Char → Prop
  | nil : PiecesWritten [] []
  | plain {c : Char} {ps : List Reader.Piece} {cs : List Char} (hquote : c ≠ '"')
      (hback : c ≠ '\\') (hcontrol : 0x20 ≤ c.toNat) (hs : PiecesWritten ps cs) :
      PiecesWritten (.char c :: ps) (c :: cs)
  | short {letter c : Char} {ps : List Reader.Piece} {cs : List Char}
      (h : (letter, c) ∈ shortEscapes) (hs : PiecesWritten ps cs) :
      PiecesWritten (.char c :: ps) ('\\' :: letter :: cs)
  | unit {n : Nat} {ps : List Reader.Piece} {ds cs : List Char} (h : UnitWritten n ds)
      (hs : PiecesWritten ps cs) : PiecesWritten (.ofUnit n :: ps) ('\\' :: 'u' :: ds ++ cs)

/-- The ways of writing a string between its quotes.  One in which a half of a surrogate pair
stands alone denotes no text. -/
inductive StringWritten : Option String → List Char → Prop
  | text {s : String} {cs : List Char} (h : CharsWritten s.toList cs) : StringWritten (some s) cs
  | broken {ps : List Reader.Piece} {cs : List Char} (h : PiecesWritten ps cs)
      (hlone : Reader.join ps = none) : StringWritten none cs

/-! ### Numbers -/

/-- At least one digit and nothing else. -/
def IsDigits (ds : List Char) : Prop :=
  ds ≠ [] ∧ ∀ c ∈ ds, c.isDigit = true

/-- Digits without a leading zero, except for zero itself. -/
def IsWhole (ds : List Char) : Prop :=
  IsDigits ds ∧ (ds.head? = some '0' → ds.length = 1)

/-- A minus, or no sign. -/
def minus (negative : Bool) : List Char :=
  if negative then ['-'] else []

/-- The ways of writing digits behind a point, which may be missing altogether. -/
inductive FractionWritten : Option (List Char) → List Char → Prop
  | absent : FractionWritten none []
  | digits {ds : List Char} (h : IsDigits ds) : FractionWritten (some ds) ('.' :: ds)

/-- The ways of writing an exponent, which may be missing altogether. -/
inductive ExponentWritten : Option Int → List Char → Prop
  | absent : ExponentWritten none []
  | unsigned {mark : Char} {ds : List Char} (hmark : mark = 'e' ∨ mark = 'E') (h : IsDigits ds) :
      ExponentWritten (some (Digits.toNat ds)) (mark :: ds)
  | plus {mark : Char} {ds : List Char} (hmark : mark = 'e' ∨ mark = 'E') (h : IsDigits ds) :
      ExponentWritten (some (Digits.toNat ds)) (mark :: '+' :: ds)
  | minus {mark : Char} {ds : List Char} (hmark : mark = 'e' ∨ mark = 'E') (h : IsDigits ds) :
      ExponentWritten (some (-(Digits.toNat ds : Int))) (mark :: '-' :: ds)

/-- The ways of writing a number.  One with a fraction or an exponent is a decimal. -/
inductive NumberWritten : Numeral → List Char → Prop
  | integer {negative : Bool} {ds : List Char} (h : IsWhole ds) :
      NumberWritten (.integer negative (Digits.toNat ds)) (minus negative ++ ds)
  | decimal {negative : Bool} {ds fs es : List Char} {fraction : Option (List Char)}
      {exponent : Option Int} (h : IsWhole ds) (hf : FractionWritten fraction fs)
      (he : ExponentWritten exponent es) (hsome : fraction ≠ none ∨ exponent ≠ none) :
      NumberWritten (.decimal negative (Digits.toNat (ds ++ fraction.getD []))
        (fraction.getD []).length (exponent.getD 0)) (minus negative ++ ds ++ fs ++ es)

/-! ### Values -/

mutual

/-- The ways of writing a value. -/
inductive Written : Json → List Char → Prop
  | null : Written .null ['n', 'u', 'l', 'l']
  | yes : Written (.bool true) ['t', 'r', 'u', 'e']
  | no : Written (.bool false) ['f', 'a', 'l', 's', 'e']
  | number {n : Numeral} {cs : List Char} (h : NumberWritten n cs) : Written (.number n) cs
  | string {t : Option String} {cs : List Char} (h : StringWritten t cs) :
      Written (.string t) ('"' :: cs ++ ['"'])
  | emptyArray {b : List Char} (hb : Blank b) : Written (.array []) ('[' :: b ++ [']'])
  | array {items : List Json} {cs : List Char} (h : ItemsWritten items cs) :
      Written (.array items) ('[' :: cs ++ [']'])
  | emptyObject {b : List Char} (hb : Blank b) : Written (.object []) ('\x7b' :: b ++ ['\x7d'])
  | object {members : List (Option String × Json)} {cs : List Char}
      (h : MembersWritten members cs) : Written (.object members) ('\x7b' :: cs ++ ['\x7d'])

/-- The ways of writing the elements of an array, at least one. -/
inductive ItemsWritten : List Json → List Char → Prop
  | last {j : Json} {b cs b' : List Char} (hb : Blank b) (h : Written j cs) (hb' : Blank b') :
      ItemsWritten [j] (b ++ cs ++ b')
  | more {j : Json} {items : List Json} {b cs b' ds : List Char} (hb : Blank b) (h : Written j cs)
      (hb' : Blank b') (hs : ItemsWritten items ds) :
      ItemsWritten (j :: items) (b ++ cs ++ b' ++ ',' :: ds)

/-- The ways of writing the members of an object, at least one. -/
inductive MembersWritten : List (Option String × Json) → List Char → Prop
  | last {name : Option String} {j : Json} {b ns b' c cs c' : List Char} (hb : Blank b)
      (hn : StringWritten name ns) (hb' : Blank b') (hc : Blank c) (h : Written j cs)
      (hc' : Blank c') :
      MembersWritten [(name, j)] (b ++ '"' :: ns ++ '"' :: b' ++ ':' :: c ++ cs ++ c')
  | more {name : Option String} {j : Json} {members : List (Option String × Json)}
      {b ns b' c cs c' ds : List Char} (hb : Blank b) (hn : StringWritten name ns)
      (hb' : Blank b') (hc : Blank c) (h : Written j cs) (hc' : Blank c')
      (hs : MembersWritten members ds) :
      MembersWritten ((name, j) :: members)
        (b ++ '"' :: ns ++ '"' :: b' ++ ':' :: c ++ cs ++ c' ++ ',' :: ds)

end

/-- A text of a value: a way of writing it, with blanks around. -/
def IsText (j : Json) (text : String) : Prop :=
  ∃ b cs b', Blank b ∧ Written j cs ∧ Blank b' ∧ text.toList = b ++ cs ++ b'

end EntityConventions.Json
