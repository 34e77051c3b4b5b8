/-! # Blank characters

`Blank.isBlank` decides the Unicode property White_Space, and `Blank.trim` removes every blank
at the two ends of a text.  The property is given by its code points; a zero-width space or a
byte order mark is not among them. -/

namespace EntityConventions.Text.Blank

/-- The code points of White_Space, as inclusive ranges in increasing order. -/
def ranges : List (Nat × Nat) :=
  [(0x09, 0x0D), (0x20, 0x20), (0x85, 0x85), (0xA0, 0xA0), (0x1680, 0x1680), (0x2000, 0x200A),
   (0x2028, 0x2029), (0x202F, 0x202F), (0x205F, 0x205F), (0x3000, 0x3000)]

/-- White_Space, as a decision on one character. -/
def isBlank (c : Char) : Bool :=
  ranges.any fun r => r.1 ≤ c.toNat && c.toNat ≤ r.2

/-- Drop the blanks at the end of a list of characters. -/
def trimEnd (cs : List Char) : List Char :=
  (cs.reverse.dropWhile isBlank).reverse

/-- A text without the blanks at its two ends. -/
def trim (text : String) : String :=
  String.ofList (trimEnd (text.toList.dropWhile isBlank))

/-- A text that holds nothing but blanks. -/
def isBlankText (text : String) : Bool :=
  text.toList.all isBlank

end EntityConventions.Text.Blank
