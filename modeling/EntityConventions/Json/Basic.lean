import EntityConventions.Json.Numeral

/-! # JSON values

A `Json` value keeps what a text says and nothing of its layout: members in the order in which
they are written, also when a name occurs twice.  A string that holds one half of a surrogate
pair on its own denotes no text; it is kept as `string none`, because a reader may have to pass
over it. -/

namespace EntityConventions

/-- A JSON value. -/
inductive Json where
  | null
  | bool (value : Bool)
  | number (numeral : Numeral)
  | string (text : Option String)
  | array (items : List Json)
  | object (members : List (Option String × Json))

namespace Json

/-! ### Building values -/

/-- A string. -/
def ofString (text : String) : Json :=
  .string (some text)

/-- A natural number. -/
def ofNat (n : Nat) : Json :=
  .number (.integer false n)

/-- An integer. -/
def ofInt (i : Int) : Json :=
  .number (.integer (decide (i < 0)) i.natAbs)

/-- A value, or `null`. -/
def ofOption {α : Type} (encode : α → Json) : Option α → Json
  | none => .null
  | some a => encode a

/-- A list of values. -/
def ofList {α : Type} (encode : α → Json) (as : List α) : Json :=
  .array (as.map encode)

/-- An object with the given members. -/
def ofMembers (members : List (String × Json)) : Json :=
  .object (members.map fun m => (some m.1, m.2))

/-! ### Reading parts of values -/

/-- The text of a string. -/
def text? : Json → Option String
  | .string t => t
  | _ => none

/-- The truth value of a boolean. -/
def bool? : Json → Option Bool
  | .bool b => some b
  | _ => none

/-- The integer of a number written as one. -/
def int? : Json → Option Int
  | .number n => n.int?
  | _ => none

/-- A natural number of at most sixty-four bits. -/
def nat64? (j : Json) : Option Nat :=
  match j.int? with
  | some (.ofNat n) => if n < 18446744073709551616 then some n else none
  | _ => none

/-- An integer of at most sixty-four bits, one of them for the sign. -/
def int64? (j : Json) : Option Int :=
  match j.int? with
  | some i => if -9223372036854775808 ≤ i ∧ i < 9223372036854775808 then some i else none
  | none => none

/-! ### Nesting -/

mutual

/-- The number of arrays and objects around the innermost part of a value. -/
def depth : Json → Nat
  | .array items => depthItems items + 1
  | .object members => depthMembers members + 1
  | _ => 0

/-- The greatest depth among some values. -/
def depthItems : List Json → Nat
  | [] => 0
  | j :: js => max j.depth (depthItems js)

/-- The greatest depth among the values of some members. -/
def depthMembers : List (Option String × Json) → Nat
  | [] => 0
  | (_, j) :: ms => max j.depth (depthMembers ms)

end

mutual

/-- Whether every string and name is a text and no number is too large. -/
def isClean : Json → Bool
  | .null => true
  | .bool _ => true
  | .number n => !n.overflows
  | .string t => t.isSome
  | .array items => isCleanItems items
  | .object members => isCleanMembers members

/-- Whether every one of some values is clean. -/
def isCleanItems : List Json → Bool
  | [] => true
  | j :: js => j.isClean && isCleanItems js

/-- Whether the names and values of some members are clean. -/
def isCleanMembers : List (Option String × Json) → Bool
  | [] => true
  | (name, j) :: ms => name.isSome && j.isClean && isCleanMembers ms

end

end Json

end EntityConventions
