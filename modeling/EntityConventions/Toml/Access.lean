import EntityConventions.Decimal.Shortest
import EntityConventions.Toml.Packed

/-! # Reading TOML values as something else

A setting is read from a value by its type.  A date and time passes for its packed form where a
table is expected.  A record may also be written as an array of its fields in their order;
elements without a field are passed over. -/

namespace EntityConventions.Toml

open Decimal

/-- A text. -/
def string? : Toml → Option String
  | .string s => some s
  | _ => none

/-- A truth value. -/
def bool? : Toml → Option Bool
  | .bool b => some b
  | _ => none

/-- An integer. -/
def int? : Toml → Option Int
  | .integer i => some i
  | _ => none

/-- An integer that is not negative. -/
def nat? : Toml → Option Nat
  | .integer (.ofNat n) => some n
  | _ => none

/-- An integer of eight bits. -/
def byte? (v : Toml) : Option Nat :=
  v.nat?.filter (· < 256)

/-- A floating-point number; an integer passes for the nearest one. -/
def float? : Toml → Option Binary64
  | .float f => some f
  | .integer i => some (.ofInt i)
  | _ => none

/-- A text; a date and time passes for its text. -/
def textual? : Toml → Option String
  | .string s => some s
  | .datetime d => some d.text
  | _ => none

/-- A list of values. -/
def listOf {α : Type} (decode : Toml → Option α) : Toml → Option (List α)
  | .array items => items.mapM decode
  | _ => none

/-- Whether a value is an array or a table with nothing in it. -/
def isVoid : Toml → Bool
  | .array [] => true
  | .table [] => true
  | _ => false

/-- One of some words, as a text or as the only key of a table, with nothing below it. -/
def wordOf {α : Type} (ofWord : String → Option α) : Toml → Option α
  | .string word => ofWord word
  | .table [(word, v)] => if v.isVoid then ofWord word else none
  | _ => none

/-- The entries of a table. -/
def entries? : Toml → Option (List (String × Toml))
  | .table entries => some entries
  | .datetime d => some (packed d)
  | _ => none

/-- The fields of a record. -/
def record? (names : List String) : Toml → Option (List (String × Toml))
  | .array items => some (names.zip items)
  | v => v.entries?

/-- A field that has to be there. -/
def required {α : Type} (fields : List (String × Toml)) (name : String)
    (decode : Toml → Option α) : Option α :=
  (fields.lookup name).bind decode

/-- A field with a default. -/
def optional {α : Type} (fields : List (String × Toml)) (name : String) (default : α)
    (decode : Toml → Option α) : Option α :=
  match fields.lookup name with
  | none => some default
  | some v => decode v

end EntityConventions.Toml
