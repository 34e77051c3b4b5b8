import EntityConventions.Toml.Scanner

/-! # Packed dates and times

Where only texts, numbers and tables can travel, a date and time is packed into a table: its text
stands under a reserved key, and nothing else does.  `Toml.packed` packs one.  `Toml.unpack?`
finds every table inside a value whose first key is the reserved one and puts the date and time
back; it fails if there is none under the key.  A `strict` reading also fails if more keys follow;
any other reading passes over them. -/

namespace EntityConventions.Toml

/-- The key under which a date and time travels. -/
def datetimeKey : String := "$__toml_private_datetime"

/-- The entries of the table that a date and time travels as. -/
def packed (d : Datetime) : List (String × Toml) :=
  [(datetimeKey, .string d.text)]

/-- The date and time under the reserved key, with the given entries behind it. -/
def packedDatetime? (strict : Bool) (rest : List (String × Toml)) : Toml → Option Datetime
  | .string text => if strict && !rest.isEmpty then none else Datetime.parse text
  | _ => none

mutual

/-- A value with every packed date and time inside it put back. -/
def unpack? (strict : Bool) : Toml → Option Toml
  | .array items => (unpackItems? strict items).map .array
  | .table [] => some (.table [])
  | .table ((key, v) :: rest) =>
      if key = datetimeKey then (packedDatetime? strict rest v).map .datetime
      else do
        let v ← unpack? strict v
        let rest ← unpackEntries? strict rest
        return .table ((key, v) :: rest)
  | v => some v

/-- The items of an array, each with its dates and times put back. -/
def unpackItems? (strict : Bool) : List Toml → Option (List Toml)
  | [] => some []
  | v :: rest => do
      let v ← unpack? strict v
      let rest ← unpackItems? strict rest
      return v :: rest

/-- Entries whose values have their dates and times put back; their own keys are ordinary. -/
def unpackEntries? (strict : Bool) : List (String × Toml) → Option (List (String × Toml))
  | [] => some []
  | (key, v) :: rest => do
      let v ← unpack? strict v
      let rest ← unpackEntries? strict rest
      return (key, v) :: rest

end

end EntityConventions.Toml
