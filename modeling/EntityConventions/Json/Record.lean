import EntityConventions.Json.Basic

/-! # Records as JSON values

A record with the fields `f₁, …, fₙ` is written in one of two ways: as an object with a member
for each field, in any order and among members of other names, or as an array of the fields'
values in their order.  `Record.ofJson` reads both into what is known of each field.  A field
that is written twice makes the record unreadable, and so do more elements than fields; a field
that is not written is left to `Record.optional` or refused by `Record.required`.

Arrays and objects nest at most `room` deep; `enter` takes one level of it. -/

namespace EntityConventions.Json

/-- Containers may be open in a text at the same time up to this number. -/
def maxDepth : Nat := 127

/-- The fields of a record that are written, each once. -/
structure Record where
  fields : List (String × Json)

namespace Record

/-- Give every member a name that is a text, if each has one. -/
def named : List (Option String × Json) → Option (List (String × Json))
  | [] => some []
  | (none, _) :: _ => none
  | (some name, j) :: ms => (named ms).map ((name, j) :: ·)

/-- The fields of a record, from either way of writing it. -/
def ofJson (names : List String) : Json → Option Record
  | .array items => if items.length ≤ names.length then some ⟨names.zip items⟩ else none
  | .object members => do
      let known := (← named members).filter fun m => names.contains m.1
      if (known.map (·.1)).Nodup then some ⟨known⟩ else none
  | _ => none

/-- What is written for a field. -/
def get? (r : Record) (name : String) : Option Json :=
  r.fields.lookup name

/-- A field that has to be written. -/
def required {α : Type} (r : Record) (name : String) (decode : Json → Option α) : Option α :=
  (r.get? name).bind decode

/-- A field with a default. -/
def optional {α : Type} (r : Record) (name : String) (default : α) (decode : Json → Option α) :
    Option α :=
  match r.get? name with
  | none => some default
  | some j => decode j

end Record

/-- Take one level of the room for nested containers. -/
def enter : Nat → Option Nat
  | 0 => none
  | room + 1 => some room

/-- A value, or `null` for none. -/
def nullable {α : Type} (decode : Json → Option α) : Json → Option (Option α)
  | .null => some none
  | j => (decode j).map some

/-- An array of values. -/
def listOf {α : Type} (decode : Nat → Json → Option α) : Nat → Json → Option (List α)
  | room + 1, .array items => items.mapM (decode room)
  | _, _ => none

/-- One of some words, as a string or as the name of an object's only member, which is `null`. -/
def wordOf {α : Type} (ofName : String → Option α) : Nat → Json → Option α
  | _, .string (some word) => ofName word
  | _ + 1, .object [(some word, .null)] => ofName word
  | _, _ => none

end EntityConventions.Json
