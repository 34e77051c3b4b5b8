import EntityConventions.Rule.Violation

/-! # Dates and times are immutable

A mutable date that an entity shares with other code can change unnoticed.  A column whose type
is one of the mutable ones, by its word or by its constant, is objected to. -/

namespace EntityConventions.ImmutableDates

/-- A mutable type given as a string. -/
def stringType : String := "doctrine.datetime.immutable.string"

/-- A mutable type given as a constant. -/
def constantType : String := "doctrine.datetime.immutable.const"

/-- The words and constants for mutable types, and what replaces them. -/
def replacements : List (String × String) :=
  [("datetime", "Types::DATETIME_IMMUTABLE"),
   ("DATETIME_MUTABLE", "Types::DATETIME_IMMUTABLE"),
   ("date", "Types::DATE_IMMUTABLE"),
   ("DATE_MUTABLE", "Types::DATE_IMMUTABLE"),
   ("time", "Types::TIME_IMMUTABLE"),
   ("TIME_MUTABLE", "Types::TIME_IMMUTABLE"),
   ("datetimetz", "Types::DATETIMETZ_IMMUTABLE"),
   ("DATETIMETZ_MUTABLE", "Types::DATETIMETZ_IMMUTABLE")]

/-- Whether a class holds the constants for column types. -/
def isTypesClass (name : String) : Bool :=
  "Types".toList.isSuffixOf name.toList || Name.trimLeading name == Name.columnTypes

/-- A mutable type in the argument of a column. -/
structure MutableType where
  identifier : String
  replacement : String
  written : String
  line : Nat

/-- The mutable type that an expression names, if it names one. -/
def mutableType? : Expr → Option MutableType
  | .string value line =>
      (replacements.lookup value).map fun replacement =>
        ⟨stringType, replacement, "\"" ++ value ++ "\"", line⟩
  | .classConst (some name) (some constant) line =>
      if isTypesClass name then
        (replacements.lookup constant).map fun replacement =>
          ⟨constantType, replacement, "Types::" ++ constant, line⟩
      else none
  | _ => none

/-- The objection to one column. -/
def columnViolation? (className : String) (p : Property) (a : Attribute) : Option Violation := do
  let arg ← a.namedArg? "type"
  let found ← mutableType? arg.value
  return {
    identifier := found.identifier
    line := bestLine [some found.line, some arg.line, some a.line]
    message := "Property $" ++ p.name ++ " of entity " ++ className ++ " should use " ++
      found.replacement ++ " instead of the mutable type " ++ found.written ++
      " to prevent time-related bugs."
    tip := none }

/-- The objections to the columns of an entity. -/
def violations (ctx : ClassContext) : List Violation :=
  if ctx.isEntity then
    (ctx.declaration.attributesSpelling Concept.column).filterMap fun (p, a) =>
      columnViolation? ctx.className p a
  else []

end EntityConventions.ImmutableDates
