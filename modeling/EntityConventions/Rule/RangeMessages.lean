import EntityConventions.Rule.Violation

/-! # Ranges with two bounds have one message

A range that is bounded on both sides knows a single message for values outside it; a message for
one of the bounds makes it fail.  Such a range is objected to, in any class. -/

namespace EntityConventions.RangeMessages

/-- A message for one bound beside both bounds. -/
def identifier : String := "validator.range.invalidMessages"

/-- Whether an option is the message for one bound. -/
def isBoundMessage (key : String) : Bool :=
  key == "minMessage" || key == "maxMessage"

/-- Whether options set both bounds and a message for one of them. -/
def isConflicting (keys : List OptionKey) : Bool :=
  keys.any (fun k => k.key == "min") && keys.any (fun k => k.key == "max") &&
    keys.any fun k => isBoundMessage k.key

/-- The line of the last message for one bound. -/
def messageLine? (keys : List OptionKey) : Option Nat :=
  (keys.reverse.find? fun k => isBoundMessage k.key).map OptionKey.line

/-- The objection to one range. -/
def rangeViolation? (className : String) (p : Property) (a : Attribute) : Option Violation :=
  let keys := a.optionKeys
  if isConflicting keys then some {
    identifier := identifier
    line := bestLine [messageLine? keys, some a.line]
    message := "Property $" ++ p.name ++ " of class " ++ className ++
      " sets min/max together with minMessage/maxMessage on #[Assert\\Range], " ++
      "which raises a ConstraintDefinitionException; use notInRangeMessage instead."
    tip := some ("When both min and max are set only notInRangeMessage applies; " ++
      "put the custom bound message there.") }
  else none

/-- The objections to the ranges of a class. -/
def violations (ctx : ClassContext) : List Violation :=
  if ctx.declaration.kind = .regular then
    (ctx.declaration.attributesSpelling Concept.range).filterMap fun (p, a) =>
      rangeViolation? ctx.className p a
  else []

end EntityConventions.RangeMessages
