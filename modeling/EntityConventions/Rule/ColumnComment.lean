import EntityConventions.Rule.Violation
import EntityConventions.Text.Blank

/-! # Columns carry a comment

The comment of a column reaches people who read the database and nothing else.  A column without
options, or with options but no comment that says something, is objected to. -/

namespace EntityConventions.ColumnComment

/-- A column without options. -/
def missingOptions : String := "doctrine.column.comment.missingOptions"

/-- Options without a comment. -/
def missingKey : String := "doctrine.column.comment.missingKey"

/-- Whether an expression is a comment; only a string that is blank is not. -/
def isComment : Expr → Bool
  | .string value _ => !Text.Blank.isBlankText value
  | _ => true

/-- Whether options are a literal array whose first comment says something. -/
def hasComment (options : Expr) : Bool :=
  match options.items?.bind fun items => findKey? items "comment" with
  | some item => isComment item.value
  | none => false

/-- The objection to one column. -/
def columnViolation? (className : String) (p : Property) (a : Attribute) : Option Violation :=
  match a.namedArg? "options" with
  | none => some {
      identifier := missingOptions
      line := a.line
      message := "Property $" ++ p.name ++ " of entity " ++ className ++
        " should declare options with a comment on #[ORM\\Column] " ++
        "(e.g. options: ['comment' => 'column description'])."
      tip := none }
  | some options =>
      if hasComment options.value then none
      else some {
        identifier := missingKey
        line := bestLine [some options.line, some a.line]
        message := "Property $" ++ p.name ++ " of entity " ++ className ++
          " has options but no 'comment' key. Describe the column " ++
          "(e.g. options: ['comment' => 'column description'])."
        tip := none }

/-- The objections to the columns of an entity; test files are left out if wanted. -/
def violations (skipTests : Bool) (ctx : ClassContext) : List Violation :=
  if skipTests && ctx.inTestFile then []
  else if ctx.isEntity then
    (ctx.declaration.attributesSpelling Concept.column).filterMap fun (p, a) =>
      columnViolation? ctx.className p a
  else []

end EntityConventions.ColumnComment
