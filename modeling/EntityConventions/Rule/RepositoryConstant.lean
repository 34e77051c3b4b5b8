import EntityConventions.Rule.Violation

/-! # Repositories are named by class constants

A class name in a string survives the renaming of the class.  The argument `repositoryClass` of an
entity attribute has to be a class constant `…::class`; the first one that is not is objected
to. -/

namespace EntityConventions.RepositoryConstant

/-- A repository that is not named by a class constant. -/
def identifier : String := "doctrine.entity.repository.classConst"

/-- What is wrong with the value of an argument, if something is. -/
def complaint? (className : String) : Expr → Option String
  | .string value _ =>
      some ("Entity " ++ className ++ " should reference repositoryClass with ClassName::class " ++
        "syntax instead of the string \"" ++ value ++ "\".")
  | .classConst _ constant? _ =>
      if constant? = some "class" then none
      else some ("Entity " ++ className ++
        " must use the ::class constant in the repositoryClass argument.")
  | _ =>
      some ("Entity " ++ className ++
        " must use ClassName::class syntax in the repositoryClass argument.")

/-- The objection to one argument. -/
def argViolation? (className : String) (a : Attribute) (arg : Argument) : Option Violation :=
  (complaint? className arg.value).map fun message => {
    identifier := identifier
    line := bestLine [some arg.value.line, some arg.line, some a.line]
    message := message
    tip := none }

/-- The objections to the entity attributes of a class, one for each. -/
def violations (ctx : ClassContext) : List Violation :=
  if ctx.isEntity then
    (ctx.declaration.attributes.filter fun a => Concept.entity.isSpelledBy a.name).filterMap
      fun a => (a.namedArgs "repositoryClass").findSome? (argViolation? ctx.className a)
  else []

end EntityConventions.RepositoryConstant
