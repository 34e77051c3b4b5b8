import EntityConventions.Reflection

/-! # Roles of classes

A `Classifier` says which classes are entities, which are test cases, and which class a test case
covers.  `Classifier.conventions` reads the roles off names and attributes;
`Classifier.ofTables` looks them up. -/

namespace EntityConventions

/-- The roles that classes play. -/
structure Classifier where
  isEntity : Reflection → Bool
  isTest : String → Bool
  covered? : Reflection → Option String

namespace Classifier

/-- The class named by the value of a covers attribute: a class constant or a string. -/
def target? : Expr → Option String
  | .classConst (some name) (some constant) _ =>
      if constant = "class" then some (Name.stripLeading name) else none
  | .string value _ => some (Name.stripLeading value)
  | _ => none

/-- The argument of a covers attribute: the one named `className`, or else the first positional
one. -/
def coversArg? (a : Attribute) : Option Argument :=
  (a.namedArg? "className").or (a.args.find? fun arg => arg.name.isNone)

/-- Entities carry the entity attribute, test cases have a name that ends in `Test`, and the
covered class is the argument of the first covers attribute. -/
def conventions : Classifier where
  isEntity r := r.hasAttribute Concept.entity
  isTest name := "Test".toList.isSuffixOf (Name.short name).toList
  covered? r := do
    let covers ← r.attributes.find? fun a => Concept.coversClass.isDenotedBy a.name
    let arg ← coversArg? covers
    target? arg.value

/-- Roles by exact look-up of names. -/
def ofTables (entities tests : List String) (covers : List (String × String)) : Classifier where
  isEntity r := entities.contains r.name
  isTest name := tests.contains name
  covered? r := covers.lookup r.name

end Classifier

end EntityConventions
