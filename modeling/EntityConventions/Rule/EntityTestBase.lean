import EntityConventions.Rule.Violation

/-! # Tests of entities extend the common test case

A test case that covers an entity has to extend a given base class.  Nothing is said where the
covered class or the base class is not known. -/

namespace EntityConventions.EntityTestBase

/-- A test of an entity with another base class. -/
def identifier : String := "entityTest.mustExtendAbstractEntityTest"

/-- The base class where none is configured. -/
def defaultBase : String := "Tourze\\PHPUnitDoctrineEntity\\AbstractEntityTestCase"

/-- The test case that is looked at and the name of the entity it covers, if it covers one. -/
def entityTest? (ctx : ClassContext) : Option (Reflection × String) := do
  let test ← ctx.scope.current
  if ctx.classifier.isTest test.name && ctx.declaration.kind = .regular then
    let coveredName ← ctx.classifier.covered? test
    let covered ← ctx.scope.get? coveredName
    if ctx.classifier.isEntity covered then return (test, coveredName) else none
  else none

/-- The objection to a test case. -/
def violations (baseClass : String) (ctx : ClassContext) : List Violation :=
  match entityTest? ctx, ctx.scope.get? baseClass with
  | some (test, coveredName), some base =>
      if test.isSubclassOf base then []
      else
        [{ identifier := identifier
           line := bestLine [some ctx.declaration.line, some test.line]
           message := "Test class " ++ test.name ++ " tests entity " ++ coveredName ++
             " but does not extend " ++ baseClass ++ "."
           tip := some ("Entity tests must extend " ++ baseClass ++
             " to use the prepared test environment and helper methods.") }]
  | _, _ => []

end EntityConventions.EntityTestBase
