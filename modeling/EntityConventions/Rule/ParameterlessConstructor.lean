import EntityConventions.Rule.Violation

/-! # Constructors of entities take no parameters

Entities are made without arguments and filled afterwards.  A class or enumeration that is an
entity and has a constructor with parameters is objected to; test cases and test files are left
out, unless they are fixtures. -/

namespace EntityConventions.ParameterlessConstructor

/-- A constructor with parameters. -/
def identifier : String := "doctrine.entity.ctor.noParams"

/-- Whether a class is left out. -/
def isSkipped (ctx : ClassContext) : Bool :=
  !ctx.inFixtureFile && (ctx.classifier.isTest ctx.className || ctx.inTestFile)

/-- The number of parameters: as resolved, or else as written. -/
def parameterCount (ctx : ClassContext) : Nat :=
  match ctx.reflection.constructor?, ctx.declaration.constructor? with
  | some facts, _ => facts.parameters
  | none, some signature => signature.parameters.length
  | none, none => 0

/-- The line of the constructor, or else that of the class. -/
def constructorLine (ctx : ClassContext) : Nat :=
  bestLine [ctx.reflection.constructor?.bind ConstructorFacts.line,
    ctx.declaration.constructor?.map ConstructorSignature.line,
    some ctx.declaration.line, some ctx.reflection.line]

/-- The objection to the constructor of an entity. -/
def violations (ctx : ClassContext) : List Violation :=
  if isSkipped ctx then []
  else if ctx.declaration.kind = .interface ∨ ctx.declaration.kind = .trait then []
  else if ctx.isEntity && parameterCount ctx != 0 then
    [{ identifier := identifier
       line := constructorLine ctx
       message := "Constructor of entity " ++ ctx.className ++
         " must not take parameters. Remove them and set entity data through setter methods."
       tip := none }]
  else []

end EntityConventions.ParameterlessConstructor
