import EntityConventions.ClassIndex
import EntityConventions.Classifier
import EntityConventions.Declaration.Options
import EntityConventions.Text.Quoted

/-! # A class under check

A `ClassContext` is all that a rule sees: a declaration and the resolved class, the scope, the
roles of classes, and the path that findings report.  `reportPath` is that path: the file below
the root if it lies there.  Files below a `tests` directory are test files, and those below
`tests/Fixtures` are fixtures. -/

namespace EntityConventions

namespace Path

/-- Whether a file lies in a directory called `tests`, or is called so. -/
def isTest (p : Path) : Bool :=
  p.names.contains "tests"

/-- Whether a name `tests` is followed by `Fixtures` or `fixtures`. -/
def hasFixtures : List String → Bool
  | a :: b :: rest =>
      (a == "tests" && (b == "Fixtures" || b == "fixtures")) || hasFixtures (b :: rest)
  | _ => false

/-- Whether a file lies in the fixtures of a `tests` directory. -/
def isFixture (p : Path) : Bool :=
  hasFixtures p.names

end Path

/-- The path reported for a class file: below the root if it lies there, as given if not. -/
def reportPath (root : Path) : Option Path → Path
  | none => ⟨"<unknown>"⟩
  | some file => (Path.stripAncestor root file).getD file

/-- What a rule sees of a class. -/
structure ClassContext where
  declaration : ClassDeclaration
  reflection : Reflection
  scope : Scope
  classifier : Classifier
  path : Path

namespace ClassContext

/-- The name of the class. -/
def className (ctx : ClassContext) : String :=
  ctx.reflection.name

/-- Whether the class is an entity. -/
def isEntity (ctx : ClassContext) : Bool :=
  ctx.classifier.isEntity ctx.reflection

/-- Whether the class is in a test file. -/
def inTestFile (ctx : ClassContext) : Bool :=
  match ctx.reflection.file with
  | some file => file.isTest
  | none => false

/-- Whether the class is in a fixture file. -/
def inFixtureFile (ctx : ClassContext) : Bool :=
  match ctx.reflection.file with
  | some file => file.isFixture
  | none => false

/-- A short description, for people who look for a fault in a rule. -/
def describe (ctx : ClassContext) : String :=
  "ClassContext \x7b class: " ++ Text.Quoted.quote ctx.className ++ ", relative_path: " ++
    Text.Quoted.quote ctx.path.text ++ ", .. \x7d"

end ClassContext

end EntityConventions
