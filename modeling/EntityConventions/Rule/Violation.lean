import EntityConventions.ClassContext

/-! # Violations

A `Violation` is what a check reports about a class, before the rule adds its code, its name and
its severity. -/

namespace EntityConventions

/-- One thing that a check objects to. -/
structure Violation where
  identifier : String
  line : Nat
  message : String
  tip : Option String
  deriving DecidableEq, Repr

namespace ClassDeclaration

/-- The properties of a class, each with those of its attributes that spell a concept. -/
def attributesSpelling (d : ClassDeclaration) (c : Concept) : List (Property × Attribute) :=
  d.properties.flatMap fun p =>
    (p.attributes.filter fun a => c.isSpelledBy a.name).map fun a => (p, a)

end ClassDeclaration

end EntityConventions
