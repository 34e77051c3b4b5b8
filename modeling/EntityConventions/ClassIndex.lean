import EntityConventions.Model

/-! # Known classes

A `ClassIndex` finds a resolved class by its name; leading separators do not matter.
`ClassIndex.ofModels` gathers the entries of some documents: of several entries with one name
the first with a declaration is kept, or the first of all if none has one.
`ClassIndex.insert` replaces what was known.  A `Scope` is an index together with the class that
is looked at. -/

namespace EntityConventions

/-- Known classes under their names without leading separators, each name once. -/
structure ClassIndex where
  classes : List (String × Reflection)

namespace ClassIndex

/-- Put a value under a key, in the place of the one before if there is one. -/
def put {α : Type} (key : String) (a : α) : List (String × α) → List (String × α)
  | [] => [(key, a)]
  | (k, b) :: rest => if k = key then (key, a) :: rest else (k, b) :: put key a rest

/-- No known classes. -/
def empty : ClassIndex := ⟨[]⟩

/-- The class with a given name. -/
def get? (index : ClassIndex) (name : String) : Option Reflection :=
  index.classes.lookup (Name.stripLeading name)

/-- Add a class, in the place of the one with the same name. -/
def insert (index : ClassIndex) (r : Reflection) : ClassIndex :=
  ⟨put (Name.stripLeading r.name) r index.classes⟩

/-- The number of known classes. -/
def size (index : ClassIndex) : Nat :=
  index.classes.length

/-- Whether no class is known. -/
def isEmpty (index : ClassIndex) : Bool :=
  index.classes.isEmpty

/-- Account for one more entry: it counts if its name is new, or if it is the first with a
declaration. -/
def absorb (known : List (String × Bool × Reflection)) (e : ClassEntry) :
    List (String × Bool × Reflection) :=
  let key := Name.stripLeading e.reflection.name
  let declared := e.declaration?.isSome
  match known.lookup key with
  | some (true, _) => known
  | some (false, _) => if declared then put key (declared, e.reflection) known else known
  | none => put key (declared, e.reflection) known

/-- The classes of some documents. -/
def ofModels (models : List Model) : ClassIndex :=
  let known := (models.flatMap Model.classes).foldl absorb []
  ⟨known.map fun k => (k.1, k.2.2)⟩

end ClassIndex

/-- The class that is looked at, if there is one, among the known classes. -/
structure Scope where
  current : Option Reflection
  index : ClassIndex

namespace Scope

/-- The known class with a given name. -/
def get? (scope : Scope) (name : String) : Option Reflection :=
  scope.index.get? name

/-- Whether a class with a given name is known. -/
def has (scope : Scope) (name : String) : Bool :=
  (scope.get? name).isSome

end Scope

end EntityConventions
