import EntityConventions.Declaration.Basic

/-! # Options of attributes

The options of an attribute are written as named arguments, or as the string keys of positional
literal arrays.  `Options.keys` gathers both in the order of writing, each with its line.
`bestLine` picks the first known line of several. -/

namespace EntityConventions

/-- An argument that carries options. -/
inductive OptionShape where
  | named (name : String) (arg : Argument)
  | positional (items : List (Item Expr))

/-- A key of an option, and the line it is written on. -/
structure OptionKey where
  key : String
  line : Nat
  deriving DecidableEq, Repr

namespace OptionShape

/-- The shape of an argument; a positional argument that is no literal array carries no
options. -/
def ofArgument? (arg : Argument) : Option OptionShape :=
  match arg.name, arg.value with
  | some name, _ => some (.named name arg)
  | none, .array items _ => some (.positional items)
  | none, _ => none

/-- The option keys of a shape; items without a string key have none. -/
def keys : OptionShape → List OptionKey
  | .named name arg => [⟨name, arg.line⟩]
  | .positional items =>
      items.filterMap fun item => item.stringKey?.map fun key => ⟨key, item.line⟩

end OptionShape

namespace Attribute

/-- The arguments of an attribute that carry options. -/
def optionShapes (a : Attribute) : List OptionShape :=
  a.args.filterMap OptionShape.ofArgument?

/-- The option keys of an attribute, in the order of writing. -/
def optionKeys (a : Attribute) : List OptionKey :=
  a.optionShapes.flatMap OptionShape.keys

end Attribute

/-- The first item with a given string key. -/
def findKey? (items : List (Item Expr)) (key : String) : Option (Item Expr) :=
  items.find? fun item => item.stringKey? == some key

/-- The first candidate that is present and positive, or zero. -/
def bestLine (candidates : List (Option Nat)) : Nat :=
  ((candidates.filterMap id).find? (0 < ·)).getD 0

end EntityConventions
