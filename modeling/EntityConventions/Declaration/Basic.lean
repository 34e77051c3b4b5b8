/-! # Declarations as written

A `ClassDeclaration` is what stands in a source file: the attributes of a class, its properties
with theirs, and its constructor.  Arguments of attributes are expressions; only the forms that
some rule looks at are told apart, and any other form is `Expr.other`.  Every node carries the
line it starts on, and the line zero means that the line is not known. -/

namespace EntityConventions

/-- One item of a literal array over expressions `ε`. -/
structure Item (ε : Type) where
  key : Option ε
  value : ε
  line : Nat

/-- An expression. -/
inductive Expr where
  | string (value : String) (line : Nat)
  | int (value : Int) (line : Nat)
  | classConst (class? : Option String) (constant? : Option String) (line : Nat)
  | array (items : List (Item Expr)) (line : Nat)
  | other (text? : Option String) (line : Nat)

namespace Expr

/-- The line an expression starts on. -/
def line : Expr → Nat
  | .string _ line => line
  | .int _ line => line
  | .classConst _ _ line => line
  | .array _ line => line
  | .other _ line => line

/-- The value of a string literal. -/
def string? : Expr → Option String
  | .string value _ => some value
  | _ => none

/-- The items of a literal array. -/
def items? : Expr → Option (List (Item Expr))
  | .array items _ => some items
  | _ => none

end Expr

namespace Item

/-- An item whose key is a string literal on the value's line. -/
def keyed (key : String) (value : Expr) : Item Expr :=
  ⟨some (.string key value.line), value, value.line⟩

/-- The key of an item, if it is a string literal. -/
def stringKey? (item : Item Expr) : Option String :=
  item.key.bind Expr.string?

end Item

/-- An argument of an attribute, positional if it has no name. -/
structure Argument where
  name : Option String
  value : Expr
  line : Nat

namespace Argument

/-- A named argument on the line of its value. -/
def named (name : String) (value : Expr) : Argument :=
  ⟨some name, value, value.line⟩

/-- A positional argument on the line of its value. -/
def positional (value : Expr) : Argument :=
  ⟨none, value, value.line⟩

end Argument

/-- An attribute of a class or a property. -/
structure Attribute where
  name : String
  line : Nat
  args : List Argument

namespace Attribute

/-- An attribute without arguments. -/
def bare (name : String) (line : Nat) : Attribute :=
  ⟨name, line, []⟩

/-- Write one more argument. -/
def addArg (a : Attribute) (arg : Argument) : Attribute :=
  { a with args := a.args ++ [arg] }

/-- The arguments with a given name, in their order. -/
def namedArgs (a : Attribute) (name : String) : List Argument :=
  a.args.filter fun arg => arg.name == some name

/-- The first argument with a given name. -/
def namedArg? (a : Attribute) (name : String) : Option Argument :=
  a.args.find? fun arg => arg.name == some name

/-- The value of the first argument with a given name, if it is a string literal. -/
def namedString? (a : Attribute) (name : String) : Option String :=
  (a.namedArg? name).bind fun arg => arg.value.string?

end Attribute

/-- A property, with the attributes of all its groups. -/
structure Property where
  name : String
  line : Nat
  attributes : List Attribute

namespace Property

/-- A property without attributes. -/
def bare (name : String) (line : Nat) : Property :=
  ⟨name, line, []⟩

/-- Write one more attribute. -/
def addAttribute (p : Property) (a : Attribute) : Property :=
  { p with attributes := p.attributes ++ [a] }

end Property

/-- A constructor, by the names of its parameters. -/
structure ConstructorSignature where
  line : Nat
  parameters : List String

/-- The kinds of class-like declarations. -/
inductive ClassKind where
  | regular
  | enum
  | interface
  | trait
  deriving DecidableEq, Repr

namespace ClassKind

/-- The word for a kind. -/
def word : ClassKind → String
  | .regular => "class"
  | .enum => "enum"
  | .interface => "interface"
  | .trait => "trait"

/-- The kind that a word names. -/
def ofWord? : String → Option ClassKind
  | "class" => some .regular
  | "enum" => some .enum
  | "interface" => some .interface
  | "trait" => some .trait
  | _ => none

end ClassKind

/-- A class-like declaration. -/
structure ClassDeclaration where
  name : String
  kind : ClassKind
  line : Nat
  attributes : List Attribute
  properties : List Property
  constructor? : Option ConstructorSignature

namespace ClassDeclaration

/-- A declaration with an empty body. -/
def empty (name : String) (kind : ClassKind) (line : Nat) : ClassDeclaration :=
  ⟨name, kind, line, [], [], none⟩

/-- Write one more attribute. -/
def addAttribute (d : ClassDeclaration) (a : Attribute) : ClassDeclaration :=
  { d with attributes := d.attributes ++ [a] }

/-- Write one more property. -/
def addProperty (d : ClassDeclaration) (p : Property) : ClassDeclaration :=
  { d with properties := d.properties ++ [p] }

/-- Write a constructor, instead of the one that was there. -/
def setConstructor (d : ClassDeclaration) (c : ConstructorSignature) : ClassDeclaration :=
  { d with constructor? := some c }

end ClassDeclaration

end EntityConventions
