import EntityConventions.Declaration.Basic
import EntityConventions.Json.Record

/-! # Declarations as JSON values

Every type of a declaration is written by `toJson` with all its fields, and read by `ofJson?`
from any way of writing the record.  Reading takes the room that is left for nested containers.

An expression is told by its field `kind`, which may stand anywhere among the members of an
object and stands first in an array.  The members of an expression are all read, the unknown ones
too, before any is looked at: an expression is refused if anything in it is nested too deep, too
large or no text.  Inside another expression the kind may also be given by its number. -/

namespace EntityConventions

/-! ### Expressions -/

namespace Expr

/-- The forms of expressions. -/
inductive Form where
  | string
  | int
  | classConst
  | array
  | other
  deriving DecidableEq, Repr

namespace Form

/-- All forms, in the order of their numbers. -/
def all : List Form := [.string, .int, .classConst, .array, .other]

/-- The word for a form. -/
def word : Form → String
  | .string => "string"
  | .int => "int"
  | .classConst => "class_const"
  | .array => "array"
  | .other => "other"

/-- The fields of a form, apart from the kind. -/
def fields : Form → List String
  | .string => ["value", "line"]
  | .int => ["value", "line"]
  | .classConst => ["class", "constant", "line"]
  | .array => ["items", "line"]
  | .other => ["text", "line"]

/-- The form that a kind names; by its number only where that is `allowed`. -/
def ofJson? (numbered : Bool) (j : Json) : Option Form :=
  match j, numbered with
  | .string (some word), _ => all.find? fun f => f.word == word
  | .number (.integer false n), true => all[n]?
  | _, _ => none

end Form

/-- The form of an expression and the fields of that form. -/
def formOf? (numbered : Bool) : Json → Option (Form × Json.Record)
  | .array (kind :: rest) => do
      let form ← Form.ofJson? numbered kind
      let record ← Json.Record.ofJson form.fields (.array rest)
      return (form, record)
  | .object members => do
      let tag ← Json.Record.ofJson ["kind"] (.object members)
      let form ← tag.required "kind" (Form.ofJson? numbered)
      let record ← Json.Record.ofJson form.fields (.object members)
      return (form, record)
  | _ => none

mutual

/-- Read an expression that has passed the checks on the whole of it. -/
def ofChecked? : Nat → Bool → Json → Option Expr
  | 0, _, _ => none
  | room + 1, numbered, j => do
      let (form, record) ← formOf? numbered j
      let line ← record.optional "line" 0 Json.nat64?
      match form with
      | .string => return .string (← record.required "value" Json.text?) line
      | .int => return .int (← record.required "value" Json.int64?) line
      | .classConst =>
          let class? ← record.optional "class" none (Json.nullable Json.text?)
          let constant? ← record.optional "constant" none (Json.nullable Json.text?)
          return .classConst class? constant? line
      | .array => return .array (← record.optional "items" [] (itemsOfChecked? room)) line
      | .other => return .other (← record.optional "text" none (Json.nullable Json.text?)) line

/-- Read the items of a literal array. -/
def itemsOfChecked? : Nat → Json → Option (List (Item Expr))
  | room + 1, .array items => items.mapM (itemOfChecked? room)
  | _, _ => none

/-- Read one item of a literal array. -/
def itemOfChecked? : Nat → Json → Option (Item Expr)
  | 0, _ => none
  | room + 1, j => do
      let record ← Json.Record.ofJson ["key", "value", "line"] j
      let key ← record.optional "key" none (Json.nullable (ofChecked? room true))
      let value ← record.required "value" (ofChecked? room true)
      let line ← record.optional "line" 0 Json.nat64?
      return ⟨key, value, line⟩

end

/-- Read an expression. -/
def ofJson? (room : Nat) (j : Json) : Option Expr :=
  if j.depth ≤ room ∧ j.isClean then ofChecked? room false j else none

mutual

/-- Write an expression. -/
def toJson : Expr → Json
  | .string value line =>
      .ofMembers [("kind", .ofString "string"), ("value", .ofString value), ("line", .ofNat line)]
  | .int value line =>
      .ofMembers [("kind", .ofString "int"), ("value", .ofInt value), ("line", .ofNat line)]
  | .classConst class? constant? line =>
      .ofMembers [("kind", .ofString "class_const"), ("class", .ofOption .ofString class?),
        ("constant", .ofOption .ofString constant?), ("line", .ofNat line)]
  | .array items line =>
      .ofMembers [("kind", .ofString "array"), ("items", .array (itemsToJson items)),
        ("line", .ofNat line)]
  | .other text? line =>
      .ofMembers [("kind", .ofString "other"), ("text", .ofOption .ofString text?),
        ("line", .ofNat line)]

/-- Write the items of a literal array. -/
def itemsToJson : List (Item Expr) → List Json
  | [] => []
  | ⟨none, value, line⟩ :: items =>
      .ofMembers [("key", .null), ("value", value.toJson), ("line", .ofNat line)] ::
        itemsToJson items
  | ⟨some key, value, line⟩ :: items =>
      .ofMembers [("key", key.toJson), ("value", value.toJson), ("line", .ofNat line)] ::
        itemsToJson items

end

end Expr

/-- Write one item of a literal array. -/
def Item.toJson (item : Item Expr) : Json :=
  .ofMembers [("key", .ofOption Expr.toJson item.key), ("value", item.value.toJson),
    ("line", .ofNat item.line)]

/-! ### Attributes and properties -/

/-- Read an argument. -/
def Argument.ofJson? (room : Nat) (j : Json) : Option Argument := do
  let room ← Json.enter room
  let record ← Json.Record.ofJson ["name", "value", "line"] j
  let name ← record.optional "name" none (Json.nullable Json.text?)
  let value ← record.required "value" (Expr.ofJson? room)
  let line ← record.optional "line" 0 Json.nat64?
  return ⟨name, value, line⟩

/-- Write an argument. -/
def Argument.toJson (arg : Argument) : Json :=
  .ofMembers [("name", .ofOption .ofString arg.name), ("value", arg.value.toJson),
    ("line", .ofNat arg.line)]

/-- Read an attribute. -/
def Attribute.ofJson? (room : Nat) (j : Json) : Option Attribute := do
  let room ← Json.enter room
  let record ← Json.Record.ofJson ["name", "line", "args"] j
  let name ← record.required "name" Json.text?
  let line ← record.optional "line" 0 Json.nat64?
  let args ← record.optional "args" [] (Json.listOf Argument.ofJson? room)
  return ⟨name, line, args⟩

/-- Write an attribute. -/
def Attribute.toJson (a : Attribute) : Json :=
  .ofMembers [("name", .ofString a.name), ("line", .ofNat a.line),
    ("args", .ofList Argument.toJson a.args)]

/-- Read a property. -/
def Property.ofJson? (room : Nat) (j : Json) : Option Property := do
  let room ← Json.enter room
  let record ← Json.Record.ofJson ["name", "line", "attributes"] j
  let name ← record.required "name" Json.text?
  let line ← record.optional "line" 0 Json.nat64?
  let attributes ← record.optional "attributes" [] (Json.listOf Attribute.ofJson? room)
  return ⟨name, line, attributes⟩

/-- Write a property. -/
def Property.toJson (p : Property) : Json :=
  .ofMembers [("name", .ofString p.name), ("line", .ofNat p.line),
    ("attributes", .ofList Attribute.toJson p.attributes)]

/-! ### Classes -/

/-- Read a constructor. -/
def ConstructorSignature.ofJson? (room : Nat) (j : Json) : Option ConstructorSignature := do
  let room ← Json.enter room
  let record ← Json.Record.ofJson ["line", "parameters"] j
  let line ← record.optional "line" 0 Json.nat64?
  let parameters ← record.optional "parameters" [] (Json.listOf (fun _ => Json.text?) room)
  return ⟨line, parameters⟩

/-- Write a constructor. -/
def ConstructorSignature.toJson (c : ConstructorSignature) : Json :=
  .ofMembers [("line", .ofNat c.line), ("parameters", .ofList .ofString c.parameters)]

/-- Write a kind. -/
def ClassKind.toJson (kind : ClassKind) : Json :=
  .ofString kind.word

/-- Read a declaration. -/
def ClassDeclaration.ofJson? (room : Nat) (j : Json) : Option ClassDeclaration := do
  let room ← Json.enter room
  let record ← Json.Record.ofJson
    ["name", "kind", "line", "attributes", "properties", "constructor"] j
  let name ← record.required "name" Json.text?
  let kind ← record.optional "kind" .regular (Json.wordOf ClassKind.ofWord? room)
  let line ← record.optional "line" 0 Json.nat64?
  let attributes ← record.optional "attributes" [] (Json.listOf Attribute.ofJson? room)
  let properties ← record.optional "properties" [] (Json.listOf Property.ofJson? room)
  let constructor? ← record.optional "constructor" none
    (Json.nullable (ConstructorSignature.ofJson? room))
  return ⟨name, kind, line, attributes, properties, constructor?⟩

/-- Write a declaration. -/
def ClassDeclaration.toJson (d : ClassDeclaration) : Json :=
  .ofMembers [("name", .ofString d.name), ("kind", d.kind.toJson), ("line", .ofNat d.line),
    ("attributes", .ofList Attribute.toJson d.attributes),
    ("properties", .ofList Property.toJson d.properties),
    ("constructor", .ofOption ConstructorSignature.toJson d.constructor?)]

end EntityConventions
