import EntityConventions.Declaration.Json
import EntityConventions.Name
import EntityConventions.Path

/-! # Resolved classes

A `Reflection` is what is known of a class once its names are resolved: its file, its ancestors
and its constructor, beside its attributes.  `Reflection.isSubclassOf` and
`Reflection.hasAttribute` answer from it alone. -/

namespace EntityConventions

/-- A resolved constructor, by the number of its parameters. -/
structure ConstructorFacts where
  parameters : Nat
  line : Option Nat
  deriving DecidableEq, Repr

/-- A resolved class.  The ancestors are all parents and interfaces, also the indirect ones. -/
structure Reflection where
  name : String
  file : Option Path
  line : Nat
  isAbstract : Bool
  ancestors : List String
  constructor? : Option ConstructorFacts
  attributes : List Attribute

namespace Reflection

/-- A resolved class of which only the name is known. -/
def ofName (name : String) : Reflection :=
  ⟨name, none, 0, false, [], none, []⟩

/-- Say which file a class is in. -/
def setFile (r : Reflection) (file : Path) : Reflection :=
  { r with file := some file }

/-- Name one more ancestor. -/
def addAncestor (r : Reflection) (name : String) : Reflection :=
  { r with ancestors := r.ancestors ++ [name] }

/-- Say what is known of the constructor. -/
def setConstructor (r : Reflection) (c : ConstructorFacts) : Reflection :=
  { r with constructor? := some c }

/-- Name one more attribute. -/
def addAttribute (r : Reflection) (a : Attribute) : Reflection :=
  { r with attributes := r.attributes ++ [a] }

/-- Whether a class has another one among its ancestors, leading separators aside. -/
def isSubclassOf (r base : Reflection) : Bool :=
  let target := Name.stripLeading base.name
  r.ancestors.any fun a => Name.stripLeading a == target

/-- Whether some attribute of a class denotes a concept. -/
def hasAttribute (r : Reflection) (c : Concept) : Bool :=
  r.attributes.any fun a => c.isDenotedBy a.name

end Reflection

/-! ### As JSON values -/

/-- Read a path. -/
def Path.ofJson? (j : Json) : Option Path :=
  j.text?.map Path.mk

/-- Write a path. -/
def Path.toJson (p : Path) : Json :=
  .ofString p.text

/-- Read a resolved constructor. -/
def ConstructorFacts.ofJson? (room : Nat) (j : Json) : Option ConstructorFacts := do
  let _ ← Json.enter room
  let record ← Json.Record.ofJson ["parameters", "line"] j
  let parameters ← record.required "parameters" Json.nat64?
  let line ← record.optional "line" none (Json.nullable Json.nat64?)
  return ⟨parameters, line⟩

/-- Write a resolved constructor. -/
def ConstructorFacts.toJson (c : ConstructorFacts) : Json :=
  .ofMembers [("parameters", .ofNat c.parameters), ("line", .ofOption .ofNat c.line)]

/-- Read a resolved class. -/
def Reflection.ofJson? (room : Nat) (j : Json) : Option Reflection := do
  let room ← Json.enter room
  let record ← Json.Record.ofJson
    ["name", "file", "line", "is_abstract", "ancestors", "constructor", "attributes"] j
  let name ← record.required "name" Json.text?
  let file ← record.optional "file" none (Json.nullable Path.ofJson?)
  let line ← record.optional "line" 0 Json.nat64?
  let isAbstract ← record.optional "is_abstract" false Json.bool?
  let ancestors ← record.optional "ancestors" [] (Json.listOf (fun _ => Json.text?) room)
  let constructor? ← record.optional "constructor" none
    (Json.nullable (ConstructorFacts.ofJson? room))
  let attributes ← record.optional "attributes" [] (Json.listOf Attribute.ofJson? room)
  return ⟨name, file, line, isAbstract, ancestors, constructor?, attributes⟩

/-- Write a resolved class. -/
def Reflection.toJson (r : Reflection) : Json :=
  .ofMembers [("name", .ofString r.name), ("file", .ofOption Path.toJson r.file),
    ("line", .ofNat r.line), ("is_abstract", .bool r.isAbstract),
    ("ancestors", .ofList .ofString r.ancestors),
    ("constructor", .ofOption ConstructorFacts.toJson r.constructor?),
    ("attributes", .ofList Attribute.toJson r.attributes)]

end EntityConventions
