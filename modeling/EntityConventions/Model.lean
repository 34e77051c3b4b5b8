import EntityConventions.Json.Printer
import EntityConventions.Json.Reader
import EntityConventions.Reflection

/-! # Model documents

A `Model` is the JSON document by which classes are handed over: each entry pairs a resolved
class with its declaration, if it is to be checked; entries without a declaration can only be
referred to.  `Model.parse` reads a document and settles the file of each entry in favour of the
entry's own; `Model.toJson` writes one. -/

namespace EntityConventions

/-- One class of a document. -/
structure ClassEntry where
  file? : Option Path
  declaration? : Option ClassDeclaration
  reflection : Reflection

namespace ClassEntry

/-- The file of an entry: its own, or else that of the resolved class. -/
def file (e : ClassEntry) : Option Path :=
  e.file?.or e.reflection.file

/-- Give the resolved class the file of its entry, if the entry has one. -/
def settleFile (e : ClassEntry) : ClassEntry :=
  match e.file? with
  | some file => { e with reflection := { e.reflection with file := some file } }
  | none => e

/-- Read an entry. -/
def ofJson? (room : Nat) (j : Json) : Option ClassEntry := do
  let room ← Json.enter room
  let record ← Json.Record.ofJson ["file", "declaration", "reflection"] j
  let file? ← record.optional "file" none (Json.nullable Path.ofJson?)
  let declaration? ← record.optional "declaration" none
    (Json.nullable (ClassDeclaration.ofJson? room))
  let reflection ← record.required "reflection" (Reflection.ofJson? room)
  return ⟨file?, declaration?, reflection⟩

/-- Write an entry. -/
def toJson (e : ClassEntry) : Json :=
  .ofMembers [("file", .ofOption Path.toJson e.file?),
    ("declaration", .ofOption ClassDeclaration.toJson e.declaration?),
    ("reflection", e.reflection.toJson)]

end ClassEntry

/-- A document: all its classes, to be checked or to be referred to. -/
structure Model where
  classes : List ClassEntry

namespace Model

/-- Read a document as it is written. -/
def ofJson? (room : Nat) (j : Json) : Option Model := do
  let room ← Json.enter room
  let record ← Json.Record.ofJson ["classes"] j
  let classes ← record.optional "classes" [] (Json.listOf ClassEntry.ofJson? room)
  return ⟨classes⟩

/-- Write a document. -/
def toJson (m : Model) : Json :=
  .ofMembers [("classes", .ofList ClassEntry.toJson m.classes)]

/-- Settle the file of each entry. -/
def settleFiles (m : Model) : Model :=
  ⟨m.classes.map ClassEntry.settleFile⟩

/-- The document that a text spells. -/
def parse (text : String) : Option Model := do
  let j ← Json.parse text
  let m ← ofJson? Json.maxDepth j
  return m.settleFiles

/-- The text of a document. -/
def print (m : Model) : String :=
  m.toJson.compact

/-- The number of entries with a declaration. -/
def declaredCount (m : Model) : Nat :=
  m.classes.countP fun e => e.declaration?.isSome

end Model

end EntityConventions
