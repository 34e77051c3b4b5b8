import EntityConventions.Rule.Violation

/-! # Names of indexes start with the table

An index of an entity whose table is named by a string has to be called after it: table, underscore
and more.  An index with another literal name is objected to. -/

namespace EntityConventions.IndexNamePrefix

/-- An index that is not called after its table. -/
def identifier : String := "doctrine.indexName.prefix"

/-- The literal name of the table: that of the first table attribute. -/
def tableName? (d : ClassDeclaration) : Option String :=
  (d.attributes.find? fun a => Concept.table.isSpelledBy a.name).bind fun a =>
    a.namedString? "name"

/-- The objection to one index. -/
def indexViolation? (className table : String) (a : Attribute) : Option Violation :=
  match a.namedString? "name" with
  | none => none
  | some index =>
      if (table ++ "_").toList.isPrefixOf index.toList then none
      else some {
        identifier := identifier
        line := a.line
        message := "Index \"" ++ index ++ "\" in entity \"" ++ className ++
          "\" must be prefixed with the table name \"" ++ table ++ "_\"."
        tip := some ("Rename the index to something like \"" ++ table ++ "_" ++ index ++ "\".") }

/-- The objections to the indexes of an entity. -/
def violations (ctx : ClassContext) : List Violation :=
  match ctx.scope.current, tableName? ctx.declaration with
  | some current, some table =>
      if ctx.classifier.isEntity current && ctx.declaration.kind = .regular then
        (ctx.declaration.attributes.filter fun a => Concept.index.isSpelledBy a.name).filterMap
          (indexViolation? current.name table)
      else []
  | _, _ => []

end EntityConventions.IndexNamePrefix
