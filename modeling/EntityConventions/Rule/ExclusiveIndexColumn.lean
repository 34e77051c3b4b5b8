import EntityConventions.Rule.Violation

/-! # Associations are not marked as indexed

The column of an association has an index already.  A property of an entity that carries the
marker of an indexed column is objected to once for each association beside it. -/

namespace EntityConventions.ExclusiveIndexColumn

/-- A marker beside an association. -/
def identifier : String := "doctrine.indexColumn.mutuallyExclusive"

/-- The associations whose columns have an index. -/
def associations : List Concept := [Concept.manyToOne, Concept.oneToOne, Concept.manyToMany]

/-- Whether a name denotes an association. -/
def isAssociation (name : String) : Bool :=
  associations.any fun c => c.isDenotedBy name

/-- The associations of a property that carries the marker. -/
def conflicts (marker : Concept) (p : Property) : List Attribute :=
  if p.attributes.any fun a => marker.isDenotedBy a.name then
    p.attributes.filter fun a => isAssociation a.name
  else []

/-- The objection to one association. -/
def conflictViolation (marker : Concept) (className : String) (p : Property) (a : Attribute) :
    Violation where
  identifier := identifier
  line := bestLine [some p.line, p.attributes.head?.map Attribute.line]
  message := "Property \"" ++ p.name ++ "\" of entity \"" ++ className ++ "\" uses both #[" ++
    marker.short ++ "] and #[" ++ Name.short a.name ++
    "]; these attributes are mutually exclusive."
  tip := some ("Associations already get a foreign-key index. Remove #[" ++ marker.short ++
    "] from property \"" ++ p.name ++ "\".")

/-- The objections to the properties of an entity, for the marker with a given name. -/
def violations (markerName : String) (ctx : ClassContext) : List Violation :=
  if ctx.isEntity then
    let marker : Concept := ⟨markerName, none⟩
    ctx.declaration.properties.flatMap fun p =>
      (conflicts marker p).map (conflictViolation marker ctx.className p)
  else []

end EntityConventions.ExclusiveIndexColumn
