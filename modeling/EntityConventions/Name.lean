/-! # Names of classes and attributes

Names are qualified with `\`.  The same attribute class is written in three ways: fully
qualified, through the conventional alias of its namespace, or by its last segment alone.
A `Concept` is such a class.  `Concept.isSpelledBy` accepts exactly the three spellings;
`Concept.isDenotedBy` is generous and accepts any name with the same last segment. -/

namespace EntityConventions

namespace Name

/-- The character between the segments of a name. -/
def separator : Char := '\\'

/-- A name without one leading separator. -/
def trimLeading (name : String) : String :=
  match name.toList with
  | c :: cs => if c = separator then String.ofList cs else name
  | [] => name

/-- A name without any leading separators. -/
def stripLeading (name : String) : String :=
  String.ofList (name.toList.dropWhile (· == separator))

/-- The last segment of a name. -/
def short (name : String) : String :=
  String.ofList (name.toList.reverse.takeWhile (· != separator)).reverse

/-- The conventional aliases and the names they stand for. -/
def aliases : List (String × String) :=
  [("ORM\\Column", "Doctrine\\ORM\\Mapping\\Column"),
   ("ORM\\Entity", "Doctrine\\ORM\\Mapping\\Entity"),
   ("ORM\\Table", "Doctrine\\ORM\\Mapping\\Table"),
   ("ORM\\Index", "Doctrine\\ORM\\Mapping\\Index"),
   ("ORM\\Id", "Doctrine\\ORM\\Mapping\\Id"),
   ("ORM\\ManyToOne", "Doctrine\\ORM\\Mapping\\ManyToOne"),
   ("ORM\\OneToOne", "Doctrine\\ORM\\Mapping\\OneToOne"),
   ("ORM\\OneToMany", "Doctrine\\ORM\\Mapping\\OneToMany"),
   ("ORM\\ManyToMany", "Doctrine\\ORM\\Mapping\\ManyToMany"),
   ("ORM\\JoinColumn", "Doctrine\\ORM\\Mapping\\JoinColumn"),
   ("ORM\\JoinTable", "Doctrine\\ORM\\Mapping\\JoinTable"),
   ("Assert\\Range", "Symfony\\Component\\Validator\\Constraints\\Range")]

/-- The name that an alias stands for; any other name stands for itself. -/
def normalize (name : String) : String :=
  let name := trimLeading name
  (aliases.lookup name).getD name

/-- The class of the constants that name column types. -/
def columnTypes : String := "Doctrine\\DBAL\\Types\\Types"

end Name

/-- An attribute class, by its fully qualified name and its conventional alias. -/
structure Concept where
  qualified : String
  aliased : Option String
  deriving DecidableEq, Repr

namespace Concept

/-- The last segment of a concept's name. -/
def short (c : Concept) : String :=
  Name.short c.qualified

/-- Whether a written name denotes the concept: by its qualified name, through an alias, or by
its last segment. -/
def isDenotedBy (c : Concept) (name : String) : Bool :=
  let name := Name.trimLeading name
  name == c.qualified || Name.normalize name == c.qualified || c.aliased == some name ||
    Name.short name == c.short

/-- Whether a written name is one of the three spellings of the concept. -/
def isSpelledBy (c : Concept) (name : String) : Bool :=
  let name := Name.trimLeading name
  name == c.qualified || c.aliased == some name || name == c.short

/-- A mapped column. -/
def column : Concept := ⟨"Doctrine\\ORM\\Mapping\\Column", some "ORM\\Column"⟩

/-- A class mapped to stored records. -/
def entity : Concept := ⟨"Doctrine\\ORM\\Mapping\\Entity", some "ORM\\Entity"⟩

/-- The table of an entity. -/
def table : Concept := ⟨"Doctrine\\ORM\\Mapping\\Table", some "ORM\\Table"⟩

/-- An index of a table. -/
def index : Concept := ⟨"Doctrine\\ORM\\Mapping\\Index", some "ORM\\Index"⟩

/-- A many-to-one association. -/
def manyToOne : Concept := ⟨"Doctrine\\ORM\\Mapping\\ManyToOne", some "ORM\\ManyToOne"⟩

/-- A one-to-one association. -/
def oneToOne : Concept := ⟨"Doctrine\\ORM\\Mapping\\OneToOne", some "ORM\\OneToOne"⟩

/-- A many-to-many association. -/
def manyToMany : Concept := ⟨"Doctrine\\ORM\\Mapping\\ManyToMany", some "ORM\\ManyToMany"⟩

/-- The marker of a single indexed column. -/
def indexColumn : Concept := ⟨"Tourze\\DoctrineIndexedBundle\\Attribute\\IndexColumn", none⟩

/-- The constraint that bounds a value. -/
def range : Concept :=
  ⟨"Symfony\\Component\\Validator\\Constraints\\Range", some "Assert\\Range"⟩

/-- The class that a test case covers. -/
def coversClass : Concept := ⟨"PHPUnit\\Framework\\Attributes\\CoversClass", none⟩

end Concept

end EntityConventions
