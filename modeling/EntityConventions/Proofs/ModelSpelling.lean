import EntityConventions.Model
import EntityConventions.Proofs.JsonRecord
import Mathlib.Algebra.Ring.Int.Defs
import Mathlib.Algebra.Ring.Nat

/-! # Spellings of documents

For every type of a document, `SpelledBy` says which JSON values spell one of its values.  The
types are records, so each of them is spelled as an object or as an array, independently of how the
records inside it are spelled.  An expression is a record whose first field is its kind; unlike
elsewhere, the other members inside an expression have to be clean.

`Fits` says that lines, counts and integers have at most sixty-four bits.

What is written for a value is one of its spellings: an object with all fields, in their order
(`Expr.spelledBy_toJson`, …, `Model.spelledBy_toJson`). -/

namespace EntityConventions

open Json (nullableSpelling listSpelling nullableSpelling_ofOption listSpelling_ofList)
open Json.Record (Field mandatory defaulted Spelling)

/-! ### Numbers that fit -/

/-- A number has at most sixty-four bits. -/
def IsWord (n : Nat) : Prop :=
  n < 2 ^ 64

/-- An integer has at most sixty-four bits, one of them for the sign. -/
def IsSignedWord (i : Int) : Prop :=
  -2 ^ 63 ≤ i ∧ i < 2 ^ 63

mutual

/-- All numbers in an expression fit. -/
def Expr.Fits : Expr → Prop
  | .string _ line => IsWord line
  | .int value line => IsSignedWord value ∧ IsWord line
  | .classConst _ _ line => IsWord line
  | .array items line => Expr.ItemsFit items ∧ IsWord line
  | .other _ line => IsWord line

/-- All numbers in the items of a literal array fit. -/
def Expr.ItemsFit : List (Item Expr) → Prop
  | [] => True
  | ⟨none, value, line⟩ :: items => (value.Fits ∧ IsWord line) ∧ Expr.ItemsFit items
  | ⟨some key, value, line⟩ :: items =>
      (key.Fits ∧ value.Fits ∧ IsWord line) ∧ Expr.ItemsFit items

end

/-- All numbers in an argument fit. -/
structure Argument.Fits (arg : Argument) : Prop where
  value : arg.value.Fits
  line : IsWord arg.line

/-- All numbers in an attribute fit. -/
structure Attribute.Fits (a : Attribute) : Prop where
  line : IsWord a.line
  args : ∀ arg ∈ a.args, arg.Fits

/-- All numbers in a property fit. -/
structure Property.Fits (p : Property) : Prop where
  line : IsWord p.line
  attributes : ∀ a ∈ p.attributes, a.Fits

/-- All numbers in a declaration fit. -/
structure ClassDeclaration.Fits (d : ClassDeclaration) : Prop where
  line : IsWord d.line
  attributes : ∀ a ∈ d.attributes, a.Fits
  properties : ∀ p ∈ d.properties, p.Fits
  constructorLine : ∀ c ∈ d.constructor?, IsWord c.line

/-- The numbers of a resolved constructor fit. -/
structure ConstructorFacts.Fits (c : ConstructorFacts) : Prop where
  parameters : IsWord c.parameters
  line : ∀ n ∈ c.line, IsWord n

/-- All numbers in a resolved class fit. -/
structure Reflection.Fits (r : Reflection) : Prop where
  line : IsWord r.line
  constructorFacts : ∀ c ∈ r.constructor?, c.Fits
  attributes : ∀ a ∈ r.attributes, a.Fits

/-- All numbers in an entry fit. -/
structure ClassEntry.Fits (e : ClassEntry) : Prop where
  declaration : ∀ d ∈ e.declaration?, d.Fits
  reflection : e.reflection.Fits

/-- All numbers in a document fit. -/
def Model.Fits (m : Model) : Prop :=
  ∀ e ∈ m.classes, e.Fits

/-! ### Spellings -/

/-- The members of a record that are not known may hold anything. -/
def anything (_ : Json) : Prop :=
  True

/-- The members of an expression that are not known have to be texts and numbers of its reader. -/
def clean (j : Json) : Prop :=
  j.isClean = true

/-- A text is spelled by a string. -/
def textSpelling (text : String) (j : Json) : Prop :=
  j = .ofString text

/-- A path is spelled by its text. -/
def pathSpelling (path : Path) (j : Json) : Prop :=
  j = .ofString path.text

/-- A number is spelled by itself. -/
def natSpelling (n : Nat) (j : Json) : Prop :=
  j = .ofNat n

/-- The kind of an expression, which is always written. -/
def kindField (word : String) : Field :=
  ("kind", mandatory (textSpelling word))

/-- The line of a node, zero if it is not written. -/
def lineField (line : Nat) : Field :=
  ("line", defaulted line 0 (natSpelling line))

mutual

/-- The values that spell an expression. -/
def Expr.SpelledBy : Expr → Json → Prop
  | .string value line => Spelling clean
      [kindField "string", ("value", mandatory (textSpelling value)), lineField line]
  | .int value line => Spelling clean
      [kindField "int", ("value", mandatory fun j => j = .ofInt value), lineField line]
  | .classConst class? constant? line => Spelling clean
      [kindField "class_const", ("class", defaulted class? none (nullableSpelling textSpelling class?)),
        ("constant", defaulted constant? none (nullableSpelling textSpelling constant?)),
        lineField line]
  | .array items line => Spelling clean
      [kindField "array",
        ("items", defaulted items [] fun j => ∃ js, j = .array js ∧ Expr.ItemsSpelledBy items js),
        lineField line]
  | .other text? line => Spelling clean
      [kindField "other", ("text", defaulted text? none (nullableSpelling textSpelling text?)),
        lineField line]

/-- The lists of values that spell the items of a literal array, one by one. -/
def Expr.ItemsSpelledBy : List (Item Expr) → List Json → Prop
  | [], js => js = []
  | ⟨none, value, line⟩ :: items, js => ∃ j rest, js = j :: rest ∧
      Spelling clean [("key", defaulted (none : Option Expr) none fun j => j = .null),
        ("value", mandatory value.SpelledBy), lineField line] j ∧
      Expr.ItemsSpelledBy items rest
  | ⟨some key, value, line⟩ :: items, js => ∃ j rest, js = j :: rest ∧
      Spelling clean [("key", defaulted (some key) none key.SpelledBy),
        ("value", mandatory value.SpelledBy), lineField line] j ∧
      Expr.ItemsSpelledBy items rest

end

/-- The values that spell an argument. -/
def Argument.SpelledBy (arg : Argument) : Json → Prop :=
  Spelling anything
    [("name", defaulted arg.name none (nullableSpelling textSpelling arg.name)),
      ("value", mandatory arg.value.SpelledBy), lineField arg.line]

/-- The values that spell an attribute. -/
def Attribute.SpelledBy (a : Attribute) : Json → Prop :=
  Spelling anything
    [("name", mandatory (textSpelling a.name)), lineField a.line,
      ("args", defaulted a.args [] (listSpelling Argument.SpelledBy a.args))]

/-- The values that spell a property. -/
def Property.SpelledBy (p : Property) : Json → Prop :=
  Spelling anything
    [("name", mandatory (textSpelling p.name)), lineField p.line,
      ("attributes", defaulted p.attributes [] (listSpelling Attribute.SpelledBy p.attributes))]

/-- The values that spell a constructor. -/
def ConstructorSignature.SpelledBy (c : ConstructorSignature) : Json → Prop :=
  Spelling anything
    [lineField c.line,
      ("parameters", defaulted c.parameters [] (listSpelling textSpelling c.parameters))]

/-- The values that spell a declaration. -/
def ClassDeclaration.SpelledBy (d : ClassDeclaration) : Json → Prop :=
  Spelling anything
    [("name", mandatory (textSpelling d.name)),
      ("kind", defaulted d.kind .regular (textSpelling d.kind.word)), lineField d.line,
      ("attributes", defaulted d.attributes [] (listSpelling Attribute.SpelledBy d.attributes)),
      ("properties", defaulted d.properties [] (listSpelling Property.SpelledBy d.properties)),
      ("constructor", defaulted d.constructor? none
        (nullableSpelling ConstructorSignature.SpelledBy d.constructor?))]

/-- The values that spell a resolved constructor. -/
def ConstructorFacts.SpelledBy (c : ConstructorFacts) : Json → Prop :=
  Spelling anything
    [("parameters", mandatory (natSpelling c.parameters)),
      ("line", defaulted c.line none (nullableSpelling natSpelling c.line))]

/-- The values that spell a resolved class. -/
def Reflection.SpelledBy (r : Reflection) : Json → Prop :=
  Spelling anything
    [("name", mandatory (textSpelling r.name)),
      ("file", defaulted r.file none (nullableSpelling pathSpelling r.file)), lineField r.line,
      ("is_abstract", defaulted r.isAbstract false fun j => j = .bool r.isAbstract),
      ("ancestors", defaulted r.ancestors [] (listSpelling textSpelling r.ancestors)),
      ("constructor", defaulted r.constructor? none
        (nullableSpelling ConstructorFacts.SpelledBy r.constructor?)),
      ("attributes", defaulted r.attributes [] (listSpelling Attribute.SpelledBy r.attributes))]

/-- The values that spell an entry. -/
def ClassEntry.SpelledBy (e : ClassEntry) : Json → Prop :=
  Spelling anything
    [("file", defaulted e.file? none (nullableSpelling pathSpelling e.file?)),
      ("declaration", defaulted e.declaration? none
        (nullableSpelling ClassDeclaration.SpelledBy e.declaration?)),
      ("reflection", mandatory e.reflection.SpelledBy)]

/-- The values that spell a document. -/
def Model.SpelledBy (m : Model) : Json → Prop :=
  Spelling anything [("classes", defaulted m.classes [] (listSpelling ClassEntry.SpelledBy m.classes))]

/-! ### What is written is a spelling -/

theorem textSpelling_ofString (text : String) : textSpelling text (.ofString text) := rfl

theorem pathSpelling_toJson (path : Path) : pathSpelling path path.toJson := rfl

theorem natSpelling_ofNat (n : Nat) : natSpelling n (.ofNat n) := rfl

mutual

theorem Expr.spelledBy_toJson : ∀ e : Expr, e.SpelledBy e.toJson
  | .string _ _ => .of_chosen (.written rfl (.written rfl (.written rfl .nil)))
  | .int _ _ => .of_chosen (.written rfl (.written rfl (.written rfl .nil)))
  | .classConst class? constant? _ => by
      refine .of_chosen (.written rfl (.written ?_ (.written ?_ (.written rfl .nil))))
      · exact nullableSpelling_ofOption textSpelling_ofString class?
      · exact nullableSpelling_ofOption textSpelling_ofString constant?
  | .array items _ => by
      refine .of_chosen (.written rfl (.written ?_ (.written rfl .nil)))
      exact ⟨itemsToJson items, rfl, Expr.itemsSpelledBy_itemsToJson items⟩
  | .other text? _ => by
      refine .of_chosen (.written rfl (.written ?_ (.written rfl .nil)))
      exact nullableSpelling_ofOption textSpelling_ofString text?

theorem Expr.itemsSpelledBy_itemsToJson : ∀ items : List (Item Expr),
    ItemsSpelledBy items (itemsToJson items)
  | [] => rfl
  | ⟨none, value, _⟩ :: items => by
      refine ⟨_, _, rfl, ?_, Expr.itemsSpelledBy_itemsToJson items⟩
      exact .of_chosen (.written rfl (.written (Expr.spelledBy_toJson value) (.written rfl .nil)))
  | ⟨some key, value, _⟩ :: items => by
      refine ⟨_, _, rfl, ?_, Expr.itemsSpelledBy_itemsToJson items⟩
      exact .of_chosen (.written (Expr.spelledBy_toJson key)
        (.written (Expr.spelledBy_toJson value) (.written rfl .nil)))

end

theorem Argument.spelledBy_toJson (arg : Argument) : arg.SpelledBy arg.toJson := by
  refine .of_chosen (.written ?_ (.written arg.value.spelledBy_toJson (.written rfl .nil)))
  exact nullableSpelling_ofOption textSpelling_ofString arg.name

theorem Attribute.spelledBy_toJson (a : Attribute) : a.SpelledBy a.toJson := by
  refine .of_chosen (.written rfl (.written rfl (.written ?_ .nil)))
  exact listSpelling_ofList Argument.spelledBy_toJson a.args

theorem Property.spelledBy_toJson (p : Property) : p.SpelledBy p.toJson := by
  refine .of_chosen (.written rfl (.written rfl (.written ?_ .nil)))
  exact listSpelling_ofList Attribute.spelledBy_toJson p.attributes

theorem ConstructorSignature.spelledBy_toJson (c : ConstructorSignature) :
    c.SpelledBy c.toJson := by
  refine .of_chosen (.written rfl (.written ?_ .nil))
  exact listSpelling_ofList textSpelling_ofString c.parameters

theorem ClassDeclaration.spelledBy_toJson (d : ClassDeclaration) : d.SpelledBy d.toJson := by
  refine .of_chosen (.written rfl (.written rfl (.written rfl (.written ?_ (.written ?_
    (.written ?_ .nil))))))
  · exact listSpelling_ofList Attribute.spelledBy_toJson d.attributes
  · exact listSpelling_ofList Property.spelledBy_toJson d.properties
  · exact nullableSpelling_ofOption ConstructorSignature.spelledBy_toJson d.constructor?

theorem ConstructorFacts.spelledBy_toJson (c : ConstructorFacts) : c.SpelledBy c.toJson := by
  refine .of_chosen (.written rfl (.written ?_ .nil))
  exact nullableSpelling_ofOption natSpelling_ofNat c.line

theorem Reflection.spelledBy_toJson (c : Reflection) : c.SpelledBy c.toJson := by
  refine .of_chosen (.written rfl (.written ?_ (.written rfl (.written rfl (.written ?_
    (.written ?_ (.written ?_ .nil)))))))
  · exact nullableSpelling_ofOption pathSpelling_toJson c.file
  · exact listSpelling_ofList textSpelling_ofString c.ancestors
  · exact nullableSpelling_ofOption ConstructorFacts.spelledBy_toJson c.constructor?
  · exact listSpelling_ofList Attribute.spelledBy_toJson c.attributes

theorem ClassEntry.spelledBy_toJson (e : ClassEntry) : e.SpelledBy e.toJson := by
  refine .of_chosen (.written ?_ (.written ?_ (.written e.reflection.spelledBy_toJson .nil)))
  · exact nullableSpelling_ofOption pathSpelling_toJson e.file?
  · exact nullableSpelling_ofOption ClassDeclaration.spelledBy_toJson e.declaration?

theorem Model.spelledBy_toJson (m : Model) : m.SpelledBy m.toJson := by
  refine .of_chosen (.written ?_ .nil)
  exact listSpelling_ofList ClassEntry.spelledBy_toJson m.classes

end EntityConventions
