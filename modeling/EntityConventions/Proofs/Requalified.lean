import EntityConventions.Proofs.Resolution
import EntityConventions.ClassContext
import EntityConventions.Rule.Violation
import Mathlib.Data.List.Forall2

/-! # Documents with separators put in front of names

For every type of a document, `Requalified` relates a value to the values that differ from it by
separators put in front of some names: of resolved classes and their ancestors, of the classes in
class constants, and of attributes that do not start with a separator; an argument of a covers
attribute may also be a text with a separator in front.  All else is the same.

Related values agree on all that the roles of classes and the class index read off them: which
concepts an attribute denotes or spells (`Attribute.Requalified.isDenotedBy_eq`, `isSpelledBy_eq`),
the keys, lines and texts of arguments, whether a class is an entity or a test case, which class it
covers (`Reflection.Requalified.isEntity_eq`, `isTest_eq`, `covered?_eq`), and what a name resolves
to (`ClassIndex.get?_related`). -/

namespace EntityConventions

/-! ### Related lists and options -/

section related

variable {α β γ : Type} {R : α → β → Prop} {l : List α} {m : List β}

theorem map_eq_of_forall₂ (h : List.Forall₂ R l m) {f : α → γ} {g : β → γ}
    (hfg : ∀ a b, R a b → f a = g b) : l.map f = m.map g := by
  induction h with
  | nil => rfl
  | cons hab _ ih => rw [List.map_cons, List.map_cons, hfg _ _ hab, ih]

theorem any_eq_of_forall₂ (h : List.Forall₂ R l m) {p : α → Bool} {q : β → Bool}
    (hpq : ∀ a b, R a b → p a = q b) : l.any p = m.any q := by
  have hmap := map_eq_of_forall₂ h hpq
  rw [← Function.id_comp p, ← List.any_map, hmap, List.any_map, Function.id_comp]

theorem countP_eq_of_forall₂ (h : List.Forall₂ R l m) {p : α → Bool} {q : β → Bool}
    (hpq : ∀ a b, R a b → p a = q b) : l.countP p = m.countP q := by
  have hmap := map_eq_of_forall₂ h hpq
  rw [← Function.id_comp p, ← List.countP_map, hmap, List.countP_map, Function.id_comp]

theorem filterMap_eq_of_forall₂ (h : List.Forall₂ R l m) {f : α → Option γ} {g : β → Option γ}
    (hfg : ∀ a b, R a b → f a = g b) : l.filterMap f = m.filterMap g := by
  have hmap := map_eq_of_forall₂ h hfg
  rw [← Function.id_comp f, ← List.filterMap_map, hmap, List.filterMap_map, Function.id_comp]

theorem flatMap_eq_of_forall₂ (h : List.Forall₂ R l m) {f : α → List γ} {g : β → List γ}
    (hfg : ∀ a b, R a b → f a = g b) : l.flatMap f = m.flatMap g := by
  rw [List.flatMap_def, map_eq_of_forall₂ h hfg, ← List.flatMap_def]

theorem find?_related (h : List.Forall₂ R l m) {p : α → Bool} {q : β → Bool}
    (hpq : ∀ a b, R a b → p a = q b) : Option.Rel R (l.find? p) (m.find? q) := by
  induction h with
  | nil => exact .none
  | @cons a b _ _ hab _ ih =>
      rw [List.find?_cons, List.find?_cons, ← hpq a b hab]
      cases p a with
      | true => exact .some hab
      | false => exact ih

theorem head?_related (h : List.Forall₂ R l m) : Option.Rel R l.head? m.head? := by
  cases h with
  | nil => exact .none
  | cons hab _ => exact .some hab

theorem related_cases {a : Option α} {b : Option β} (h : Option.Rel R a b) :
    (a = none ∧ b = none) ∨ ∃ x y, a = some x ∧ b = some y ∧ R x y := by
  cases h with
  | some hab => exact Or.inr ⟨_, _, rfl, rfl, hab⟩
  | none => exact Or.inl ⟨rfl, rfl⟩

theorem or_related {a a' : Option α} {b b' : Option β} (h : Option.Rel R a b)
    (h' : Option.Rel R a' b') : Option.Rel R (a.or a') (b.or b') := by
  cases h with
  | some hab => exact .some hab
  | none => exact h'

theorem optionMap_related {δ : Type} {S : γ → δ → Prop} {a : Option α} {b : Option β}
    (h : Option.Rel R a b) {f : α → γ} {g : β → δ} (hfg : ∀ x y, R x y → S (f x) (g y)) :
    Option.Rel S (a.map f) (b.map g) := by
  cases h with
  | some hab => exact .some (hfg _ _ hab)
  | none => exact .none

theorem optionBind_related {δ : Type} {S : γ → δ → Prop} {a : Option α} {b : Option β}
    (h : Option.Rel R a b) {f : α → Option γ} {g : β → Option δ}
    (hfg : ∀ x y, R x y → Option.Rel S (f x) (g y)) : Option.Rel S (a.bind f) (b.bind g) := by
  cases h with
  | some hab => exact hfg _ _ hab
  | none => exact .none

theorem isSome_eq_of_rel {a : Option α} {b : Option β} (h : Option.Rel R a b) :
    a.isSome = b.isSome := by
  cases h <;> rfl

theorem optionMap_eq_of_rel {a : Option α} {b : Option β} (h : Option.Rel R a b) {f : α → γ}
    {g : β → γ} (hfg : ∀ x y, R x y → f x = g y) : a.map f = b.map g := by
  cases h with
  | some hab => exact congrArg some (hfg _ _ hab)
  | none => rfl

theorem optionBind_eq_of_rel {a : Option α} {b : Option β} (h : Option.Rel R a b)
    {f : α → Option γ} {g : β → Option γ} (hfg : ∀ x y, R x y → f x = g y) :
    a.bind f = b.bind g := by
  cases h with
  | some hab => exact hfg _ _ hab
  | none => rfl

end related

/-! ### Names -/

namespace Name

/-- A name behind one more separator. -/
def qualify (name : String) : String :=
  String.ofList (separator :: name.toList)

/-- The same name, or that name behind one more separator. -/
def Requalified (name name' : String) : Prop :=
  name' = name ∨ name' = qualify name

/-- The same name, or that name behind a separator if it does not start with one. -/
def RequalifiedOnce (name name' : String) : Prop :=
  name' = name ∨ name.toList.head? ≠ some separator ∧ name' = qualify name

theorem toList_qualify (name : String) : (qualify name).toList = separator :: name.toList :=
  String.toList_ofList

theorem trimLeading_qualify (name : String) : trimLeading (qualify name) = name := by
  simp [trimLeading, toList_qualify]

theorem trimLeading_of_head? {name : String} (h : name.toList.head? ≠ some separator) :
    trimLeading name = name := by
  unfold trimLeading
  split
  · rename_i c cs hname
    rw [hname, List.head?_cons] at h
    rw [if_neg fun hc => h (congrArg some hc)]
  · rfl

theorem trimLeading_suffix (name : String) : (trimLeading name).toList <:+ name.toList := by
  unfold trimLeading
  split
  · rename_i c cs hname
    split
    · rw [String.toList_ofList, hname]
      exact List.suffix_cons c cs
    · exact List.suffix_rfl
  · exact List.suffix_rfl

theorem RequalifiedOnce.trimLeading_eq {name name' : String} (h : RequalifiedOnce name name') :
    trimLeading name = trimLeading name' := by
  rcases h with rfl | ⟨hhead, rfl⟩
  · rfl
  · rw [trimLeading_qualify, trimLeading_of_head? hhead]

theorem stripLeading_qualify (name : String) :
    stripLeading (qualify name) = stripLeading name := by
  simp [stripLeading, toList_qualify]

theorem short_qualify (name : String) : short (qualify name) = short name := by
  have hstop : ∀ cs : List Char,
      (cs ++ [separator]).takeWhile (· != separator) = cs.takeWhile (· != separator) := by
    intro cs
    induction cs with
    | nil => simp
    | cons c cs ih => rw [List.cons_append, List.takeWhile_cons, List.takeWhile_cons, ih]
  rw [short, toList_qualify, List.reverse_cons, hstop]
  rfl

namespace Requalified

variable {name name' : String}

theorem stripLeading_eq (h : Requalified name name') : stripLeading name = stripLeading name' := by
  rcases h with rfl | rfl
  · rfl
  · rw [stripLeading_qualify]

theorem short_eq (h : Requalified name name') : short name = short name' := by
  rcases h with rfl | rfl
  · rfl
  · rw [short_qualify]

end Requalified

end Name

/-! ### Declarations -/

mutual

/-- Expressions that differ in the classes of class constants. -/
inductive Expr.Requalified : Expr → Expr → Prop
  | string (value : String) (line : Nat) :
      Expr.Requalified (.string value line) (.string value line)
  | int (value : Int) (line : Nat) : Expr.Requalified (.int value line) (.int value line)
  | classConst {class? class?' : Option String} (constant? : Option String) (line : Nat)
      (h : Option.Rel Name.Requalified class? class?') :
      Expr.Requalified (.classConst class? constant? line) (.classConst class?' constant? line)
  | array {items items' : List (Item Expr)} (line : Nat)
      (h : Expr.ItemsRequalified items items') :
      Expr.Requalified (.array items line) (.array items' line)
  | other (text? : Option String) (line : Nat) :
      Expr.Requalified (.other text? line) (.other text? line)

/-- Items of literal arrays whose keys and values differ in that way. -/
inductive Expr.ItemsRequalified : List (Item Expr) → List (Item Expr) → Prop
  | nil : Expr.ItemsRequalified [] []
  | positional {value value' : Expr} {items items' : List (Item Expr)} (line : Nat)
      (hvalue : Expr.Requalified value value') (h : Expr.ItemsRequalified items items') :
      Expr.ItemsRequalified (⟨none, value, line⟩ :: items) (⟨none, value', line⟩ :: items')
  | keyed {key key' value value' : Expr} {items items' : List (Item Expr)} (line : Nat)
      (hkey : Expr.Requalified key key') (hvalue : Expr.Requalified value value')
      (h : Expr.ItemsRequalified items items') :
      Expr.ItemsRequalified (⟨some key, value, line⟩ :: items) (⟨some key', value', line⟩ :: items')

end

/-- Arguments whose values differ in that way; the text in an argument of a covers attribute may
get a separator as well. -/
inductive Argument.Requalified (covers : Bool) : Argument → Argument → Prop
  | value (name : Option String) {value value' : Expr} (line : Nat)
      (h : value.Requalified value') :
      Argument.Requalified covers ⟨name, value, line⟩ ⟨name, value', line⟩
  | target (name : Option String) (text : String) (textLine line : Nat) (h : covers = true) :
      Argument.Requalified covers ⟨name, .string text textLine, line⟩
        ⟨name, .string (Name.qualify text) textLine, line⟩

/-- Attributes that differ in their names and their arguments. -/
structure Attribute.Requalified (a b : Attribute) : Prop where
  name : Name.RequalifiedOnce a.name b.name
  line : a.line = b.line
  args : List.Forall₂ (Argument.Requalified (Concept.coversClass.isDenotedBy a.name)) a.args b.args

/-- Properties that differ in their attributes. -/
structure Property.Requalified (p q : Property) : Prop where
  name : p.name = q.name
  line : p.line = q.line
  attributes : List.Forall₂ Attribute.Requalified p.attributes q.attributes

/-- Declarations that differ in their attributes and those of their properties. -/
structure ClassDeclaration.Requalified (d d' : ClassDeclaration) : Prop where
  name : d.name = d'.name
  kind : d.kind = d'.kind
  line : d.line = d'.line
  attributes : List.Forall₂ Attribute.Requalified d.attributes d'.attributes
  properties : List.Forall₂ Property.Requalified d.properties d'.properties
  signature : d.constructor? = d'.constructor?

/-! ### Resolved classes and documents -/

/-- Resolved classes that differ in their names, their ancestors and their attributes. -/
structure Reflection.Requalified (r s : Reflection) : Prop where
  name : Name.Requalified r.name s.name
  file : r.file = s.file
  line : r.line = s.line
  isAbstract : r.isAbstract = s.isAbstract
  ancestors : List.Forall₂ Name.Requalified r.ancestors s.ancestors
  facts : r.constructor? = s.constructor?
  attributes : List.Forall₂ Attribute.Requalified r.attributes s.attributes

/-- Entries that differ in their declarations and resolved classes. -/
structure ClassEntry.Requalified (e f : ClassEntry) : Prop where
  file : e.file? = f.file?
  declaration : Option.Rel ClassDeclaration.Requalified e.declaration? f.declaration?
  reflection : e.reflection.Requalified f.reflection

/-- Documents that differ in their entries. -/
def Model.Requalified (m n : Model) : Prop :=
  List.Forall₂ ClassEntry.Requalified m.classes n.classes

/-! ### Expressions and arguments -/

/-- Items that differ in their keys and values. -/
structure Item.Requalified (i j : Item Expr) : Prop where
  key : Option.Rel Expr.Requalified i.key j.key
  value : i.value.Requalified j.value
  line : i.line = j.line

namespace Expr

theorem ItemsRequalified.forall₂ : ∀ {items items' : List (Item Expr)},
    ItemsRequalified items items' → List.Forall₂ Item.Requalified items items'
  | _, _, .nil => .nil
  | _, _, .positional _ hvalue h => .cons ⟨.none, hvalue, rfl⟩ h.forall₂
  | _, _, .keyed _ hkey hvalue h => .cons ⟨.some hkey, hvalue, rfl⟩ h.forall₂

namespace Requalified

variable {e f : Expr}

theorem line_eq (h : e.Requalified f) : e.line = f.line := by
  cases h <;> rfl

theorem string?_eq (h : e.Requalified f) : e.string? = f.string? := by
  cases h <;> rfl

theorem items?_related (h : e.Requalified f) :
    Option.Rel (List.Forall₂ Item.Requalified) e.items? f.items? := by
  cases h with
  | array line h => exact .some h.forall₂
  | _ => exact .none

end Requalified

end Expr

theorem Item.Requalified.stringKey?_eq {i j : Item Expr} (h : i.Requalified j) :
    i.stringKey? = j.stringKey? :=
  optionBind_eq_of_rel h.key fun _ _ h => h.string?_eq

/-- Whether the first item with a key is there does not depend on separators. -/
theorem findKey?_related {items items' : List (Item Expr)}
    (h : List.Forall₂ Item.Requalified items items') (key : String) :
    Option.Rel Item.Requalified (findKey? items key) (findKey? items' key) :=
  find?_related h fun _ _ hij => by rw [hij.stringKey?_eq]

namespace Argument.Requalified

variable {covers : Bool} {x y : Argument}

theorem name_eq (h : Argument.Requalified covers x y) : x.name = y.name := by
  cases h <;> rfl

theorem line_eq (h : Argument.Requalified covers x y) : x.line = y.line := by
  cases h <;> rfl

/-- Where no class is covered the values are related as expressions. -/
theorem value_related (h : Argument.Requalified false x y) : x.value.Requalified y.value := by
  cases h with
  | value _ _ h => exact h
  | target _ _ _ _ h => cases h

/-- The class that a covers attribute names is the same. -/
theorem target?_eq (h : Argument.Requalified covers x y) :
    Classifier.target? x.value = Classifier.target? y.value := by
  cases h with
  | target name text textLine line _ =>
      rw [Classifier.target?, Classifier.target?, Name.stripLeading_qualify]
  | value name line h =>
      cases h with
      | classConst constant? line h =>
          cases h with
          | none => rfl
          | some h =>
              cases constant? with
              | none => rfl
              | some constant => rw [Classifier.target?, Classifier.target?, h.stripLeading_eq]
      | _ => rfl

/-- The keys of the options in an argument are the same. -/
theorem shapeKeys_eq (h : Argument.Requalified false x y) :
    (OptionShape.ofArgument? x).map OptionShape.keys =
      (OptionShape.ofArgument? y).map OptionShape.keys := by
  have hvalue := h.value_related
  obtain ⟨name, value, line⟩ := x
  obtain ⟨name', value', line'⟩ := y
  obtain rfl : name = name' := h.name_eq
  obtain rfl : line = line' := h.line_eq
  cases name with
  | some name => rfl
  | none =>
      cases hvalue with
      | array line hitems =>
          refine congrArg some (filterMap_eq_of_forall₂ hitems.forall₂ fun i j hij => ?_)
          rw [hij.stringKey?_eq, hij.line]
      | _ => rfl

end Argument.Requalified

/-! ### Attributes -/

/-- The concepts of attributes whose arguments some check reads. -/
def Concept.consulted : List Concept :=
  [Concept.column, Concept.entity, Concept.table, Concept.index, Concept.range]

/-- The spellings of a concept. -/
def Concept.spellings (c : Concept) : List String :=
  c.qualified :: c.short :: c.aliased.toList

theorem Concept.isSpelledBy_iff (c : Concept) (name : String) :
    c.isSpelledBy name = true ↔ Name.trimLeading name ∈ c.spellings := by
  simp only [isSpelledBy, spellings, Bool.or_eq_true, beq_iff_eq, List.mem_cons, Option.mem_toList]
  tauto

/-- No spelling of such a concept denotes that of covered classes. -/
theorem Concept.not_covers_of_isSpelledBy {c : Concept} (hc : c ∈ Concept.consulted)
    {name : String} (h : c.isSpelledBy name = true) :
    Concept.coversClass.isDenotedBy name = false := by
  have hspellings : ∀ c ∈ consulted, ∀ t ∈ c.spellings,
      (t == coversClass.qualified || Name.normalize t == coversClass.qualified ||
        coversClass.aliased == some t || Name.short t == coversClass.short) = false := by
    decide
  exact hspellings c hc _ ((c.isSpelledBy_iff name).mp h)

namespace Attribute.Requalified

variable {a b : Attribute}

theorem isDenotedBy_eq (h : a.Requalified b) (c : Concept) :
    c.isDenotedBy a.name = c.isDenotedBy b.name := by
  simp only [Concept.isDenotedBy, h.name.trimLeading_eq]

theorem isSpelledBy_eq (h : a.Requalified b) (c : Concept) :
    c.isSpelledBy a.name = c.isSpelledBy b.name := by
  simp only [Concept.isSpelledBy, h.name.trimLeading_eq]

theorem coversArg?_related (h : a.Requalified b) :
    Option.Rel (Argument.Requalified (Concept.coversClass.isDenotedBy a.name))
      (Classifier.coversArg? a) (Classifier.coversArg? b) := by
  apply or_related
  · exact find?_related h.args fun _ _ hxy => by rw [hxy.name_eq]
  · exact find?_related h.args fun _ _ hxy => by rw [hxy.name_eq]

end Attribute.Requalified

/-- Attributes whose lines are the same and whose arguments differ in the classes of class constants
alone. -/
structure Attribute.ReadAlike (a b : Attribute) : Prop where
  line : a.line = b.line
  args : List.Forall₂ (Argument.Requalified false) a.args b.args

namespace Attribute

/-- Attributes that spell a concept other than that of covered classes. -/
theorem Requalified.readAlike {a b : Attribute} (h : a.Requalified b) {c : Concept}
    (hc : c ∈ Concept.consulted) (ha : c.isSpelledBy a.name = true) : a.ReadAlike b where
  line := h.line
  args := by
    have hargs := h.args
    rwa [Concept.not_covers_of_isSpelledBy hc ha] at hargs

theorem filter_spelled {as bs : List Attribute} (h : List.Forall₂ Requalified as bs) {c : Concept}
    (hc : c ∈ Concept.consulted) :
    List.Forall₂ ReadAlike (as.filter fun a => c.isSpelledBy a.name)
      (bs.filter fun b => c.isSpelledBy b.name) := by
  induction h with
  | nil => exact .nil
  | @cons a b _ _ hab _ ih =>
      rw [List.filter_cons, List.filter_cons, ← hab.isSpelledBy_eq c]
      by_cases ha : c.isSpelledBy a.name = true
      · rw [if_pos ha, if_pos ha]
        exact .cons (hab.readAlike hc ha) ih
      · rw [if_neg ha, if_neg ha]
        exact ih

namespace ReadAlike

variable {a b : Attribute}

theorem namedArg?_related (h : a.ReadAlike b) (name : String) :
    Option.Rel (Argument.Requalified false) (a.namedArg? name) (b.namedArg? name) :=
  find?_related h.args fun _ _ hxy => by rw [hxy.name_eq]

theorem namedString?_eq (h : a.ReadAlike b) (name : String) :
    a.namedString? name = b.namedString? name :=
  optionBind_eq_of_rel (h.namedArg?_related name) fun _ _ hxy => hxy.value_related.string?_eq

theorem namedArgs_related (h : a.ReadAlike b) (name : String) :
    List.Forall₂ (Argument.Requalified false) (a.namedArgs name) (b.namedArgs name) :=
  List.rel_filter (fun _ _ hxy => by simp only [hxy.name_eq]) h.args

theorem optionKeys_eq (h : a.ReadAlike b) : a.optionKeys = b.optionKeys := by
  rw [optionKeys, optionKeys, optionShapes, optionShapes, List.flatMap_def, List.flatMap_def,
    List.map_filterMap, List.map_filterMap, filterMap_eq_of_forall₂ h.args]
  exact fun _ _ hxy => hxy.shapeKeys_eq

end ReadAlike

end Attribute

theorem ClassDeclaration.Requalified.attributesSpelling_related {d d' : ClassDeclaration}
    (h : d.Requalified d') {c : Concept} (hc : c ∈ Concept.consulted) :
    List.Forall₂ (fun x y => x.2.ReadAlike y.2) (d.attributesSpelling c)
      (d'.attributesSpelling c) := by
  refine List.rel_flatMap h.properties fun p q hpq => ?_
  rw [List.forall₂_map_left_iff, List.forall₂_map_right_iff]
  exact Attribute.filter_spelled hpq.attributes hc

/-! ### Roles and resolution -/

namespace Reflection.Requalified

variable {r s : Reflection}

theorem key_eq (h : r.Requalified s) : r.key = s.key :=
  h.name.stripLeading_eq

theorem isEntity_eq (h : r.Requalified s) :
    Classifier.conventions.isEntity r = Classifier.conventions.isEntity s :=
  any_eq_of_forall₂ h.attributes fun _ _ hab => hab.isDenotedBy_eq _

theorem isTest_eq (h : r.Requalified s) :
    Classifier.conventions.isTest r.name = Classifier.conventions.isTest s.name := by
  simp only [Classifier.conventions, h.name.short_eq]

theorem covered?_eq (h : r.Requalified s) :
    Classifier.conventions.covered? r = Classifier.conventions.covered? s := by
  refine optionBind_eq_of_rel (find?_related h.attributes fun _ _ hab => hab.isDenotedBy_eq _) ?_
  intro a b hab
  exact optionBind_eq_of_rel hab.coversArg?_related fun _ _ hxy => hxy.target?_eq

theorem isSubclassOf_eq (h : r.Requalified s) {base base' : Reflection}
    (hbase : base.Requalified base') : r.isSubclassOf base = s.isSubclassOf base' := by
  have htarget : Name.stripLeading base.name = Name.stripLeading base'.name :=
    hbase.name.stripLeading_eq
  refine any_eq_of_forall₂ h.ancestors fun _ _ hname => ?_
  rw [hname.stripLeading_eq, htarget]

end Reflection.Requalified

namespace ClassEntry.Requalified

variable {e f : ClassEntry}

theorem key_eq (h : e.Requalified f) : e.key = f.key :=
  h.reflection.key_eq

theorem isDeclared_eq (h : e.Requalified f) : e.isDeclared = f.isDeclared :=
  isSome_eq_of_rel h.declaration

theorem file_eq (h : e.Requalified f) : e.file = f.file := by
  rw [ClassEntry.file, ClassEntry.file, h.file, h.reflection.file]

end ClassEntry.Requalified

theorem flatMap_classes_related {models models' : List Model}
    (h : List.Forall₂ Model.Requalified models models') :
    List.Forall₂ ClassEntry.Requalified (models.flatMap Model.classes)
      (models'.flatMap Model.classes) :=
  List.rel_flatMap h fun _ _ hm => hm

/-- Names that differ by leading separators resolve to related classes. -/
theorem ClassIndex.get?_related {models models' : List Model}
    (h : List.Forall₂ Model.Requalified models models') {name name' : String}
    (hname : Name.stripLeading name = Name.stripLeading name') :
    Option.Rel Reflection.Requalified ((ofModels models).get? name)
      ((ofModels models').get? name') := by
  have hentries := flatMap_classes_related h
  have hchosen : Option.Rel ClassEntry.Requalified
      (chosen? (models.flatMap Model.classes) (Name.stripLeading name))
      (chosen? (models'.flatMap Model.classes) (Name.stripLeading name')) := by
    rw [hname]
    apply or_related
    · exact find?_related hentries fun _ _ hef => by rw [hef.key_eq, hef.isDeclared_eq]
    · exact find?_related hentries fun _ _ hef => by rw [hef.key_eq]
  rw [get?_ofModels, get?_ofModels]
  exact optionMap_related hchosen fun _ _ hef => hef.reflection

end EntityConventions
