import EntityConventions.Proofs.ChangedAttributes
import EntityConventions.Proofs.JsonDecoding
import EntityConventions.Proofs.Verdicts

/-! # Columns of mutable types

Texts and constants share one table of mutable types (`ImmutableDates.immutables`), so either may
carry the name of the other; `ImmutableDates.Names` says which expressions name a mutable type, and
`mutableType?` finds exactly these (`mutableType?_eq_some_iff`).  The first type of a column counts,
and the check advises to replace it by a constant if it is mutable (`forall₂_isAbout_findings`).

A message advises one constant and no other (`ImmutableDates.Advises.unique`).  Whoever takes the
advice makes a column of a mutable type one of an immutable type, since no name in the table is
both (`Mended.not_isMutableColumn`), and leaves everything but the type alone (`Mended.changedAt`).
So nothing is found any more, and no other check notices (`findings_followsAdvice`). -/

namespace EntityConventions.ImmutableDates

/-- The words and constants for mutable types, each with the constant for the immutable one. -/
def immutables : List (String × String) :=
  [("datetime", "DATETIME_IMMUTABLE"), ("DATETIME_MUTABLE", "DATETIME_IMMUTABLE"),
    ("date", "DATE_IMMUTABLE"), ("DATE_MUTABLE", "DATE_IMMUTABLE"),
    ("time", "TIME_IMMUTABLE"), ("TIME_MUTABLE", "TIME_IMMUTABLE"),
    ("datetimetz", "DATETIMETZ_IMMUTABLE"), ("DATETIMETZ_MUTABLE", "DATETIMETZ_IMMUTABLE")]

theorem lookup_replacements_eq_some_iff (name replacement : String) :
    replacements.lookup name = some replacement ↔
      ∃ constant, (name, constant) ∈ immutables ∧ "Types::" ++ constant = replacement := by
  have hnodup : (replacements.map Prod.fst).Nodup := by decide
  have hrows : replacements = immutables.map fun x => (x.1, "Types::" ++ x.2) := by decide
  rw [Json.lookup_eq_some_iff hnodup, hrows, List.mem_map]
  constructor
  · rintro ⟨⟨name', constant⟩, hmem, heq⟩
    cases heq
    exact ⟨constant, hmem, rfl⟩
  · rintro ⟨constant, hmem, rfl⟩
    exact ⟨_, hmem, rfl⟩

/-- An expression names a mutable type: by a text, or by a constant of a class whose name ends in
`Types`. -/
inductive Names : Expr → MutableType → Prop
  | string {name constant : String} (h : (name, constant) ∈ immutables) (line : Nat) :
      Names (.string name line)
        ⟨stringType, "Types::" ++ constant, "\"" ++ name ++ "\"", line⟩
  | constant {owner name constant : String} (howner : "Types".toList <:+ owner.toList)
      (h : (name, constant) ∈ immutables) (line : Nat) :
      Names (.classConst (some owner) (some name) line)
        ⟨constantType, "Types::" ++ constant, "Types::" ++ name, line⟩

theorem mutableType?_eq_some_iff (e : Expr) (found : MutableType) :
    mutableType? e = some found ↔ Names e found := by
  constructor
  · intro h
    cases e with
    | string name line =>
        simp only [mutableType?, Option.map_eq_some_iff, lookup_replacements_eq_some_iff] at h
        obtain ⟨_, ⟨constant, hmem, rfl⟩, rfl⟩ := h
        exact .string hmem line
    | classConst owner? name? line =>
        cases owner? with
        | none => cases h
        | some owner =>
            cases name? with
            | none => cases h
            | some name =>
                simp only [mutableType?, isTypesClass_eq, Option.ite_none_right_eq_some,
                  List.isSuffixOf_iff_suffix, Option.map_eq_some_iff,
                  lookup_replacements_eq_some_iff] at h
                obtain ⟨howner, _, ⟨constant, hmem, rfl⟩, rfl⟩ := h
                exact .constant howner hmem line
    | _ => cases h
  · rintro (⟨hmem, line⟩ | ⟨howner, hmem, line⟩)
    · rw [mutableType?, (lookup_replacements_eq_some_iff _ _).mpr ⟨_, hmem, rfl⟩]
      rfl
    · rw [mutableType?, isTypesClass_eq, if_pos (List.isSuffixOf_iff_suffix.mpr howner),
        (lookup_replacements_eq_some_iff _ _).mpr ⟨_, hmem, rfl⟩]
      rfl

theorem Names.line_eq {e : Expr} {found : MutableType} (h : Names e found) :
    found.line = e.line := by
  cases h <;> rfl

theorem Names.exists_replacement {e : Expr} {found : MutableType} (h : Names e found) :
    ∃ x ∈ immutables, found.replacement = "Types::" ++ x.2 := by
  cases h with
  | string h line => exact ⟨_, h, rfl⟩
  | constant howner h line => exact ⟨_, h, rfl⟩

theorem isSpelledBy_column (a : Attribute) :
    Concept.column.isSpelledBy a.name = true ↔ a.SpellsMapping "Column" :=
  Concept.isSpelledBy_iff_spellsMapping (by decide) a

/-- The first type of an attribute is a mutable one. -/
def HasMutable (a : Attribute) (arg : Argument) (found : MutableType) : Prop :=
  a.IsFirstNamed "type" arg ∧ Names arg.value found

/-- An attribute is a column of a mutable type. -/
def IsMutableColumn (a : Attribute) : Prop :=
  a.SpellsMapping "Column" ∧ ∃ arg found, HasMutable a arg found

instance : DecidablePred IsMutableColumn := fun a =>
  decidable_of_iff (a.SpellsMapping "Column" ∧
      ((a.namedArg? "type").bind fun arg => mutableType? arg.value).isSome = true) (by
    simp only [Option.isSome_iff_exists, Option.bind_eq_some_iff, Attribute.namedArg?_eq_some_iff,
      mutableType?_eq_some_iff, IsMutableColumn, HasMutable]
    rw [exists_comm])

/-! ### What is reported -/

/-- The advice to replace a mutable type, as it is written, by an immutable one. -/
def advice (className : String) (p : Property) (replacement written : String) : String :=
  "Property $" ++ p.name ++ " of entity " ++ className ++ " should use " ++ replacement ++
    " instead of the mutable type " ++ written ++ " to prevent time-related bugs."

/-- A message advises to use a constant: the first word behind what comes before its name. -/
def Advises (className : String) (p : Property) (message constant : String) : Prop :=
  ' ' ∉ constant.toList ∧ ∃ written, message = advice className p ("Types::" ++ constant) written

theorem takeWhile_word {word : List Char} (h : ' ' ∉ word) (rest : List Char) :
    (word ++ ' ' :: rest).takeWhile (· != ' ') = word := by
  have hword : ∀ c ∈ word, (c != ' ') = true := fun c hc =>
    bne_iff_ne.mpr (ne_of_mem_of_not_mem hc h)
  rw [List.takeWhile_append_of_pos hword, List.takeWhile_cons_of_neg (by decide), List.append_nil]

/-- A message advises one constant at most. -/
theorem Advises.unique {className : String} {p : Property} {message constant constant' : String}
    (h : Advises className p message constant) (h' : Advises className p message constant') :
    constant = constant' := by
  obtain ⟨hword, written, rfl⟩ := h
  obtain ⟨hword', written', heq⟩ := h'
  -- The text behind the constant starts with a space, and so the first space is where it ends.
  unfold advice at heq
  simp only [String.append_assoc, String.append_right_inj] at heq
  have hspace : " instead of the mutable type ".toList =
      ' ' :: "instead of the mutable type ".toList := by decide
  have hlist := congrArg String.toList heq
  simp only [String.toList_append, hspace, List.cons_append] at hlist
  have hcut := congrArg (List.takeWhile (· != ' ')) hlist
  rw [takeWhile_word hword, takeWhile_word hword'] at hcut
  exact String.toList_inj.mp hcut

/-- A finding is about a column of a mutable type: it advises the immutable one, and its line is the
first known one of the type, the argument and the attribute. -/
def IsAbout (className : String) (p : Property) (a : Attribute) (f : Finding) : Prop :=
  ∃ arg found, HasMutable a arg found ∧ f.identifier = found.identifier ∧
    f.message = advice className p found.replacement found.written ∧
    IsFirstKnown [arg.value.line, arg.line, a.line] f.line

/-- The constant that is advised is one of those for immutable types. -/
theorem IsAbout.exists_advises {className : String} {p : Property} {a : Attribute} {f : Finding}
    (h : IsAbout className p a f) : ∃ x ∈ immutables, Advises className p f.message x.2 := by
  have hword : ∀ x ∈ immutables, ' ' ∉ x.2.toList := by decide
  obtain ⟨arg, found, ⟨-, hfound⟩, -, hmessage, -⟩ := h
  obtain ⟨x, hx, hreplacement⟩ := hfound.exists_replacement
  rw [hreplacement] at hmessage
  exact ⟨x, hx, hword x hx, found.written, hmessage⟩

theorem columnViolation?_eq_none_iff (className : String) (p : Property) (a : Attribute) :
    columnViolation? className p a = none ↔ ¬ ∃ arg found, HasMutable a arg found := by
  simp only [columnViolation?, Option.bind_eq_bind, Option.bind_eq_none_iff,
    Attribute.namedArg?_eq_some_iff, mutableType?_eq_some_iff, HasMutable, not_exists, not_and,
    Option.pure_def, reduceCtorEq, imp_false]
  exact ⟨fun h arg found harg => h arg harg found, fun h arg harg found => h arg found harg⟩

theorem isAbout_of_columnViolation? {className : String} {p : Property} {a : Attribute}
    {v : Violation} (h : columnViolation? className p a = some v) (rule : Rule) (path : Path) :
    IsAbout className p a (rule.finding path v) := by
  simp only [columnViolation?, Option.bind_eq_bind, Option.bind_eq_some_iff,
    Attribute.namedArg?_eq_some_iff, mutableType?_eq_some_iff] at h
  obtain ⟨arg, harg, found, hfound, hv⟩ := h
  cases hv
  refine ⟨arg, found, ⟨harg, hfound⟩, rfl, rfl, ?_⟩
  rw [← hfound.line_eq]
  exact isFirstKnown_bestLine [found.line, arg.line, a.line]

theorem isByProperty : Check.immutableDates.IsByProperty := by
  intro ctx
  cases h : ctx.isEntity <;>
    simp [Check.violations, violations, ClassDeclaration.attributesSpelling, h,
      List.filterMap_flatMap]

section entity

variable {ctx : ClassContext} (hentity : ctx.isEntity = true) (severity : Severity)

include hentity

/-- Exactly the columns of mutable types are reported. -/
theorem forall₂_isAbout_findings :
    List.Forall₂ (fun x f => IsAbout ctx.className x.1 x.2 f)
      (ctx.declaration.propertyAttributes.filter fun x => IsMutableColumn x.2)
      (Rule.findings ⟨.immutableDates, severity⟩ ctx) := by
  show List.Forall₂ _ _ ((violations ctx).map (Rule.finding _ ctx.path))
  rw [violations, if_pos hentity, List.forall₂_map_right_iff,
    ClassDeclaration.attributesSpelling_eq_filter, List.filterMap_filter]
  apply forall₂_filterMap
  · rintro ⟨p, a⟩
    rw [ite_eq_right_iff, isSpelledBy_column, columnViolation?_eq_none_iff, IsMutableColumn,
      not_and]
  · rintro ⟨p, a⟩ v hv
    split at hv
    · exact isAbout_of_columnViolation? hv _ ctx.path
    · cases hv

/-- The same for one property. -/
theorem forall₂_isAbout_property (p : Property) :
    List.Forall₂ (IsAbout ctx.className p) (p.attributes.filter fun a => IsMutableColumn a)
      (Rule.findings ⟨.immutableDates, severity⟩ (ctx.withProperties [p])) := by
  have hone : (ctx.withProperties [p]).isEntity = true := hentity
  have h := forall₂_isAbout_findings hone severity
  rw [ClassDeclaration.propertyAttributes, ClassContext.properties_withProperties,
    List.flatMap_singleton, List.filter_map, List.forall₂_map_left_iff] at h
  exact h

end entity

/-! ### Advice that is followed -/

/-- The value of the first type becomes the constant that a finding advises, on the same line. -/
def TakesAdvice (className : String) (p : Property) (a : Attribute) (f : Finding) (b : Attribute) :
    Prop :=
  ∃ arg constant, a.IsFirstNamed "type" arg ∧ Advises className p f.message constant ∧
    b = a.withNamed "type" (.classConst (some "Types") (some constant) arg.value.line)

/-- Of one property, about which some findings are made: each column of a mutable type takes the
advice of the finding about it, and the other attributes stay. -/
structure FollowsAdvice (className : String) (about : Property → List Finding) (p q : Property) :
    Prop where
  name : p.name = q.name
  line : p.line = q.line
  attributes : Follows IsMutableColumn (TakesAdvice className p) p.attributes (about p) q.attributes

/-- What becomes of an attribute: a column of a mutable type gets an immutable one. -/
inductive Mended (a : Attribute) : Attribute → Prop
  | kept (ha : ¬ IsMutableColumn a) : Mended a a
  | retyped {name constant : String} (h : (name, constant) ∈ immutables) (line : Nat) :
      Mended a (a.withNamed "type" (.classConst (some "Types") (some constant) line))

theorem exists_takesAdvice {className : String} {p : Property} {a : Attribute} {f : Finding}
    (h : IsAbout className p a f) : ∃ b, TakesAdvice className p a f b := by
  obtain ⟨x, -, hadvises⟩ := h.exists_advises
  obtain ⟨arg, -, ⟨harg, -⟩, -⟩ := h
  exact ⟨_, arg, x.2, harg, hadvises, rfl⟩

theorem mended_of_takesAdvice {className : String} {p : Property} {a b : Attribute} {f : Finding}
    (h : IsAbout className p a f) (hb : TakesAdvice className p a f b) : Mended a b := by
  obtain ⟨x, hx, hadvises⟩ := h.exists_advises
  obtain ⟨arg, constant, -, hadvises', rfl⟩ := hb
  obtain rfl := hadvises.unique hadvises'
  exact .retyped hx arg.value.line

namespace Mended

variable {a b : Attribute}

theorem changedAt (h : Mended a b) : a.ChangedAt "type" b := by
  cases h with
  | kept => exact .same
  | retyped _ line => exact .other _

/-- The constants for immutable types are no names of mutable ones. -/
theorem not_isMutableColumn (h : Mended a b) : ¬ IsMutableColumn b := by
  have hdisjoint : ∀ x ∈ immutables, ∀ y ∈ immutables, x.2 ≠ y.1 := by decide
  cases h with
  | kept ha => exact ha
  | @retyped name constant hrow line =>
      rintro ⟨-, arg, found, harg, hfound⟩
      rw [← Attribute.namedArg?_eq_some_iff, Attribute.namedArg?_withNamed,
        Option.map_eq_some_iff] at harg
      obtain ⟨old, -, rfl⟩ := harg
      cases hfound with
      | constant _ hrow' _ => exact hdisjoint _ hrow _ hrow' rfl

theorem violations_eq_nil {ctx : ClassContext} {new : List Property}
    (h : List.Forall₂ (Property.Related Mended) ctx.declaration.properties new) :
    violations (ctx.withProperties new) = [] := by
  unfold violations
  split
  · rw [List.filterMap_eq_nil_iff, ClassDeclaration.attributesSpelling_eq_filter]
    rintro ⟨q, b⟩ hmem
    rw [List.mem_filter, isSpelledBy_column, ClassDeclaration.propertyAttributes,
      List.mem_flatMap] at hmem
    obtain ⟨⟨q', hq, hb⟩, hcolumn⟩ := hmem
    obtain ⟨b', hb, heq⟩ := List.mem_map.mp hb
    cases heq
    obtain ⟨p, -, hpq⟩ := exists_mem_of_forall₂ h hq
    obtain ⟨a, -, hab⟩ := exists_mem_of_forall₂ hpq.attributes hb
    rw [columnViolation?_eq_none_iff]
    exact fun hmutable => hab.not_isMutableColumn ⟨hcolumn, hmutable⟩
  · rfl

end Mended

/-- **Following the advice mends an entity and nothing else changes.**  About an entity there is one
finding for each column of a mutable type, in their order: those about its properties, put together.
Whoever replaces each of these types by the constant that its finding advises gets a class about
which nothing is found, and about which any other rule finds what it found before. -/
theorem findings_followsAdvice {ctx : ClassContext} (hentity : ctx.isEntity = true)
    (severity : Severity) :
    let rule : Rule := ⟨.immutableDates, severity⟩
    let properties := ctx.declaration.properties
    let about (p : Property) : List Finding := rule.findings (ctx.withProperties [p])
    List.Forall₂ (fun x f => IsAbout ctx.className x.1 x.2 f)
        (ctx.declaration.propertyAttributes.filter fun x => IsMutableColumn x.2)
        (rule.findings ctx) ∧
      rule.findings ctx = properties.flatMap about ∧
      (∃ new, List.Forall₂ (FollowsAdvice ctx.className about) properties new) ∧
      ∀ new, List.Forall₂ (FollowsAdvice ctx.className about) properties new →
        rule.findings (ctx.withProperties new) = [] ∧
          ∀ other : Rule, other.check ≠ .immutableDates →
            other.findings (ctx.withProperties new) = other.findings ctx := by
  intro rule properties about
  refine ⟨forall₂_isAbout_findings hentity severity, Rule.findings_eq_flatMap isByProperty ctx,
    ?_, ?_⟩
  · have hone : ∀ p, ∃ q, FollowsAdvice ctx.className about p q := by
      intro p
      obtain ⟨new, hnew⟩ := exists_follows (fun _ _ => exists_takesAdvice)
        (forall₂_isAbout_property hentity severity p)
      exact ⟨{ p with attributes := new }, rfl, rfl, hnew⟩
    choose mend hmend using hone
    refine ⟨properties.map mend, ?_⟩
    rw [List.forall₂_map_right_iff, List.forall₂_same]
    exact fun p _ => hmend p
  · intro new hnew
    have hmended : List.Forall₂ (Property.Related Mended) properties new :=
      hnew.imp fun p q hpq => ⟨hpq.name, hpq.line,
        Follows.forall₂ (M := Mended) (fun _ => .kept) (fun _ _ _ => mended_of_takesAdvice)
          (forall₂_isAbout_property hentity severity p) hpq.attributes⟩
    constructor
    · show (violations _).map _ = []
      rw [Mended.violations_eq_nil hmended, List.map_nil]
    · intro other hother
      have hchanged := hmended.imp fun p q hpq => hpq.imp fun a b hab => hab.changedAt
      show (other.check.violations _).map _ = (other.check.violations _).map _
      rw [Check.violations_changedAt hchanged (by decide) hother]
      rfl

/-- A property with three columns.  A text carries the name of a constant, a constant that of a text,
and a constant of no class is none; second types do not count. -/
def start : Property :=
  ⟨"start", 20, [.bare "ORM\\Id" 20,
    ⟨"\\ORM\\Column", 21, [.named "type" (.string "DATETIME_MUTABLE" 0)]⟩,
    ⟨"Column", 22, [.named "type" (.classConst (some "App\\MyTypes") (some "date") 23),
      .named "type" (.string "time" 24)]⟩,
    ⟨"Column", 25, [.named "type" (.classConst none (some "DATE_MUTABLE") 25),
      .named "type" (.string "date" 25)]⟩]⟩

/-- An entity with that property and one that has no attributes. -/
def appointment : ClassContext where
  declaration := {
    name := "Appointment"
    kind := .regular
    line := 10
    attributes := []
    properties := [.bare "id" 12, start]
    constructor? := none }
  reflection := (Reflection.ofName "App\\Appointment").addAttribute (.bare "ORM\\Entity" 9)
  scope := ⟨none, .empty⟩
  classifier := .conventions
  path := ⟨"src/Appointment.php"⟩

theorem findings_followsAdvice_appointment :
    let rule : Rule := ⟨.immutableDates, .error⟩
    let properties := appointment.declaration.properties
    let about (p : Property) : List Finding := rule.findings (appointment.withProperties [p])
    appointment.isEntity = true ∧ (rule.findings appointment).map Finding.line = [21, 23] ∧
      List.Forall₂ (fun x f => IsAbout appointment.className x.1 x.2 f)
        (appointment.declaration.propertyAttributes.filter fun x => IsMutableColumn x.2)
        (rule.findings appointment) ∧
      rule.findings appointment = properties.flatMap about ∧
      ∃ new, List.Forall₂ (FollowsAdvice appointment.className about) properties new ∧
        rule.findings (appointment.withProperties new) = [] ∧
          ∀ other : Rule, other.check ≠ .immutableDates →
            other.findings (appointment.withProperties new) = other.findings appointment := by
  intro rule properties about
  have hentity : appointment.isEntity = true := by decide +kernel
  obtain ⟨habout, hparts, ⟨new, hnew⟩, hmends⟩ := findings_followsAdvice hentity .error
  exact ⟨hentity, by decide +kernel, habout, hparts, new, hnew, hmends new hnew⟩

end EntityConventions.ImmutableDates
