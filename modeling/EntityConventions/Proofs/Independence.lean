import EntityConventions.Proofs.ColumnComments
import EntityConventions.Proofs.IndexedAssociations
import EntityConventions.Proofs.MutableTypes

/-! # What rules read of a class

Four checks judge the properties of a declaration one by one (`Check.isByProperty`), and beside them
they read of the declaration only its kind (`Check.violations_eq_of_readsProperties`).  The other
four read neither the properties nor the declared name (`violations_eq_of_not_readsProperties`).
Among the known classes one check looks, and no other (`Check.violations_withIndex`).  So the
findings of a rule are put together property by property, or do not depend on the properties at all,
and no rule notices a change of what it does not read (`Rule.findings_independent`). -/

namespace EntityConventions

/-! ### Other declarations and other known classes -/

namespace ClassContext

/-- The class under check, declared otherwise. -/
def withDeclaration (ctx : ClassContext) (d : ClassDeclaration) : ClassContext :=
  { ctx with declaration := d }

/-- The class under check, among other known classes. -/
def withIndex (ctx : ClassContext) (index : ClassIndex) : ClassContext :=
  { ctx with scope.index := index }

end ClassContext

/-! ### Properties one by one -/

/-- A search among the attributes that spell a concept goes from property to property. -/
theorem ClassDeclaration.filterMap_attributesSpelling_eq_flatMap {β : Type} (d : ClassDeclaration)
    (c : Concept) (g : Property × Attribute → Option β) :
    (d.attributesSpelling c).filterMap g =
      d.properties.flatMap fun p =>
        (({ d with properties := [p] } : ClassDeclaration).attributesSpelling c).filterMap g := by
  simp only [attributesSpelling, List.filterMap_flatMap, List.flatMap_singleton]

theorem ColumnComment.isByProperty (skipTests : Bool) :
    (Check.columnComment skipTests).IsByProperty := by
  intro ctx
  have htest : ∀ p, (ctx.withProperties [p]).inTestFile = ctx.inTestFile := fun _ => rfl
  simp only [Check.violations, violations, htest, ctx.isEntity_withProperties,
    ctx.className_withProperties]
  by_cases hskip : (skipTests && ctx.inTestFile) = true
  · simp [hskip]
  · by_cases hentity : ctx.isEntity = true
    · simp only [hskip, hentity, ↓reduceIte]
      exact ctx.declaration.filterMap_attributesSpelling_eq_flatMap _ _
    · simp [hentity]

theorem RangeMessages.isByProperty : Check.rangeMessages.IsByProperty := by
  intro ctx
  simp only [Check.violations, violations, ctx.kind_withProperties, ctx.className_withProperties]
  by_cases hkind : ctx.declaration.kind = .regular
  · simp only [hkind, ↓reduceIte]
    exact ctx.declaration.filterMap_attributesSpelling_eq_flatMap _ _
  · simp [hkind]

namespace Check

/-- The checks that read properties judge them one by one. -/
theorem isByProperty {check : Check} (h : check.ReadsProperties) : check.IsByProperty := by
  cases check with
  | columnComment skipTests => exact ColumnComment.isByProperty skipTests
  | immutableDates => exact ImmutableDates.isByProperty
  | exclusiveIndexColumn marker => exact ExclusiveIndexColumn.isByProperty marker
  | rangeMessages => exact RangeMessages.isByProperty
  | _ => cases h

/-! ### What is not read -/

theorem violations_eq_of_readsProperties {check : Check} (h : check.ReadsProperties)
    (ctx : ClassContext) (name : String) (line : Nat) (attributes : List Attribute)
    (constructor? : Option ConstructorSignature) :
    check.violations (ctx.withDeclaration
        ⟨name, ctx.declaration.kind, line, attributes, ctx.declaration.properties, constructor?⟩) =
      check.violations ctx := by
  cases check with
  | columnComment skipTests => rfl
  | immutableDates => rfl
  | exclusiveIndexColumn marker => rfl
  | rangeMessages => rfl
  | _ => cases h

theorem violations_eq_of_not_readsProperties {check : Check} (h : ¬ check.ReadsProperties)
    (ctx : ClassContext) (name : String) (properties : List Property) :
    check.violations (ctx.withDeclaration
        { ctx.declaration with name := name, properties := properties }) =
      check.violations ctx := by
  cases check with
  | parameterlessConstructor => rfl
  | repositoryConstant => rfl
  | indexNamePrefix => rfl
  | entityTestBase baseClass => rfl
  | _ => exact absurd trivial h

theorem violations_withIndex {check : Check} (h : ∀ baseClass, check ≠ .entityTestBase baseClass)
    (ctx : ClassContext) (index : ClassIndex) :
    check.violations (ctx.withIndex index) = check.violations ctx := by
  cases check with
  | entityTestBase baseClass => exact absurd rfl (h baseClass)
  | _ => rfl

/-! ### The checks by their codes -/

theorem readsProperties_iff_code (check : Check) :
    check.ReadsProperties ↔ check.code ∈ ["EL001", "EL002", "EL005", "EL007"] := by
  cases check <;> simp [ReadsProperties, code]

theorem not_readsProperties_iff_code (check : Check) :
    ¬ check.ReadsProperties ↔ check.code ∈ ["EL003", "EL004", "EL006", "EL008"] := by
  cases check <;> simp [ReadsProperties, code]

theorem ne_entityTestBase_of_code {check : Check} (h : check.code ≠ "EL008") (baseClass : String) :
    check ≠ .entityTestBase baseClass := by
  rintro rfl
  exact h rfl

end Check

namespace Rule

/-- The findings about some properties and some more are those about the former and the latter. -/
theorem findings_append {rule : Rule} (h : rule.check.IsByProperty) (ctx : ClassContext)
    (ps qs : List Property) :
    rule.findings (ctx.withProperties (ps ++ qs)) =
      rule.findings (ctx.withProperties ps) ++ rule.findings (ctx.withProperties qs) := by
  have hone : ∀ rs, rule.findings (ctx.withProperties rs) =
      rs.flatMap fun p => rule.findings (ctx.withProperties [p]) := fun rs =>
    findings_eq_flatMap h (ctx.withProperties rs)
  rw [hone, List.flatMap_append, ← hone, ← hone]

/-- **Rules judge properties independently and read nothing else.**  The findings of the rules
EL001, EL002, EL005 and EL007 about some properties and some more are those about the former,
followed by those about the latter; the declared name and line, the attributes of the class and its
constructor do not matter.  For the findings of EL003, EL004, EL006 and EL008 neither the declared
name nor the properties matter.  Which other classes are known only matters for EL008. -/
theorem findings_independent (ctx : ClassContext) (rule : Rule) :
    (rule.code ∈ ["EL001", "EL002", "EL005", "EL007"] →
      (∀ ps qs, rule.findings (ctx.withProperties (ps ++ qs)) =
        rule.findings (ctx.withProperties ps) ++ rule.findings (ctx.withProperties qs)) ∧
      ∀ name line attributes constructor?,
        rule.findings (ctx.withDeclaration
            { ctx.declaration with
              name := name
              line := line
              attributes := attributes
              constructor? := constructor? }) =
          rule.findings ctx) ∧
    (rule.code ∈ ["EL003", "EL004", "EL006", "EL008"] →
      ∀ name properties,
        rule.findings (ctx.withDeclaration
            { ctx.declaration with name := name, properties := properties }) =
          rule.findings ctx) ∧
    (rule.code ≠ "EL008" → ∀ index, rule.findings (ctx.withIndex index) = rule.findings ctx) := by
  have hfindings : ∀ other : ClassContext, other.path = ctx.path →
      rule.check.violations other = rule.check.violations ctx →
        rule.findings other = rule.findings ctx := by
    intro other hpath hviolations
    rw [findings, findings, hpath, hviolations]
  refine ⟨?_, ?_, ?_⟩
  · intro hcode
    have hreads := rule.check.readsProperties_iff_code.mpr hcode
    refine ⟨findings_append (Check.isByProperty hreads) ctx, ?_⟩
    intro name line attributes constructor?
    exact hfindings _ rfl
      (Check.violations_eq_of_readsProperties hreads ctx name line attributes constructor?)
  · intro hcode name properties
    have hreads := rule.check.not_readsProperties_iff_code.mpr hcode
    exact hfindings _ rfl
      (Check.violations_eq_of_not_readsProperties hreads ctx name properties)
  · intro hcode index
    exact hfindings _ rfl
      (Check.violations_withIndex (Check.ne_entityTestBase_of_code hcode) ctx index)

/-- An entity with two columns without comments and with a parameter in its constructor. -/
def booking : ClassContext where
  declaration := {
    name := "Booking"
    kind := .regular
    line := 10
    attributes := [.bare "ORM\\Entity" 9]
    properties := [⟨"begin", 12, [.bare "ORM\\Column" 12]⟩, ⟨"end", 14, [.bare "Column" 14]⟩]
    constructor? := some ⟨16, ["begin"]⟩ }
  reflection := (Reflection.ofName "App\\Booking").addAttribute (.bare "ORM\\Entity" 9)
  scope := ⟨none, .empty⟩
  classifier := .conventions
  path := ⟨"src/Booking.php"⟩

theorem findings_independent_booking :
    let begin : Property := ⟨"begin", 12, [.bare "ORM\\Column" 12]⟩
    let ending : Property := ⟨"end", 14, [.bare "Column" 14]⟩
    let known := ClassIndex.empty.insert (Reflection.ofName "App\\Room")
    columnComment.code ∈ ["EL001", "EL002", "EL005", "EL007"] ∧
      columnComment.findings (booking.withProperties ([begin] ++ [ending])) =
        columnComment.findings (booking.withProperties [begin]) ++
          columnComment.findings (booking.withProperties [ending]) ∧
      (columnComment.findings booking).map Finding.line = [12, 14] ∧
      parameterlessConstructor.code ∈ ["EL003", "EL004", "EL006", "EL008"] ∧
      parameterlessConstructor.findings (booking.withDeclaration
          { booking.declaration with name := "Stay", properties := [] }) =
        parameterlessConstructor.findings booking ∧
      (parameterlessConstructor.findings booking).map Finding.line = [16] ∧
      columnComment.code ≠ "EL008" ∧
      columnComment.findings (booking.withIndex known) = columnComment.findings booking := by
  intro begin ending known
  have hcolumn : columnComment.code ∈ ["EL001", "EL002", "EL005", "EL007"] := by decide
  have hconstructor : parameterlessConstructor.code ∈ ["EL003", "EL004", "EL006", "EL008"] := by
    decide
  have hindex : columnComment.code ≠ "EL008" := by decide
  obtain ⟨hproperties, -, hknown⟩ := findings_independent booking columnComment
  obtain ⟨-, hunread, -⟩ := findings_independent booking parameterlessConstructor
  exact ⟨hcolumn, (hproperties hcolumn).1 [begin] [ending], by decide +kernel, hconstructor,
    hunread hconstructor "Stay" [], by decide +kernel, hindex, hknown hindex known⟩

end Rule

end EntityConventions
