import EntityConventions.Proofs.ConstructorParameters
import EntityConventions.Proofs.IndexedAssociations
import EntityConventions.Proofs.IndexNames
import EntityConventions.Proofs.MutableTypes
import EntityConventions.Proofs.RepositoryConstants
import EntityConventions.Proofs.ColumnComments

/-! # Where findings are

`ClassDeclaration.HasLine` gathers the lines that are recorded in a declaration, down to the items
of nested arrays, and `Reflection.HasLine` those of the resolved class and its constructor.  A line
points into a class (`PointsInto`) if it is unknown or among these; it has to be known if all lines
of the declaration are, and so each check has to try a line of the declaration at some point.  All
checks do (`Check.pointsInto_of_mem_violations`): most of them try a chain of nodes from the inside
to the outside, all of them recorded (`PointsInto.of_isFirstKnown`).

The positions of the findings follow, for any rule on any class (`Analyzer.findings_pointInto`) and
for reports as a whole (`Analyzer.checkModels_pointInto`). -/

namespace EntityConventions

/-! ### Recorded lines -/

/-- A line is recorded at an expression, or at an item, a key or a value inside of it. -/
inductive Expr.HasLine : Expr → Nat → Prop
  | own (e : Expr) : HasLine e e.line
  | item {items : List (Item Expr)} {item : Item Expr} (h : item ∈ items) (line : Nat) :
      HasLine (.array items line) item.line
  | key {items : List (Item Expr)} {item : Item Expr} {key : Expr} {l : Nat} (h : item ∈ items)
      (hkey : item.key = some key) (hl : HasLine key l) (line : Nat) : HasLine (.array items line) l
  | value {items : List (Item Expr)} {item : Item Expr} {l : Nat} (h : item ∈ items)
      (hl : HasLine item.value l) (line : Nat) : HasLine (.array items line) l

/-- A line is recorded at an argument or in its value. -/
inductive Argument.HasLine (arg : Argument) : Nat → Prop
  | own : arg.HasLine arg.line
  | value {l : Nat} (h : arg.value.HasLine l) : arg.HasLine l

/-- A line is recorded at an attribute or at one of its arguments. -/
inductive Attribute.HasLine (a : Attribute) : Nat → Prop
  | own : a.HasLine a.line
  | arg {arg : Argument} {l : Nat} (harg : arg ∈ a.args) (h : arg.HasLine l) : a.HasLine l

/-- A line is recorded at a property or at one of its attributes. -/
inductive Property.HasLine (p : Property) : Nat → Prop
  | own : p.HasLine p.line
  | attr {a : Attribute} {l : Nat} (ha : a ∈ p.attributes) (h : a.HasLine l) : p.HasLine l

/-- A line is recorded in a declaration: at itself, at an attribute, at a property or at the
constructor. -/
inductive ClassDeclaration.HasLine (d : ClassDeclaration) : Nat → Prop
  | own : d.HasLine d.line
  | attr {a : Attribute} {l : Nat} (ha : a ∈ d.attributes) (h : a.HasLine l) : d.HasLine l
  | property {p : Property} {l : Nat} (hp : p ∈ d.properties) (h : p.HasLine l) : d.HasLine l
  | constructor {signature : ConstructorSignature} (h : d.constructor? = some signature) :
      d.HasLine signature.line

/-- A line is recorded at a resolved class or at its constructor. -/
inductive Reflection.HasLine (r : Reflection) : Nat → Prop
  | own : r.HasLine r.line
  | constructor {facts : ConstructorFacts} {l : Nat} (h : r.constructor? = some facts)
      (hl : facts.line = some l) : r.HasLine l

/-! ### Lines that point into a class -/

/-- A line points into a class: it is unknown or recorded there, and known if all lines of the
declaration are. -/
structure PointsInto (d : ClassDeclaration) (r : Reflection) (line : Nat) : Prop where
  recorded : line = 0 ∨ d.HasLine line ∨ r.HasLine line
  known : (∀ l, d.HasLine l → 0 < l) → 0 < line

namespace PointsInto

variable {d : ClassDeclaration} {r : Reflection} {line : Nat}

theorem of_hasLine (h : d.HasLine line) : PointsInto d r line where
  recorded := .inr (.inl h)
  known hd := hd line h

/-- The first known line of a chain points into a class if the whole chain is recorded there, and
some of it in the declaration. -/
theorem of_isFirstKnown {lines : List Nat} (h : IsFirstKnown lines line)
    (hlines : ∀ l ∈ lines, d.HasLine l ∨ r.HasLine l) (hd : ∃ l ∈ lines, d.HasLine l) :
    PointsInto d r line := by
  rcases h with h | ⟨hunknown, rfl⟩
  · exact ⟨.inr (hlines line h.mem), fun _ => h.holds⟩
  · refine ⟨.inl rfl, fun hpositive => ?_⟩
    obtain ⟨l, hl, hline⟩ := hd
    have hzero := hunknown l hl
    have hpos := hpositive l hline
    omega

/-- The chain from the value of an argument to its attribute. -/
theorem of_argument {a : Attribute} (ha : ∀ l, a.HasLine l → d.HasLine l) {arg : Argument}
    (harg : arg ∈ a.args) (h : IsFirstKnown [arg.value.line, arg.line, a.line] line) :
    PointsInto d r line := by
  have hvalue : a.HasLine arg.value.line := .arg harg (.value (.own _))
  refine of_isFirstKnown h ?_ ⟨a.line, by simp, ha _ .own⟩
  intro l hl
  simp only [List.mem_cons, List.not_mem_nil, or_false] at hl
  rcases hl with rfl | rfl | rfl
  · exact .inl (ha _ hvalue)
  · exact .inl (ha _ (.arg harg .own))
  · exact .inl (ha _ .own)

end PointsInto

/-- The attributes that a check finds by their names are recorded with their properties. -/
theorem ClassDeclaration.hasLine_of_mem_attributesSpelling {d : ClassDeclaration} {c : Concept}
    {p : Property} {a : Attribute} (h : (p, a) ∈ d.attributesSpelling c) {l : Nat}
    (hl : a.HasLine l) : d.HasLine l := by
  obtain ⟨q, hq, hpa⟩ := List.mem_flatMap.mp h
  obtain ⟨b, hb, heq⟩ := List.mem_map.mp hpa
  obtain ⟨rfl, rfl⟩ := Prod.mk.inj heq
  exact .property hq (.attr (List.mem_of_mem_filter hb) hl)

/-- The line of an option is that of an argument or of an item of an array. -/
theorem Attribute.hasLine_of_mem_optionKeys {a : Attribute} {k : OptionKey}
    (h : k ∈ a.optionKeys) : a.HasLine k.line := by
  rw [optionKeys, List.mem_flatMap] at h
  obtain ⟨shape, hshape, hk⟩ := h
  obtain ⟨arg, harg, hshape⟩ := List.mem_filterMap.mp hshape
  unfold OptionShape.ofArgument? at hshape
  split at hshape
  · cases hshape
    obtain rfl := List.mem_singleton.mp hk
    exact .arg harg .own
  · rename_i items line _ hvalue
    cases hshape
    obtain ⟨item, hitem, hkey⟩ := List.mem_filterMap.mp hk
    obtain ⟨key, -, rfl⟩ := Option.map_eq_some_iff.mp hkey
    exact .arg harg (.value (hvalue ▸ .item hitem line))
  · cases hshape

/-! ### The checks -/

section checks

variable {ctx : ClassContext} {v : Violation}

theorem ColumnComment.pointsInto_of_mem_violations {skipTests : Bool}
    (h : v ∈ violations skipTests ctx) : PointsInto ctx.declaration ctx.reflection v.line := by
  unfold violations at h
  split at h
  · cases h
  split at h
  · obtain ⟨⟨p, a⟩, hpa, hv⟩ := List.mem_filterMap.mp h
    have ha : ∀ l, a.HasLine l → ctx.declaration.HasLine l := fun _ =>
      ClassDeclaration.hasLine_of_mem_attributesSpelling hpa
    apply PointsInto.of_hasLine
    cases isAbout_of_columnViolation? hv Rule.columnComment ctx.path with
    | missingOptions _ _ _ hline =>
        have hline : v.line = a.line := hline
        rw [hline]
        exact ha _ .own
    | @missingKey options _ hoptions _ hline =>
        have hline : v.line = if options.line = 0 then a.line else options.line := hline
        rw [hline]
        split
        · exact ha _ .own
        · exact ha _ (.arg hoptions.mem .own)
  · cases h

theorem ImmutableDates.pointsInto_of_mem_violations (h : v ∈ violations ctx) :
    PointsInto ctx.declaration ctx.reflection v.line := by
  unfold violations at h
  split at h
  · obtain ⟨⟨p, a⟩, hpa, hv⟩ := List.mem_filterMap.mp h
    have ha : ∀ l, a.HasLine l → ctx.declaration.HasLine l := fun _ =>
      ClassDeclaration.hasLine_of_mem_attributesSpelling hpa
    obtain ⟨arg, found, ⟨harg, -⟩, -, -, hline⟩ :=
      isAbout_of_columnViolation? hv Rule.immutableDates ctx.path
    exact PointsInto.of_argument ha harg.mem hline
  · cases h

theorem ParameterlessConstructor.pointsInto_of_mem_violations (h : v ∈ violations ctx) :
    PointsInto ctx.declaration ctx.reflection v.line := by
  refine PointsInto.of_isFirstKnown (isFirstKnown_of_mem_violations h) ?_
    ⟨ctx.declaration.line, by simp [reportLines], .own⟩
  intro l hl
  simp only [reportLines, List.mem_append, Option.mem_toList, Option.bind_eq_some_iff,
    Option.map_eq_some_iff, List.mem_cons, List.not_mem_nil, or_false] at hl
  rcases hl with (⟨facts, hfacts, hl⟩ | ⟨signature, hsignature, rfl⟩) | (rfl | rfl)
  · exact .inr (.constructor hfacts hl)
  · exact .inl (.constructor hsignature)
  · exact .inl .own
  · exact .inr .own

theorem RepositoryConstant.pointsInto_of_mem_violations (h : v ∈ violations ctx) :
    PointsInto ctx.declaration ctx.reflection v.line := by
  unfold violations at h
  split at h
  · obtain ⟨a, ha, hv⟩ := List.mem_filterMap.mp h
    rw [findSome?_namedArgs] at hv
    obtain ⟨arg, harg, -, hline⟩ := isAbout_of_findSome? hv Rule.repositoryConstant ctx.path
    exact PointsInto.of_argument (fun _ hl => .attr (List.mem_of_mem_filter ha) hl) harg.mem
      hline
  · cases h

theorem ExclusiveIndexColumn.pointsInto_of_mem_violations {marker : String}
    (h : v ∈ violations marker ctx) : PointsInto ctx.declaration ctx.reflection v.line := by
  unfold violations at h
  split at h
  · obtain ⟨p, hp, hv⟩ := List.mem_flatMap.mp h
    obtain ⟨a, -, rfl⟩ := List.mem_map.mp hv
    have hline := isFirstKnown_bestLine_filterMap
      [some p.line, p.attributes.head?.map Attribute.line]
    refine PointsInto.of_isFirstKnown hline ?_ ⟨p.line, by simp, .property hp .own⟩
    intro l hl
    simp only [List.mem_filterMap, List.mem_cons, List.not_mem_nil, or_false, id_eq] at hl
    obtain ⟨_, rfl | rfl, hl⟩ := hl
    · obtain rfl := Option.some.inj hl
      exact .inl (.property hp .own)
    · obtain ⟨b, hb, rfl⟩ := Option.map_eq_some_iff.mp hl
      exact .inl (.property hp (.attr (List.mem_of_mem_head? hb) .own))
  · cases h

theorem IndexNamePrefix.line_of_indexViolation? {className table : String} {a : Attribute}
    (h : indexViolation? className table a = some v) : v.line = a.line := by
  unfold indexViolation? at h
  split at h
  · cases h
  split at h
  · cases h
  · rw [← Option.some.inj h]

theorem IndexNamePrefix.pointsInto_of_mem_violations (h : v ∈ violations ctx) :
    PointsInto ctx.declaration ctx.reflection v.line := by
  unfold violations at h
  split at h
  · rename_i current table _ htable
    split at h
    · obtain ⟨a, ha, hv⟩ := List.mem_filterMap.mp h
      apply PointsInto.of_hasLine
      rw [line_of_indexViolation? hv]
      exact .attr (List.mem_of_mem_filter ha) .own
    · cases h
  · cases h

theorem RangeMessages.pointsInto_of_mem_violations (h : v ∈ violations ctx) :
    PointsInto ctx.declaration ctx.reflection v.line := by
  by_cases hkind : ctx.declaration.kind = .regular
  · rw [violations_eq_flatMap hkind] at h
    obtain ⟨p, hp, h⟩ := List.mem_flatMap.mp h
    obtain ⟨a, ha, hv⟩ := List.mem_flatMap.mp h
    obtain ⟨k, hk, hline⟩ := line_of_mem_verdict hv
    apply PointsInto.of_hasLine
    refine .property hp (.attr ha ?_)
    rw [hline]
    split
    · exact .own
    · exact Attribute.hasLine_of_mem_optionKeys (List.mem_reverse.mp hk.mem)
  · rw [violations, if_neg hkind] at h
    cases h

theorem EntityTestBase.pointsInto_of_mem_violations {baseClass : String}
    (hcurrent : ctx.scope.current = some ctx.reflection) (h : v ∈ violations baseClass ctx) :
    PointsInto ctx.declaration ctx.reflection v.line := by
  unfold violations at h
  split at h
  · rename_i test target base htest _
    obtain ⟨htest, -⟩ := (entityTest?_eq_some_iff ctx test target).mp htest
    obtain rfl : ctx.reflection = test := Option.some.inj (hcurrent.symm.trans htest)
    split at h
    · cases h
    · rw [List.mem_singleton.mp h]
      refine PointsInto.of_isFirstKnown
        (isFirstKnown_bestLine [ctx.declaration.line, ctx.reflection.line]) ?_
        ⟨ctx.declaration.line, by simp, .own⟩
      intro l hl
      simp only [List.mem_cons, List.not_mem_nil, or_false] at hl
      rcases hl with rfl | rfl
      · exact .inl .own
      · exact .inr .own
  · cases h

/-- Every check points into the class that is looked at. -/
theorem Check.pointsInto_of_mem_violations {check : Check}
    (hcurrent : ctx.scope.current = some ctx.reflection) (h : v ∈ check.violations ctx) :
    PointsInto ctx.declaration ctx.reflection v.line := by
  cases check with
  | columnComment skipTests => exact ColumnComment.pointsInto_of_mem_violations h
  | immutableDates => exact ImmutableDates.pointsInto_of_mem_violations h
  | parameterlessConstructor => exact ParameterlessConstructor.pointsInto_of_mem_violations h
  | repositoryConstant => exact RepositoryConstant.pointsInto_of_mem_violations h
  | exclusiveIndexColumn marker => exact ExclusiveIndexColumn.pointsInto_of_mem_violations h
  | indexNamePrefix => exact IndexNamePrefix.pointsInto_of_mem_violations h
  | rangeMessages => exact RangeMessages.pointsInto_of_mem_violations h
  | entityTestBase baseClass => exact EntityTestBase.pointsInto_of_mem_violations hcurrent h

end checks

namespace Analyzer

/-- What is reported about some documents points into one of their classes. -/
theorem checkModels_pointInto {a : Analyzer} {models : List Model} {f : Finding}
    (h : f ∈ (a.checkModels models).findings) :
    ∃ e ∈ models.flatMap Model.classes, ∃ d, e.declaration? = some d ∧
      f.file = reportPath a.root e.file ∧ PointsInto d e.reflection f.line := by
  obtain ⟨e, he, d, hd, rule, -, hdue⟩ := exists_rule_of_mem_checkModels h
  obtain ⟨v, hv, severity, rfl⟩ := exists_violation_of_mem_dueBy hdue
  exact ⟨e, he, d, hd, rfl, Check.pointsInto_of_mem_violations rfl hv⟩

/-- **Positions are never invented.**  Whatever rule looks at a class, and among whatever other
classes, its findings are in the file that is reported for the class; their lines are unknown or
recorded in the declaration, at the resolved class or at its constructor.  If all lines of the
declaration are known, so are those of the findings. -/
theorem findings_pointInto (a : Analyzer) (index : ClassIndex) (e : ClassEntry)
    (d : ClassDeclaration) (rule : Rule) :
    ∀ f ∈ rule.findings (a.context index e d),
      f.file = reportPath a.root e.file ∧
        (f.line = 0 ∨ d.HasLine f.line ∨ e.reflection.HasLine f.line) ∧
        ((∀ l, d.HasLine l → 0 < l) → 0 < f.line) := by
  intro f hf
  obtain ⟨v, hv, rfl⟩ := List.mem_map.mp hf
  have hpoints : PointsInto d e.reflection v.line := Check.pointsInto_of_mem_violations rfl hv
  exact ⟨rfl, hpoints.recorded, hpoints.known⟩

/-- An entity with a column of a mutable type, which is written on a given line. -/
def meeting (line : Nat) : ClassDeclaration where
  name := "Meeting"
  kind := .regular
  line := 3
  attributes := []
  properties := [⟨"begin", 5, [⟨"ORM\\Column", 7, [.named "type" (.string "date" line)]⟩]⟩]
  constructor? := none

theorem meeting_hasLine {line l : Nat} (h : (meeting line).HasLine l) :
    l ∈ [3, 5, 7, line] := by
  cases h with
  | own => simp [meeting]
  | attr ha => cases ha
  | constructor h => cases h
  | property hp h =>
      obtain rfl := List.mem_singleton.mp hp
      cases h with
      | own => simp
      | attr ha h =>
          obtain rfl := List.mem_singleton.mp ha
          cases h with
          | own => simp
          | arg harg h =>
              obtain rfl := List.mem_singleton.mp harg
              cases h with
              | own => simp [Argument.named, Expr.line]
              | value h =>
                  cases h
                  simp [Argument.named, Expr.line]

theorem findings_pointInto_meeting :
    let a : Analyzer := ⟨⟨"/app"⟩, [Rule.immutableDates], .default, .conventions⟩
    let entry (line : Nat) : ClassEntry :=
      ⟨some ⟨"/app/src/Meeting.php"⟩, some (meeting line),
        (Reflection.ofName "App\\Meeting").addAttribute (.bare "ORM\\Entity" 2)⟩
    let found (line : Nat) : List Finding :=
      Rule.immutableDates.findings (a.context .empty (entry line) (meeting line))
    (found 9).map Finding.line = [9] ∧ (∀ l, (meeting 9).HasLine l → 0 < l) ∧
      (∀ f ∈ found 9, f.file = ⟨"src/Meeting.php"⟩ ∧ 0 < f.line) ∧
      (found 0).map Finding.line = [7] ∧ ¬ (∀ l, (meeting 0).HasLine l → 0 < l) ∧
      ∀ f ∈ found 0,
        f.line = 0 ∨ (meeting 0).HasLine f.line ∨ (entry 0).reflection.HasLine f.line := by
  intro a entry found
  have hknown : ∀ l, (meeting 9).HasLine l → 0 < l := by
    intro l hl
    have hmem := meeting_hasLine hl
    simp only [List.mem_cons, List.not_mem_nil, or_false] at hmem
    omega
  have hunknown : (meeting 0).HasLine 0 :=
    .property List.mem_cons_self (.attr List.mem_cons_self (.arg List.mem_cons_self .own))
  have hfile : reportPath ⟨"/app"⟩ (some ⟨"/app/src/Meeting.php"⟩) = ⟨"src/Meeting.php"⟩ := by
    decide +kernel
  have hnotall : ¬ ∀ l, (meeting 0).HasLine l → 0 < l := fun h => absurd (h 0 hunknown) (by decide)
  refine ⟨by decide +kernel, hknown, ?_, by decide +kernel, hnotall, ?_⟩
  · intro f hf
    obtain ⟨hreported, -, hline⟩ := findings_pointInto a .empty (entry 9) (meeting 9) _ f hf
    exact ⟨hreported.trans hfile, hline hknown⟩
  · intro f hf
    exact (findings_pointInto a .empty (entry 0) (meeting 0) _ f hf).2.1

end Analyzer

end EntityConventions
