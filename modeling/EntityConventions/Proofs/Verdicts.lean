import EntityConventions.Proofs.Checking
import EntityConventions.Proofs.Requalified

/-! # Leading separators do not change a verdict

The verdict of a finding is all of it but the text of its message.  Two classes under check are
related (`ClassContext.Requalified`) if their declarations and resolved classes differ by leading
separators, and if every name resolves to related classes for both.  Each of the eight checks
gives related classes the same verdicts (`Check.violations_verdict`): what it asks about names is
answered alike, and names otherwise only go into messages.  What a report keeps of violations and
how it sorts them does not depend on messages, so related documents have reports with the same
verdicts in the same order (`checkModels_requalified`). -/

namespace EntityConventions

/-- A violation without its message. -/
def Violation.verdict (v : Violation) : Violation :=
  { v with message := "" }

/-- A finding without its message: what is found, how severe it is, and where. -/
def Finding.verdict (f : Finding) : Finding :=
  { f with message := "" }

/-- Classes under check that differ by leading separators of names. -/
structure ClassContext.Requalified (ctx ctx' : ClassContext) : Prop where
  declaration : ctx.declaration.Requalified ctx'.declaration
  reflection : ctx.reflection.Requalified ctx'.reflection
  current : Option.Rel Reflection.Requalified ctx.scope.current ctx'.scope.current
  resolved : ∀ name,
    Option.Rel Reflection.Requalified (ctx.scope.get? name) (ctx'.scope.get? name)
  classifier : ctx.classifier = .conventions
  classifier' : ctx'.classifier = .conventions

namespace ClassContext.Requalified

variable {ctx ctx' : ClassContext}

theorem isEntity_eq (h : ctx.Requalified ctx') : ctx.isEntity = ctx'.isEntity := by
  rw [isEntity, isEntity, h.classifier, h.classifier', h.reflection.isEntity_eq]

theorem isTest_eq (h : ctx.Requalified ctx') :
    ctx.classifier.isTest ctx.className = ctx'.classifier.isTest ctx'.className := by
  rw [h.classifier, h.classifier']
  exact h.reflection.isTest_eq

theorem inTestFile_eq (h : ctx.Requalified ctx') : ctx.inTestFile = ctx'.inTestFile := by
  rw [inTestFile, inTestFile, h.reflection.file]

theorem inFixtureFile_eq (h : ctx.Requalified ctx') : ctx.inFixtureFile = ctx'.inFixtureFile := by
  rw [inFixtureFile, inFixtureFile, h.reflection.file]

/-- A check that looks at the properties' attributes that spell a concept. -/
theorem attributesSpelling_verdict (h : ctx.Requalified ctx') {c : Concept}
    (hc : c ∈ Concept.consulted) {f g : Property → Attribute → Option Violation}
    (hfg : ∀ p q a b, a.ReadAlike b →
      (f p a).map Violation.verdict = (g q b).map Violation.verdict) :
    ((ctx.declaration.attributesSpelling c).filterMap fun (p, a) => f p a).map Violation.verdict =
      ((ctx'.declaration.attributesSpelling c).filterMap fun (p, a) => g p a).map
        Violation.verdict := by
  rw [List.map_filterMap, List.map_filterMap]
  apply filterMap_eq_of_forall₂ (h.declaration.attributesSpelling_related hc)
  rintro ⟨p, a⟩ ⟨q, b⟩ hab
  exact hfg p q a b hab

end ClassContext.Requalified

/-! ### The checks -/

namespace ColumnComment

theorem isComment_eq {e f : Expr} (h : e.Requalified f) : isComment e = isComment f := by
  cases h <;> rfl

theorem hasComment_eq {e f : Expr} (h : e.Requalified f) : hasComment e = hasComment f := by
  unfold hasComment
  have hitem := optionBind_related h.items?_related fun _ _ h => findKey?_related h "comment"
  rcases related_cases hitem with ⟨he, hf⟩ | ⟨i, j, he, hf, hij⟩
  · rw [he, hf]
  · rw [he, hf]
    exact isComment_eq hij.value

theorem columnViolation?_verdict {a b : Attribute} (h : a.ReadAlike b) (n n' : String)
    (p q : Property) :
    (columnViolation? n p a).map Violation.verdict =
      (columnViolation? n' q b).map Violation.verdict := by
  unfold columnViolation?
  rcases related_cases (h.namedArg?_related "options") with ⟨ha, hb⟩ | ⟨x, y, ha, hb, hxy⟩
  · rw [ha, hb]
    simp only [Option.map_some, Violation.verdict, h.line]
  · simp only [ha, hb, hasComment_eq hxy.value_related]
    split
    · rfl
    · simp only [Option.map_some, Violation.verdict, h.line, hxy.line_eq]

theorem violations_verdict {ctx ctx' : ClassContext} (h : ctx.Requalified ctx')
    (skipTests : Bool) :
    (violations skipTests ctx).map Violation.verdict =
      (violations skipTests ctx').map Violation.verdict := by
  unfold violations
  rw [h.inTestFile_eq, h.isEntity_eq]
  split
  · rfl
  · split
    · exact h.attributesSpelling_verdict (by decide) fun p q a b hab =>
        columnViolation?_verdict hab _ _ p q
    · rfl

end ColumnComment

namespace ImmutableDates

/-- The constants for column types are recognised by the end of their class. -/
theorem isTypesClass_eq (name : String) :
    isTypesClass name = "Types".toList.isSuffixOf name.toList := by
  rw [isTypesClass, Bool.or_eq_left_iff_imp, beq_iff_eq, List.isSuffixOf_iff_suffix]
  intro hname
  have hsuffix := Name.trimLeading_suffix name
  rw [hname] at hsuffix
  exact List.IsSuffix.trans (by decide) hsuffix

theorem isTypesClass_qualify (name : String) :
    isTypesClass (Name.qualify name) = isTypesClass name := by
  rw [isTypesClass_eq, isTypesClass_eq, Bool.eq_iff_iff, List.isSuffixOf_iff_suffix,
    List.isSuffixOf_iff_suffix, Name.toList_qualify, List.suffix_cons_iff]
  exact or_iff_right fun h => absurd (List.head_eq_of_cons_eq h) (by decide)

theorem mutableType?_eq {e f : Expr} (h : e.Requalified f) : mutableType? e = mutableType? f := by
  cases h with
  | classConst constant? line hclass =>
      cases hclass with
      | none => rfl
      | some hname =>
          cases constant? with
          | none => rfl
          | some constant =>
              rcases hname with rfl | rfl
              · rfl
              · rw [mutableType?, mutableType?, isTypesClass_qualify]
  | _ => rfl

theorem columnViolation?_verdict {a b : Attribute} (h : a.ReadAlike b) (n n' : String)
    (p q : Property) :
    (columnViolation? n p a).map Violation.verdict =
      (columnViolation? n' q b).map Violation.verdict := by
  unfold columnViolation?
  rcases related_cases (h.namedArg?_related "type") with ⟨ha, hb⟩ | ⟨x, y, ha, hb, hxy⟩
  · rw [ha, hb]
    rfl
  · rw [ha, hb]
    simp only [Option.bind_eq_bind, Option.bind_some, mutableType?_eq hxy.value_related]
    cases mutableType? y.value with
    | none => rfl
    | some found => simp [Violation.verdict, hxy.line_eq, h.line]

theorem violations_verdict {ctx ctx' : ClassContext} (h : ctx.Requalified ctx') :
    (violations ctx).map Violation.verdict = (violations ctx').map Violation.verdict := by
  unfold violations
  rw [h.isEntity_eq]
  split
  · exact h.attributesSpelling_verdict (by decide) fun p q a b hab =>
      columnViolation?_verdict hab _ _ p q
  · rfl

end ImmutableDates

namespace ParameterlessConstructor

theorem violations_verdict {ctx ctx' : ClassContext} (h : ctx.Requalified ctx') :
    (violations ctx).map Violation.verdict = (violations ctx').map Violation.verdict := by
  have hskipped : isSkipped ctx = isSkipped ctx' := by
    rw [isSkipped, isSkipped, h.inFixtureFile_eq, h.isTest_eq, h.inTestFile_eq]
  have hcount : parameterCount ctx = parameterCount ctx' := by
    rw [parameterCount, parameterCount, h.reflection.facts, h.declaration.signature]
  have hline : constructorLine ctx = constructorLine ctx' := by
    rw [constructorLine, constructorLine, h.reflection.facts, h.declaration.signature,
      h.declaration.line, h.reflection.line]
  unfold violations
  rw [hskipped, h.declaration.kind, h.isEntity_eq, hcount]
  split
  · rfl
  · split
    · rfl
    · split
      · simp only [List.map_cons, List.map_nil, Violation.verdict, hline]
      · rfl

end ParameterlessConstructor

namespace RepositoryConstant

/-- Something is wrong with both of two related values, or with none. -/
theorem complaint?_related {e f : Expr} (h : e.Requalified f) (n n' : String) :
    Option.Rel (fun _ _ => True) (complaint? n e) (complaint? n' f) := by
  cases h with
  | classConst constant? line _ =>
      rw [complaint?, complaint?]
      split
      · exact .none
      · exact .some trivial
  | _ => exact .some trivial

theorem argViolation?_verdict {a b : Attribute} (h : a.ReadAlike b) {x y : Argument}
    (hxy : Argument.Requalified false x y) (n n' : String) :
    (argViolation? n a x).map Violation.verdict = (argViolation? n' b y).map Violation.verdict := by
  have hcomplaint := complaint?_related hxy.value_related n n'
  rw [argViolation?, argViolation?, Option.map_map, Option.map_map]
  apply optionMap_eq_of_rel hcomplaint
  intro _ _ _
  simp only [Function.comp_apply, Violation.verdict, hxy.value_related.line_eq, hxy.line_eq, h.line]

theorem violations_verdict {ctx ctx' : ClassContext} (h : ctx.Requalified ctx') :
    (violations ctx).map Violation.verdict = (violations ctx').map Violation.verdict := by
  unfold violations
  rw [h.isEntity_eq]
  split
  · rw [List.map_filterMap, List.map_filterMap]
    apply filterMap_eq_of_forall₂ (Attribute.filter_spelled h.declaration.attributes (by decide))
    intro a b hab
    rw [← List.head?_filterMap, ← List.head?_filterMap, ← List.head?_map, ← List.head?_map,
      List.map_filterMap, List.map_filterMap,
      filterMap_eq_of_forall₂ (hab.namedArgs_related "repositoryClass")]
    exact fun x y hxy => argViolation?_verdict hab hxy _ _
  · rfl

end RepositoryConstant

namespace ExclusiveIndexColumn

theorem conflicts_related {p q : Property} (h : p.Requalified q) (marker : Concept) :
    List.Forall₂ Attribute.Requalified (conflicts marker p) (conflicts marker q) := by
  unfold conflicts
  rw [any_eq_of_forall₂ h.attributes fun _ _ hab => hab.isDenotedBy_eq marker]
  split
  · refine List.rel_filter (fun a b hab => ?_) h.attributes
    simp only [isAssociation, hab.isDenotedBy_eq]
  · exact .nil

theorem violations_verdict {ctx ctx' : ClassContext} (h : ctx.Requalified ctx')
    (markerName : String) :
    (violations markerName ctx).map Violation.verdict =
      (violations markerName ctx').map Violation.verdict := by
  unfold violations
  rw [h.isEntity_eq]
  split
  · rw [List.map_flatMap, List.map_flatMap]
    apply flatMap_eq_of_forall₂ h.declaration.properties
    intro p q hpq
    rw [List.map_map, List.map_map]
    apply map_eq_of_forall₂ (conflicts_related hpq _)
    intro a b _
    have hlines := map_eq_of_forall₂ hpq.attributes fun _ _ hab => hab.line
    simp only [Function.comp_apply, conflictViolation, Violation.verdict, hpq.name, hpq.line,
      ← List.head?_map, hlines]
  · rfl

end ExclusiveIndexColumn

namespace IndexNamePrefix

theorem tableName?_eq {d d' : ClassDeclaration} (h : d.Requalified d') :
    tableName? d = tableName? d' := by
  unfold tableName?
  rw [← List.head?_filter, ← List.head?_filter]
  have htables := Attribute.filter_spelled h.attributes (by decide : Concept.table ∈ _)
  exact optionBind_eq_of_rel (head?_related htables) fun _ _ hab => hab.namedString?_eq "name"

theorem indexViolation?_verdict {a b : Attribute} (h : a.ReadAlike b) (n n' table : String) :
    (indexViolation? n table a).map Violation.verdict =
      (indexViolation? n' table b).map Violation.verdict := by
  unfold indexViolation?
  rw [h.namedString?_eq]
  cases b.namedString? "name" with
  | none => rfl
  | some index =>
      dsimp only
      split
      · rfl
      · simp only [Option.map_some, Violation.verdict, h.line]

theorem violations_verdict {ctx ctx' : ClassContext} (h : ctx.Requalified ctx') :
    (violations ctx).map Violation.verdict = (violations ctx').map Violation.verdict := by
  unfold violations
  rw [tableName?_eq h.declaration]
  rcases related_cases h.current with ⟨hc, hc'⟩ | ⟨r, s, hc, hc', hrs⟩
  · rw [hc, hc']
  · rw [hc, hc']
    cases tableName? ctx'.declaration with
    | none => rfl
    | some table =>
        dsimp only
        rw [h.classifier, h.classifier', hrs.isEntity_eq, h.declaration.kind]
        split
        · rw [List.map_filterMap, List.map_filterMap]
          apply filterMap_eq_of_forall₂
            (Attribute.filter_spelled h.declaration.attributes (by decide))
          exact fun a b hab => indexViolation?_verdict hab _ _ table
        · rfl

end IndexNamePrefix

namespace RangeMessages

theorem rangeViolation?_verdict {a b : Attribute} (h : a.ReadAlike b) (n n' : String)
    (p q : Property) :
    (rangeViolation? n p a).map Violation.verdict =
      (rangeViolation? n' q b).map Violation.verdict := by
  unfold rangeViolation?
  dsimp only
  rw [h.optionKeys_eq]
  split
  · simp only [Option.map_some, Violation.verdict, h.line]
  · rfl

theorem violations_verdict {ctx ctx' : ClassContext} (h : ctx.Requalified ctx') :
    (violations ctx).map Violation.verdict = (violations ctx').map Violation.verdict := by
  unfold violations
  rw [h.declaration.kind]
  split
  · exact h.attributesSpelling_verdict (by decide) fun p q a b hab =>
      rangeViolation?_verdict hab _ _ p q
  · rfl

end RangeMessages

namespace EntityTestBase

theorem entityTest?_related {ctx ctx' : ClassContext} (h : ctx.Requalified ctx') :
    Option.Rel (fun x y => x.1.Requalified y.1) (entityTest? ctx) (entityTest? ctx') := by
  apply optionBind_related h.current
  intro test test' htest
  rw [h.classifier, h.classifier', htest.isTest_eq, h.declaration.kind, htest.covered?_eq]
  split
  · cases Classifier.conventions.covered? test' with
    | none => exact .none
    | some name =>
        apply optionBind_related (h.resolved name)
        intro covered covered' hcovered
        rw [hcovered.isEntity_eq]
        split
        · exact .some htest
        · exact .none
  · exact .none

theorem violations_verdict {ctx ctx' : ClassContext} (h : ctx.Requalified ctx')
    (baseClass : String) :
    (violations baseClass ctx).map Violation.verdict =
      (violations baseClass ctx').map Violation.verdict := by
  unfold violations
  rcases related_cases (entityTest?_related h) with ⟨ht, ht'⟩ | ⟨⟨r, n⟩, ⟨s, n'⟩, ht, ht', hrs⟩
  · simp only [ht, ht']
  · have hrs : r.Requalified s := hrs
    rcases related_cases (h.resolved baseClass) with ⟨hb, hb'⟩ | ⟨base, base', hb, hb', hbase⟩
    · simp only [ht, ht', hb, hb']
    · simp only [ht, ht', hb, hb', hrs.isSubclassOf_eq hbase]
      split
      · rfl
      · simp only [List.map_cons, List.map_nil, Violation.verdict, h.declaration.line, hrs.line]

end EntityTestBase

/-- Every check gives related classes the same verdicts. -/
theorem Check.violations_verdict {ctx ctx' : ClassContext} (h : ctx.Requalified ctx')
    (check : Check) :
    (check.violations ctx).map Violation.verdict =
      (check.violations ctx').map Violation.verdict := by
  cases check with
  | columnComment skipTests => exact ColumnComment.violations_verdict h skipTests
  | immutableDates => exact ImmutableDates.violations_verdict h
  | parameterlessConstructor => exact ParameterlessConstructor.violations_verdict h
  | repositoryConstant => exact RepositoryConstant.violations_verdict h
  | exclusiveIndexColumn marker => exact ExclusiveIndexColumn.violations_verdict h marker
  | indexNamePrefix => exact IndexNamePrefix.violations_verdict h
  | rangeMessages => exact RangeMessages.violations_verdict h
  | entityTestBase baseClass => exact EntityTestBase.violations_verdict h baseClass

/-! ### Reports -/

namespace Analyzer

/-- What a report keeps of violations does not depend on their messages. -/
theorem kept_map_verdict (a : Analyzer) (r : Rule) (path : Path) (vs : List Violation) :
    (a.kept r path vs).map Finding.verdict = a.kept r path (vs.map Violation.verdict) := by
  unfold kept
  split
  · rfl
  · -- A message is not read by the configuration, so it can be dropped before as well as after.
    rw [List.map_map, List.map_map, List.map_map, List.filter_map, List.filter_map, List.map_map]
    rfl

section requalified

variable {a : Analyzer} {models models' : List Model}

/-- Related entries are related as classes under check, each among its own documents. -/
theorem context_requalified (ha : a.classifier = .conventions)
    (h : List.Forall₂ Model.Requalified models models') {e f : ClassEntry} (hef : e.Requalified f)
    {d d' : ClassDeclaration} (hd : d.Requalified d') :
    (a.context (.ofModels models) e d).Requalified (a.context (.ofModels models') f d') where
  declaration := hd
  reflection := hef.reflection
  current := .some hef.reflection
  resolved _ := ClassIndex.get?_related h rfl
  classifier := ha
  classifier' := ha

theorem dueAbout_verdict (ha : a.classifier = .conventions)
    (h : List.Forall₂ Model.Requalified models models') {e f : ClassEntry}
    (hef : e.Requalified f) :
    (a.dueAbout models e).map Finding.verdict = (a.dueAbout models' f).map Finding.verdict := by
  unfold dueAbout
  rcases related_cases hef.declaration with ⟨he, hf⟩ | ⟨d, d', he, hf, hd⟩
  · rw [he, hf]
  · have hctx := context_requalified ha h hef hd
    rw [he, hf]
    dsimp only
    rw [List.map_flatMap, List.map_flatMap]
    refine List.flatMap_congr fun r _ => ?_
    rw [dueBy_eq_kept, dueBy_eq_kept, kept_map_verdict, kept_map_verdict,
      r.check.violations_verdict hctx, hef.file_eq]

theorem due_verdict (ha : a.classifier = .conventions)
    (h : List.Forall₂ Model.Requalified models models') :
    (a.due models).map Finding.verdict = (a.due models').map Finding.verdict := by
  rw [due_eq_flatMap, due_eq_flatMap, List.map_flatMap, List.map_flatMap]
  exact flatMap_eq_of_forall₂ (flatMap_classes_related h) fun _ _ hef => dueAbout_verdict ha h hef

end requalified

/-- **Leading separators do not change a verdict.**  If documents differ by separators put in front
of names of resolved classes, of ancestors, of classes in class constants, of covered classes and
of attributes, their reports have the same findings in the same order, up to the texts of the
messages, and the same counts. -/
theorem checkModels_requalified (root : Path) (rules : List Rule) (config : Config)
    {models models' : List Model} (h : List.Forall₂ Model.Requalified models models') :
    let a := build root rules config .conventions
    (a.checkModels models).findings.map Finding.verdict =
        (a.checkModels models').findings.map Finding.verdict ∧
      (a.checkModels models).classesChecked = (a.checkModels models').classesChecked ∧
      (a.checkModels models).filesChecked = (a.checkModels models').filesChecked := by
  intro a
  refine ⟨?_, ?_, h.length_eq⟩
  · -- The key of a finding is part of its verdict.
    have hs : IsStableSort (Finding.key ∘ Finding.verdict) (a.due models)
        (a.checkModels models).findings := a.checkModels_isStableSort models
    have hs' : IsStableSort (Finding.key ∘ Finding.verdict) (a.due models')
        (a.checkModels models').findings := a.checkModels_isStableSort models'
    apply hs.map.eq_of_withKey_eq hs'.map
    intro k
    rw [due_verdict rfl h]
  · rw [checkModels_classesChecked_eq_countP, checkModels_classesChecked_eq_countP]
    exact countP_eq_of_forall₂ (flatMap_classes_related h) fun _ _ hef => hef.isDeclared_eq

/-- A document of an entity with a column of a mutable type, which also covers itself; all its
names are changed by a given function. -/
def selfCovering (rename : String → String) : Model where
  classes := [{
    file? := some ⟨"src/DayTest.php"⟩
    declaration? := some {
      name := "DayTest"
      kind := .regular
      line := 3
      attributes := []
      properties := [⟨"begin", 5, [⟨rename "ORM\\Column", 5,
        [.named "type" (.classConst (some (rename "Types")) (some "DATE_MUTABLE") 5)]⟩]⟩]
      constructor? := none }
    reflection := {
      name := rename "App\\DayTest"
      file := none
      line := 3
      isAbstract := false
      ancestors := [rename "App\\Period"]
      constructor? := none
      attributes := [.bare (rename "ORM\\Entity") 2,
        ⟨rename "CoversClass", 2, [.positional (.string (rename "App\\DayTest") 2)]⟩] } }]

theorem requalified_selfCovering :
    (selfCovering id).Requalified (selfCovering Name.qualify) := by
  have hcolumn : Attribute.Requalified
      ⟨"ORM\\Column", 5, [.named "type" (.classConst (some "Types") (some "DATE_MUTABLE") 5)]⟩
      ⟨Name.qualify "ORM\\Column", 5,
        [.named "type" (.classConst (some (Name.qualify "Types")) (some "DATE_MUTABLE") 5)]⟩ :=
    ⟨Or.inr ⟨by decide, rfl⟩, rfl, .cons (.value _ _ (.classConst _ _ (.some (Or.inr rfl)))) .nil⟩
  have hentity : Attribute.Requalified (.bare "ORM\\Entity" 2)
      (.bare (Name.qualify "ORM\\Entity") 2) :=
    ⟨Or.inr ⟨by decide, rfl⟩, rfl, .nil⟩
  have hcovers : Attribute.Requalified
      ⟨"CoversClass", 2, [.positional (.string "App\\DayTest" 2)]⟩
      ⟨Name.qualify "CoversClass", 2, [.positional (.string (Name.qualify "App\\DayTest") 2)]⟩ :=
    ⟨Or.inr ⟨by decide, rfl⟩, rfl, .cons (.target _ _ _ _ (by decide)) .nil⟩
  exact .cons {
    file := rfl
    declaration := .some ⟨rfl, rfl, rfl, .nil, .cons ⟨rfl, rfl, .cons hcolumn .nil⟩ .nil, rfl⟩
    reflection := ⟨Or.inr rfl, rfl, rfl, rfl, .cons (Or.inr rfl) .nil, rfl,
      .cons hentity (.cons hcovers .nil)⟩ } .nil

theorem checkModels_requalified_selfCovering :
    let a := build ⟨"/app"⟩ Rule.all .default .conventions
    List.Forall₂ Model.Requalified [selfCovering id] [selfCovering Name.qualify] ∧
      (a.checkModels [selfCovering id]).findings.map Finding.verdict =
        (a.checkModels [selfCovering Name.qualify]).findings.map Finding.verdict ∧
      (a.checkModels [selfCovering id]).classesChecked =
        (a.checkModels [selfCovering Name.qualify]).classesChecked ∧
      (a.checkModels [selfCovering id]).filesChecked =
        (a.checkModels [selfCovering Name.qualify]).filesChecked := by
  intro a
  have h : List.Forall₂ Model.Requalified [selfCovering id] [selfCovering Name.qualify] :=
    .cons requalified_selfCovering .nil
  exact ⟨h, checkModels_requalified _ _ _ h⟩

end Analyzer

end EntityConventions
