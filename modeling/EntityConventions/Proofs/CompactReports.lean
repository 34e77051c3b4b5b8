import EntityConventions.Proofs.Checking
import EntityConventions.Proofs.Lines
import EntityConventions.Proofs.Names
import EntityConventions.Proofs.Paths

/-! # Compact reports, line by line

A compact report ends each finding with a newline and escapes nothing.  It has as many lines as
findings exactly if no finding quotes a newline (`Report.newlines_asCompact`), and then its lines
are the findings one by one (`Report.splitOn_asCompact`).

A finding quotes the file of its class and, in its message, names and string literals: those that
`quotable` lists for the parts of a document and for the options of a check.  For each check
`isOneLine_of_mem_violations` says that its identifiers are on one line, and its messages if all
that can be quoted is.  So documents without newlines in quotable texts have compact reports with
one line for each finding (`Analyzer.render_compact`); a newline in the name of a property breaks
the line (`Analyzer.render_compact_brokenDay`). -/

namespace EntityConventions

open Decimal

/-! ### Names on one line -/

namespace Text.IsOneLine

variable {t : String}

theorem short (h : IsOneLine t) : IsOneLine (Name.short t) :=
  h.of_suffix (Name.short_suffix t)

theorem stripLeading (h : IsOneLine t) : IsOneLine (Name.stripLeading t) :=
  h.of_suffix (Name.stripLeading_suffix t)

end Text.IsOneLine

open Text

/-! ### Findings and reports -/

/-- The newlines of a finding are those of what it quotes. -/
theorem Finding.newlines_oneLine (f : Finding) :
    newlines f.oneLine =
      newlines f.file.text + newlines f.message + (newlines f.code + newlines f.identifier) := by
  have hline : newlines (Digits.natText f.line) = 0 :=
    newlines_eq_zero_iff.mpr (isOneLine_natText f.line)
  have hseverity : newlines f.severity.word = 0 :=
    newlines_eq_zero_iff.mpr (isOneLine_severity f.severity)
  have hmarks : ∀ mark ∈ [":", ": ", " [", "] ", " (", ")"], newlines mark = 0 := by decide
  simp only [List.forall_mem_cons] at hmarks
  simp only [oneLine, place, newlines_append, hline, hseverity, hmarks]
  omega

namespace Report

/-- The lines of a compact report are its findings. -/
theorem asCompact_eq_ofLines (r : Report) :
    r.asCompact = ofLines (r.findings.map Finding.oneLine) := by
  rw [asCompact, ofLines, List.map_map]
  rfl

/-- Each finding contributes the newline at its end and its own ones. -/
theorem newlines_asCompact (r : Report) :
    newlines r.asCompact =
      r.findings.length + (r.findings.map fun f => newlines f.oneLine).sum := by
  rw [asCompact_eq_ofLines, newlines_ofLines, List.length_map, List.map_map]
  rfl

theorem newlines_asCompact_eq_iff {r : Report} :
    newlines r.asCompact = r.findings.length ↔ ∀ f ∈ r.findings, IsOneLine f.oneLine := by
  rw [newlines_asCompact, Nat.add_eq_left, List.sum_eq_zero_iff_forall_eq_nat]
  simp only [List.forall_mem_map, newlines_eq_zero_iff]

/-- If no finding has a newline of its own, the lines are the findings. -/
theorem splitOn_asCompact {r : Report} (h : ∀ f ∈ r.findings, IsOneLine f.oneLine) :
    r.asCompact.toList.splitOn '\n' = (r.findings.map fun f => f.oneLine.toList) ++ [[]] := by
  rw [asCompact_eq_ofLines, splitOn_ofLines (List.forall_mem_map.mpr h), List.map_map]
  rfl

end Report

/-! ### What findings quote -/

/-- The text that a message can take from an expression. -/
def Expr.quotable : Expr → List String
  | .string value _ => [value]
  | .classConst class? _ _ => class?.toList
  | _ => []

/-- The texts that a message can take from an attribute. -/
def Attribute.quotable (a : Attribute) : List String :=
  a.name :: a.args.flatMap fun arg => arg.value.quotable

/-- The texts that a message can take from a property. -/
def Property.quotable (p : Property) : List String :=
  p.name :: p.attributes.flatMap Attribute.quotable

/-- The texts that a message can take from a declaration. -/
def ClassDeclaration.quotable (d : ClassDeclaration) : List String :=
  d.attributes.flatMap Attribute.quotable ++ d.properties.flatMap Property.quotable

/-- The texts that a message can take from a resolved class. -/
def Reflection.quotable (r : Reflection) : List String :=
  r.name :: r.attributes.flatMap Attribute.quotable

/-- The texts that a finding can take from an entry. -/
def ClassEntry.quotable (e : ClassEntry) : List String :=
  e.file.toList.map Path.text ++ e.declaration?.toList.flatMap ClassDeclaration.quotable ++
    e.reflection.quotable

/-- The texts that a finding can take from a document. -/
def Model.quotable (m : Model) : List String :=
  m.classes.flatMap ClassEntry.quotable

/-- The options of a check that a message can quote. -/
def Check.quotable : Check → List String
  | .exclusiveIndexColumn marker => [marker]
  | .entityTestBase baseClass => [baseClass]
  | _ => []

/-- All that checks quote of a class is on one line. -/
structure ClassContext.IsOneLine (ctx : ClassContext) : Prop where
  className : Text.IsOneLine ctx.className
  declaration : ∀ t ∈ ctx.declaration.quotable, Text.IsOneLine t
  current : ∀ r ∈ ctx.scope.current, Text.IsOneLine r.name
  covered : ∀ r ∈ ctx.scope.current, ∀ name ∈ ctx.classifier.covered? r, Text.IsOneLine name

namespace ClassContext.IsOneLine

variable {ctx : ClassContext} (h : ctx.IsOneLine)
include h

theorem property {p : Property} (hp : p ∈ ctx.declaration.properties) : Text.IsOneLine p.name :=
  h.declaration _ (List.mem_append_right _
    (List.mem_flatMap.mpr ⟨p, hp, List.mem_cons_self⟩))

theorem propertyAttribute {p : Property} (hp : p ∈ ctx.declaration.properties) {a : Attribute}
    (ha : a ∈ p.attributes) : Text.IsOneLine a.name :=
  h.declaration _ (List.mem_append_right _ (List.mem_flatMap.mpr ⟨p, hp,
    List.mem_cons_of_mem _ (List.mem_flatMap.mpr ⟨a, ha, List.mem_cons_self⟩)⟩))

theorem argument {a : Attribute} (ha : a ∈ ctx.declaration.attributes) {arg : Argument}
    (harg : arg ∈ a.args) : ∀ t ∈ arg.value.quotable, Text.IsOneLine t := fun t ht =>
  h.declaration t (List.mem_append_left _ (List.mem_flatMap.mpr ⟨a, ha,
    List.mem_cons_of_mem _ (List.mem_flatMap.mpr ⟨arg, harg, ht⟩)⟩))

theorem namedString {a : Attribute} (ha : a ∈ ctx.declaration.attributes) {name value : String}
    (hvalue : a.namedString? name = some value) : Text.IsOneLine value := by
  obtain ⟨arg, harg, hstring⟩ := Option.bind_eq_some_iff.mp hvalue
  apply h.argument ha (List.mem_of_find?_eq_some harg)
  cases hvalue : arg.value with
  | string text line =>
      rw [hvalue] at hstring
      exact List.mem_singleton.mpr (Option.some.inj hstring).symm
  | _ =>
      rw [hvalue] at hstring
      exact absurd hstring (Option.some_ne_none _).symm

theorem spelled {c : Concept} {q : Property × Attribute}
    (hq : q ∈ ctx.declaration.attributesSpelling c) : Text.IsOneLine q.1.name := by
  obtain ⟨p, hp, hq⟩ := List.mem_flatMap.mp hq
  obtain ⟨a, -, rfl⟩ := List.mem_map.mp hq
  exact h.property hp

end ClassContext.IsOneLine

/-! ### The messages of each check -/

section messages

variable {ctx : ClassContext} {v : Violation}

theorem ColumnComment.isOneLine_of_mem_violations {skipTests : Bool}
    (hv : v ∈ ColumnComment.violations skipTests ctx) :
    IsOneLine v.identifier ∧ (ctx.IsOneLine → IsOneLine v.message) := by
  unfold violations at hv
  split at hv
  · exact absurd hv List.not_mem_nil
  split at hv
  · obtain ⟨⟨p, a⟩, hpa, hv⟩ := List.mem_filterMap.mp hv
    simp only [columnViolation?] at hv
    split at hv
    · cases hv
      refine ⟨isOneLine_ofList (by decide), fun h => ?_⟩
      simp only [isOneLine_append, h.className, h.spelled hpa, and_true]
      and_intros <;> exact isOneLine_ofList (by decide)
    · split at hv
      · cases hv
      · cases hv
        refine ⟨isOneLine_ofList (by decide), fun h => ?_⟩
        simp only [isOneLine_append, h.className, h.spelled hpa, and_true]
        and_intros <;> exact isOneLine_ofList (by decide)
  · exact absurd hv List.not_mem_nil

/-- The words for mutable types and their replacements are known. -/
theorem ImmutableDates.isOneLine_of_mutableType? {e : Expr} {found : MutableType}
    (h : mutableType? e = some found) :
    IsOneLine found.identifier ∧ IsOneLine found.replacement ∧ IsOneLine found.written := by
  have hknown : ∀ {word replacement : String}, replacements.lookup word = some replacement →
      IsOneLine word ∧ IsOneLine replacement := by
    intro word replacement hlookup
    have hrows : ∀ row ∈ replacements, IsOneLine row.1 ∧ IsOneLine row.2 := by decide +kernel
    obtain ⟨before, after, heq, -⟩ := List.lookup_eq_some_iff.mp hlookup
    exact hrows (word, replacement) (heq ▸ List.mem_append_right before List.mem_cons_self)
  unfold mutableType? at h
  split at h
  · obtain ⟨replacement, hlookup, rfl⟩ := Option.map_eq_some_iff.mp h
    refine ⟨isOneLine_ofList (by decide), (hknown hlookup).2, ?_⟩
    simp only [isOneLine_append, (hknown hlookup).1, and_true]
    and_intros <;> exact isOneLine_ofList (by decide)
  · split at h
    · obtain ⟨replacement, hlookup, rfl⟩ := Option.map_eq_some_iff.mp h
      refine ⟨isOneLine_ofList (by decide), (hknown hlookup).2, ?_⟩
      exact isOneLine_append.mpr ⟨isOneLine_ofList (by decide), (hknown hlookup).1⟩
    · cases h
  · cases h

theorem ImmutableDates.isOneLine_of_mem_violations (hv : v ∈ ImmutableDates.violations ctx) :
    IsOneLine v.identifier ∧ (ctx.IsOneLine → IsOneLine v.message) := by
  unfold violations at hv
  split at hv
  · obtain ⟨⟨p, a⟩, hpa, hv⟩ := List.mem_filterMap.mp hv
    obtain ⟨arg, -, hv⟩ := Option.bind_eq_some_iff.mp hv
    obtain ⟨found, hfound, hv⟩ := Option.bind_eq_some_iff.mp hv
    cases hv
    obtain ⟨hidentifier, hreplacement, hwritten⟩ := isOneLine_of_mutableType? hfound
    refine ⟨hidentifier, fun h => ?_⟩
    simp only [isOneLine_append, h.className, h.spelled hpa, hreplacement, hwritten, and_true]
    and_intros <;> exact isOneLine_ofList (by decide)
  · exact absurd hv List.not_mem_nil

theorem ParameterlessConstructor.isOneLine_of_mem_violations
    (hv : v ∈ ParameterlessConstructor.violations ctx) :
    IsOneLine v.identifier ∧ (ctx.IsOneLine → IsOneLine v.message) := by
  unfold violations at hv
  split at hv
  · exact absurd hv List.not_mem_nil
  split at hv
  · exact absurd hv List.not_mem_nil
  split at hv
  · rw [List.mem_singleton.mp hv]
    refine ⟨isOneLine_ofList (by decide), fun h => ?_⟩
    simp only [isOneLine_append, h.className, and_true]
    and_intros <;> exact isOneLine_ofList (by decide)
  · exact absurd hv List.not_mem_nil

theorem RepositoryConstant.isOneLine_of_complaint? {className message : String} {e : Expr}
    (hclass : IsOneLine className) (he : ∀ t ∈ e.quotable, IsOneLine t)
    (h : complaint? className e = some message) : IsOneLine message := by
  unfold complaint? at h
  split at h
  · rename_i value line
    cases h
    simp only [isOneLine_append, hclass, he value (List.mem_singleton.mpr rfl), and_true]
    and_intros <;> exact isOneLine_ofList (by decide)
  · split at h
    · cases h
    · cases h
      simp only [isOneLine_append, hclass, and_true]
      and_intros <;> exact isOneLine_ofList (by decide)
  · cases h
    simp only [isOneLine_append, hclass, and_true]
    and_intros <;> exact isOneLine_ofList (by decide)

theorem RepositoryConstant.isOneLine_of_mem_violations
    (hv : v ∈ RepositoryConstant.violations ctx) :
    IsOneLine v.identifier ∧ (ctx.IsOneLine → IsOneLine v.message) := by
  unfold violations at hv
  split at hv
  · obtain ⟨a, ha, hv⟩ := List.mem_filterMap.mp hv
    obtain ⟨arg, harg, hv⟩ := List.exists_of_findSome?_eq_some hv
    obtain ⟨message, hmessage, rfl⟩ := Option.map_eq_some_iff.mp hv
    refine ⟨isOneLine_ofList (by decide), fun h => ?_⟩
    exact isOneLine_of_complaint? h.className
      (h.argument (List.mem_of_mem_filter ha) (List.mem_of_mem_filter harg)) hmessage
  · exact absurd hv List.not_mem_nil

theorem ExclusiveIndexColumn.isOneLine_of_mem_violations {marker : String}
    (hv : v ∈ ExclusiveIndexColumn.violations marker ctx) :
    IsOneLine v.identifier ∧ (IsOneLine marker → ctx.IsOneLine → IsOneLine v.message) := by
  unfold violations at hv
  split at hv
  · obtain ⟨p, hp, hv⟩ := List.mem_flatMap.mp hv
    obtain ⟨a, ha, rfl⟩ := List.mem_map.mp hv
    have ha : a ∈ p.attributes := by
      unfold conflicts at ha
      split at ha
      · exact List.mem_of_mem_filter ha
      · exact absurd ha List.not_mem_nil
    refine ⟨isOneLine_ofList (by decide), fun hmarker h => ?_⟩
    simp only [conflictViolation, Concept.short, isOneLine_append, h.className, h.property hp,
      hmarker.short, (h.propertyAttribute hp ha).short, and_true]
    and_intros <;> exact isOneLine_ofList (by decide)
  · exact absurd hv List.not_mem_nil

theorem IndexNamePrefix.isOneLine_of_mem_violations (hv : v ∈ IndexNamePrefix.violations ctx) :
    IsOneLine v.identifier ∧ (ctx.IsOneLine → IsOneLine v.message) := by
  unfold violations at hv
  split at hv
  · rename_i current table hcurrent htable
    split at hv
    · obtain ⟨a, ha, hv⟩ := List.mem_filterMap.mp hv
      obtain ⟨b, hb, htable⟩ := Option.bind_eq_some_iff.mp htable
      unfold indexViolation? at hv
      split at hv
      · cases hv
      · rename_i index hindex
        split at hv
        · cases hv
        · cases hv
          refine ⟨isOneLine_ofList (by decide), fun h => ?_⟩
          simp only [isOneLine_append, h.current current hcurrent,
            h.namedString (List.mem_of_mem_filter ha) hindex,
            h.namedString (List.mem_of_find?_eq_some hb) htable, and_true]
          and_intros <;> exact isOneLine_ofList (by decide)
    · exact absurd hv List.not_mem_nil
  · exact absurd hv List.not_mem_nil

theorem RangeMessages.isOneLine_of_mem_violations (hv : v ∈ RangeMessages.violations ctx) :
    IsOneLine v.identifier ∧ (ctx.IsOneLine → IsOneLine v.message) := by
  unfold violations at hv
  split at hv
  · obtain ⟨⟨p, a⟩, hpa, hv⟩ := List.mem_filterMap.mp hv
    simp only [rangeViolation?] at hv
    split at hv
    · cases hv
      refine ⟨isOneLine_ofList (by decide), fun h => ?_⟩
      simp only [isOneLine_append, h.className, h.spelled hpa, and_true]
      and_intros <;> exact isOneLine_ofList (by decide)
    · cases hv
  · exact absurd hv List.not_mem_nil

theorem EntityTestBase.of_entityTest? {test : Reflection} {coveredName : String}
    (h : entityTest? ctx = some (test, coveredName)) :
    ctx.scope.current = some test ∧ ctx.classifier.covered? test = some coveredName := by
  obtain ⟨current, hcurrent, h⟩ := Option.bind_eq_some_iff.mp h
  split at h
  · obtain ⟨name, hname, h⟩ := Option.bind_eq_some_iff.mp h
    obtain ⟨covered, -, h⟩ := Option.bind_eq_some_iff.mp h
    split at h
    · cases h
      exact ⟨hcurrent, hname⟩
    · cases h
  · cases h

theorem EntityTestBase.isOneLine_of_mem_violations {baseClass : String}
    (hv : v ∈ EntityTestBase.violations baseClass ctx) :
    IsOneLine v.identifier ∧ (IsOneLine baseClass → ctx.IsOneLine → IsOneLine v.message) := by
  unfold violations at hv
  split at hv
  · rename_i test coveredName base htest _
    obtain ⟨hcurrent, hcovered⟩ := of_entityTest? htest
    split at hv
    · exact absurd hv List.not_mem_nil
    · rw [List.mem_singleton.mp hv]
      refine ⟨isOneLine_ofList (by decide), fun hbase h => ?_⟩
      simp only [isOneLine_append, h.current test hcurrent, h.covered test hcurrent _ hcovered,
        hbase, and_true]
      and_intros <;> exact isOneLine_ofList (by decide)
  · exact absurd hv List.not_mem_nil

/-- Identifiers are on one line, and messages if what they quote is. -/
theorem Check.isOneLine_of_mem_violations {c : Check} (hv : v ∈ c.violations ctx) :
    IsOneLine v.identifier ∧
      ((∀ t ∈ c.quotable, IsOneLine t) → ctx.IsOneLine → IsOneLine v.message) := by
  cases c with
  | columnComment skipTests =>
      exact (ColumnComment.isOneLine_of_mem_violations hv).imp_right fun h _ => h
  | immutableDates => exact (ImmutableDates.isOneLine_of_mem_violations hv).imp_right fun h _ => h
  | parameterlessConstructor =>
      exact (ParameterlessConstructor.isOneLine_of_mem_violations hv).imp_right fun h _ => h
  | repositoryConstant =>
      exact (RepositoryConstant.isOneLine_of_mem_violations hv).imp_right fun h _ => h
  | exclusiveIndexColumn marker =>
      exact (ExclusiveIndexColumn.isOneLine_of_mem_violations hv).imp_right fun h hoptions =>
        h (hoptions marker (List.mem_singleton.mpr rfl))
  | indexNamePrefix => exact (IndexNamePrefix.isOneLine_of_mem_violations hv).imp_right fun h _ => h
  | rangeMessages => exact (RangeMessages.isOneLine_of_mem_violations hv).imp_right fun h _ => h
  | entityTestBase baseClass =>
      exact (EntityTestBase.isOneLine_of_mem_violations hv).imp_right fun h hoptions =>
        h (hoptions baseClass (List.mem_singleton.mpr rfl))

theorem Check.isOneLine_code (c : Check) : IsOneLine c.code := by
  cases c <;> exact isOneLine_ofList (by decide)

end messages

/-! ### Documents whose texts are on one line -/

/-- The covered class is named by an argument of an attribute. -/
theorem Classifier.isOneLine_of_covered? {r : Reflection} {name : String}
    (hr : ∀ t ∈ r.quotable, IsOneLine t) (h : conventions.covered? r = some name) :
    IsOneLine name := by
  obtain ⟨covers, hcovers, h⟩ := Option.bind_eq_some_iff.mp h
  obtain ⟨arg, harg, h⟩ := Option.bind_eq_some_iff.mp h
  have hmem : arg ∈ covers.args := by
    rcases Option.or_eq_some_iff.mp harg with hnamed | ⟨-, hfirst⟩
    · exact List.mem_of_find?_eq_some hnamed
    · exact List.mem_of_find?_eq_some hfirst
  have hvalue : ∀ t ∈ arg.value.quotable, IsOneLine t := fun t ht =>
    hr t (List.mem_cons_of_mem _ (List.mem_flatMap.mpr ⟨covers, List.mem_of_find?_eq_some hcovers,
      List.mem_cons_of_mem _ (List.mem_flatMap.mpr ⟨arg, hmem, ht⟩)⟩))
  generalize arg.value = value at h hvalue
  unfold target? at h
  split at h
  · split at h
    · cases h
      exact (hvalue _ (List.mem_singleton.mpr rfl)).stripLeading
    · cases h
  · cases h
    exact (hvalue _ (List.mem_singleton.mpr rfl)).stripLeading
  · cases h

/-- The reported path is spelled with the characters of the file's path. -/
theorem isOneLine_reportPath {root : Path} {file : Option Path}
    (h : ∀ path ∈ file, IsOneLine path.text) : IsOneLine (reportPath root file).text := by
  unfold reportPath
  split
  · exact isOneLine_ofList (by decide)
  · rename_i path
    have hpath := h path rfl
    unfold Path.stripAncestor
    split
    · intro hnewline
      rcases Path.mem_text_after hnewline with hslash | hnewline
      · exact absurd hslash (by decide)
      · exact hpath hnewline
    · exact hpath

namespace Analyzer

theorem isOneLine_context {a : Analyzer} (ha : a.classifier = .conventions) {index : ClassIndex}
    {e : ClassEntry} (he : ∀ t ∈ e.quotable, IsOneLine t) {d : ClassDeclaration}
    (hd : e.declaration? = some d) : (a.context index e d).IsOneLine := by
  have hreflection : ∀ t ∈ e.reflection.quotable, IsOneLine t := fun t ht =>
    he t (List.mem_append_right _ ht)
  have hname : IsOneLine e.reflection.name := hreflection _ List.mem_cons_self
  refine ⟨hname, fun t ht => ?_, ?_, ?_⟩
  · apply he t (List.mem_append_left _ (List.mem_append_right _ _))
    rw [hd]
    exact List.mem_flatMap.mpr ⟨d, List.mem_singleton.mpr rfl, ht⟩
  · rintro r ⟨⟩
    exact hname
  · rintro r ⟨⟩ name hcovered
    rw [context, ha] at hcovered
    exact Classifier.isOneLine_of_covered? hreflection hcovered

/-- Of a reported finding only the file and the message can break the line. -/
theorem newlines_oneLine_of_mem_checkModels {a : Analyzer} {models : List Model} {f : Finding}
    (hf : f ∈ (a.checkModels models).findings) :
    newlines f.oneLine = newlines f.file.text + newlines f.message := by
  obtain ⟨e, -, d, -, r, -, hf⟩ := exists_rule_of_mem_checkModels hf
  obtain ⟨v, hv, severity, rfl⟩ := exists_violation_of_mem_dueBy hf
  have hcode : newlines r.code = 0 := newlines_eq_zero_iff.mpr r.check.isOneLine_code
  have hidentifier : newlines v.identifier = 0 :=
    newlines_eq_zero_iff.mpr (Check.isOneLine_of_mem_violations hv).1
  rw [Finding.newlines_oneLine]
  simp only [Rule.finding, hcode, hidentifier, Nat.add_zero]

/-- If all that can be quoted is on one line, so are the findings. -/
theorem isOneLine_of_mem_checkModels {a : Analyzer} (ha : a.classifier = .conventions)
    (hrules : ∀ r ∈ a.rules, ∀ t ∈ r.check.quotable, IsOneLine t) {models : List Model}
    (hmodels : ∀ m ∈ models, ∀ t ∈ m.quotable, IsOneLine t) {f : Finding}
    (hf : f ∈ (a.checkModels models).findings) :
    IsOneLine f.file.text ∧ IsOneLine f.message := by
  obtain ⟨e, he, d, hd, r, hr, hf⟩ := exists_rule_of_mem_checkModels hf
  obtain ⟨v, hv, severity, rfl⟩ := exists_violation_of_mem_dueBy hf
  have hentry : ∀ t ∈ e.quotable, IsOneLine t := by
    obtain ⟨m, hm, he⟩ := List.mem_flatMap.mp he
    exact fun t ht => hmodels m hm t (List.mem_flatMap.mpr ⟨e, he, ht⟩)
  refine ⟨isOneLine_reportPath fun path hpath => ?_, ?_⟩
  · apply hentry _ (List.mem_append_left _ (List.mem_append_left _ _))
    exact List.mem_map_of_mem (Option.mem_toList.mpr hpath)
  · exact (Check.isOneLine_of_mem_violations hv).2 (hrules r hr) (isOneLine_context ha hentry hd)

/-- **Compact reports, line by line.**  A compact report has one newline for each finding and those
that its findings quote in files and messages; so it has as many newlines as findings exactly if
no finding quotes one, and then its lines are the findings in their order.  This is the case if no
quotable text of the documents and of the options of the rules has a newline. -/
theorem render_compact (root : Path) (rules : List Rule) (config : Config) (models : List Model)
    (colour : Bool) :
    let a := build root rules config .conventions
    let findings := (a.checkModels models).findings
    let text := (a.checkModels models).render .compact colour
    newlines text = findings.length +
        (findings.map fun f => newlines f.file.text + newlines f.message).sum ∧
      (newlines text = findings.length ↔
        ∀ f ∈ findings, IsOneLine f.file.text ∧ IsOneLine f.message) ∧
      (newlines text = findings.length →
        text.toList.splitOn '\n' = (findings.map fun f => f.oneLine.toList) ++ [[]]) ∧
      ((∀ r ∈ a.rules, ∀ t ∈ r.check.quotable, IsOneLine t) →
        (∀ m ∈ models, ∀ t ∈ m.quotable, IsOneLine t) → newlines text = findings.length) := by
  intro a findings text
  have hown : ∀ f ∈ findings, newlines f.oneLine = newlines f.file.text + newlines f.message :=
    fun f hf => newlines_oneLine_of_mem_checkModels hf
  have hiff : newlines text = findings.length ↔
      ∀ f ∈ findings, IsOneLine f.file.text ∧ IsOneLine f.message := by
    rw [show newlines text = findings.length ↔ _ from Report.newlines_asCompact_eq_iff]
    refine forall₂_congr fun f hf => ?_
    rw [← newlines_eq_zero_iff, hown f hf, Nat.add_eq_zero_iff, newlines_eq_zero_iff,
      newlines_eq_zero_iff]
  refine ⟨?_, hiff, fun h => ?_, fun hrules hmodels => ?_⟩
  · rw [← List.map_congr_left hown]
    exact Report.newlines_asCompact _
  · exact Report.splitOn_asCompact (Report.newlines_asCompact_eq_iff.mp h)
  · exact hiff.mpr fun f hf => isOneLine_of_mem_checkModels rfl hrules hmodels hf

/-- The two findings about `mutableDay` are two lines. -/
theorem render_compact_mutableDay :
    let a := build ⟨"/app"⟩ Rule.all .default .conventions
    let findings := (a.checkModels [mutableDay]).findings
    let text := (a.checkModels [mutableDay]).render .compact false
    (∀ r ∈ a.rules, ∀ t ∈ r.check.quotable, IsOneLine t) ∧
      (∀ m ∈ [mutableDay], ∀ t ∈ m.quotable, IsOneLine t) ∧ findings.length = 2 ∧
      newlines text = 2 ∧
      text.toList.splitOn '\n' = (findings.map fun f => f.oneLine.toList) ++ [[]] := by
  intro a findings text
  have hrules : ∀ r ∈ a.rules, ∀ t ∈ r.check.quotable, IsOneLine t := by decide +kernel
  have hmodels : ∀ m ∈ [mutableDay], ∀ t ∈ m.quotable, IsOneLine t := by
    simp only [List.forall_mem_singleton]
    decide +kernel
  have hlength : findings.length = 2 := by
    rw [(a.checkModels_isStableSort [mutableDay]).perm.length_eq]
    decide +kernel
  obtain ⟨-, -, hlines, hcount⟩ :=
    render_compact ⟨"/app"⟩ Rule.all .default [mutableDay] false
  have hcount := hcount hrules hmodels
  exact ⟨hrules, hmodels, hlength, hcount.trans hlength, hlines hcount⟩

/-- A document of one entity, whose only column has no options and a newline in its name. -/
def brokenDay : String :=
  "[[[\"Day.php\",[\"Day\",\"class\",3,[],[[\"a\\nb\",5,[[\"ORM\\\\Column\",5]]]]]," ++
    "[\"Day\",null,0,false,[],null,[[\"Doctrine\\\\ORM\\\\Mapping\\\\Entity\"]]]]]]"

/-- The newline in the name of the property breaks the line of the only finding. -/
theorem render_compact_brokenDay :
    ∃ m, Model.parse brokenDay = some m ∧
      ((build ⟨"/app"⟩ Rule.all .default .conventions).checkModels [m]).findings.length = 1 ∧
      newlines (((build ⟨"/app"⟩ Rule.all .default .conventions).checkModels [m]).render .compact
        false) = 2 := by
  have hread : (Model.parse brokenDay).map (fun m =>
      ((build ⟨"/app"⟩ Rule.all .default .conventions).due [m]).map fun f =>
        newlines f.file.text + newlines f.message) = some [1] := by
    decide +kernel
  obtain ⟨m, hm, hdue⟩ := Option.map_eq_some_iff.mp hread
  have hquoted := map_findings_of_map_due hdue le_rfl
  have hlength := congrArg List.length hquoted
  rw [List.length_map] at hlength
  rw [← List.map_congr_left fun f hf => newlines_oneLine_of_mem_checkModels hf] at hquoted
  refine ⟨m, hm, hlength, ?_⟩
  show newlines (Report.asCompact _) = 2
  rw [Report.newlines_asCompact, hquoted, hlength]
  rfl

end Analyzer

end EntityConventions
