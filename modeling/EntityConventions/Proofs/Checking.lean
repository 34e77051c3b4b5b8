import EntityConventions.Analyzer
import EntityConventions.Proofs.Sorting
import Mathlib.Data.List.Basic
import Mathlib.Data.List.Nodup
import Mathlib.Algebra.BigOperators.Group.List.Basic
import Mathlib.Algebra.Ring.Nat

/-! # What a check reports

`Analyzer.due` lists what is to be reported about some documents, in the order of the documents,
their entries and the registered rules, without reference to the way a check goes about it.
`Analyzer.checkModels` reports exactly that, stably sorted (`checkModels_isStableSort_due`).  The
documents enter it through the violations of the rules alone (`dueBy_eq_kept`).

Every finding carries the code of the rule that made it, and of the rules with their usual options
no two share a code.  What a key selects from `due` therefore comes from one rule
(`withKey_due`), and a report for some of the rules, in any order, is what their codes select
from the report for all of them (`checkModels_rules`). -/

namespace EntityConventions

theorem Report.hasErrors_iff {r : Report} :
    r.hasErrors = true ↔ ∃ f ∈ r.findings, f.severity = .error := by
  simp [hasErrors]

namespace Analyzer

/-! ### What is to be reported -/

/-- What a rule is to report about a declared class: its findings on the entry's own declaration
and reflection, among the classes of all documents and at the path reported for the entry, with the
severity that is configured for the rule, unless the rule is switched off, and without those that
some entry of the configuration ignores. -/
def dueBy (a : Analyzer) (models : List Model) (e : ClassEntry) (d : ClassDeclaration) (r : Rule) :
    List Finding :=
  if (a.config.rule? r.name).bind RuleConfig.enabled = some false then []
  else
    ((r.findings
      { declaration := d
        reflection := e.reflection
        scope := ⟨some e.reflection, ClassIndex.ofModels models⟩
        classifier := a.classifier
        path := reportPath a.root e.file }).map fun f =>
      { f with severity := ((a.config.rule? r.name).bind RuleConfig.severity).getD f.severity }).filter
      fun f => ∀ i ∈ a.config.ignore, i.isMatch f = false

/-- What is to be reported about an entry; one without a declaration is only referred to. -/
def dueAbout (a : Analyzer) (models : List Model) (e : ClassEntry) : List Finding :=
  match e.declaration? with
  | none => []
  | some d => a.rules.flatMap (a.dueBy models e d)

/-- All that is to be reported about some documents. -/
def due (a : Analyzer) (models : List Model) : List Finding :=
  models.flatMap fun m => m.classes.flatMap (a.dueAbout models)

/-- What a report keeps of the violations that a rule finds in a file. -/
def kept (a : Analyzer) (r : Rule) (path : Path) (vs : List Violation) : List Finding :=
  if (a.config.rule? r.name).bind RuleConfig.enabled = some false then []
  else
    ((vs.map (r.finding path)).map fun f =>
      { f with severity := ((a.config.rule? r.name).bind RuleConfig.severity).getD f.severity }).filter
      fun f => ∀ i ∈ a.config.ignore, i.isMatch f = false

theorem kept_nil (a : Analyzer) (r : Rule) (path : Path) : a.kept r path [] = [] := by
  unfold kept
  split <;> rfl

theorem dueBy_eq_kept (a : Analyzer) (models : List Model) (e : ClassEntry) (d : ClassDeclaration)
    (r : Rule) :
    a.dueBy models e d r = a.kept r (reportPath a.root e.file)
      (r.check.violations (a.context (ClassIndex.ofModels models) e d)) :=
  rfl

/-- The findings due, entry by entry. -/
theorem due_eq_flatMap (a : Analyzer) (models : List Model) :
    a.due models = (models.flatMap Model.classes).flatMap (a.dueAbout models) :=
  List.flatMap_assoc.symm

/-! ### The stages of a check -/

theorem overrideSeverity_eq_map (config : Config) (name : String) (fs : List Finding) :
    overrideSeverity config name fs =
      fs.map fun f => { f with severity := (config.ruleSeverity? name).getD f.severity } := by
  unfold overrideSeverity
  cases config.ruleSeverity? name with
  | none => simp
  | some severity => rfl

theorem isNone_ignoredBy? (config : Config) (f : Finding) :
    (config.ignoredBy? f).isNone = decide (∀ i ∈ config.ignore, i.isMatch f = false) := by
  rw [Bool.eq_iff_iff]
  simp [Config.ignoredBy?]

theorem isRuleEnabled_eq_false_iff (config : Config) (name : String) :
    config.isRuleEnabled name = false ↔
      (config.rule? name).bind RuleConfig.enabled = some false := by
  unfold Config.isRuleEnabled
  cases (config.rule? name).bind RuleConfig.enabled with
  | none => simp
  | some b => simp

/-- The kept findings about one class are those its rules are to report. -/
theorem filter_checkClass (a : Analyzer) (models : List Model) (e : ClassEntry)
    (d : ClassDeclaration) :
    (a.checkClass (ClassIndex.ofModels models) e d).filter
        (fun f => (a.config.ignoredBy? f).isNone) =
      a.rules.flatMap (a.dueBy models e d) := by
  unfold checkClass
  induction a.rules with
  | nil => rfl
  | cons r rs ih =>
      rw [List.flatMap_cons, ← ih]
      cases hr : a.config.isRuleEnabled r.name with
      | false =>
          have hoff := (isRuleEnabled_eq_false_iff _ _).mp hr
          rw [List.filter_cons_of_neg (by simp [hr]), dueBy, if_pos hoff, List.nil_append]
      | true =>
          have hon : ¬ (a.config.rule? r.name).bind RuleConfig.enabled = some false := by
            rw [← isRuleEnabled_eq_false_iff, hr]
            simp
          rw [List.filter_cons_of_pos (by simpa using hr), List.flatMap_cons, List.filter_append, dueBy,
            if_neg hon, overrideSeverity_eq_map]
          simp only [isNone_ignoredBy?]
          rfl

theorem targets_flatMap (models : List Model)
    (g : ClassEntry → ClassDeclaration → List Finding) :
    ((targets models).flatMap fun t => g t.1 t.2) =
      models.flatMap fun m => m.classes.flatMap fun e =>
        match e.declaration? with
        | none => []
        | some d => g e d := by
  rw [targets, ← List.flatMap_assoc]
  induction models.flatMap Model.classes with
  | nil => rfl
  | cons e es ih =>
      rw [List.flatMap_cons, ← ih]
      cases he : e.declaration? with
      | none => simp [he]
      | some d => simp [he]

theorem checkModels_eq (a : Analyzer) (models : List Model) : a.checkModels models =
    Report.sorted ⟨a.due models, (targets models).length, models.length⟩ := by
  have h : ((targets models).flatMap fun t =>
        a.checkClass (ClassIndex.ofModels models) t.1 t.2).filter
        (fun f => (a.config.ignoredBy? f).isNone) = a.due models := by
    rw [List.filter_flatMap]
    simp only [filter_checkClass]
    exact targets_flatMap models fun e d => a.rules.flatMap (a.dueBy models e d)
  rw [← h]
  rfl

theorem checkModels_isStableSort (a : Analyzer) (models : List Model) :
    IsStableSort Finding.key (a.due models) (a.checkModels models).findings := by
  rw [checkModels_eq]
  exact Report.isStableSort_sorted ⟨a.due models, (targets models).length, models.length⟩

/-- A single finding needs no sorting. -/
theorem map_findings_of_map_due {α : Type} {a : Analyzer} {models : List Model} {g : Finding → α}
    {l : List α} (h : (a.due models).map g = l) (hl : l.length ≤ 1) :
    (a.checkModels models).findings.map g = l := by
  have hperm := (a.checkModels_isStableSort models).perm.map g
  rw [h] at hperm
  match l with
  | [] => exact hperm.eq_nil
  | [x] => exact hperm.eq_singleton
  | x :: y :: l => simp at hl

/-- Reports on the same documents differ in their findings only. -/
theorem checkModels_congr {a b : Analyzer} {models : List Model}
    (h : (a.checkModels models).findings = (b.checkModels models).findings) :
    a.checkModels models = b.checkModels models :=
  congrArg (fun fs => Report.mk fs (targets models).length models.length) h

theorem checkModels_classesChecked_eq_countP (a : Analyzer) (models : List Model) :
    (a.checkModels models).classesChecked =
      (models.flatMap Model.classes).countP fun e => e.declaration?.isSome := by
  show (targets models).length = _
  rw [targets, List.length_filterMap_eq_countP]
  simp only [Option.isSome_map]

theorem checkModels_classesChecked (a : Analyzer) (models : List Model) :
    (a.checkModels models).classesChecked = (models.map Model.declaredCount).sum := by
  show (targets models).length = _
  rw [targets, List.length_filterMap_eq_countP, List.countP_flatMap]
  simp only [Function.comp_def, Option.isSome_map]
  rfl

/-- **A report holds exactly what is due.**  Its findings are those of `due`, none lost, doubled or
made up, stably sorted by file, line and code; it counts the declared classes and the documents;
and the number of workers makes no difference. -/
theorem checkModels_isStableSort_due (a : Analyzer) (models : List Model) :
    IsStableSort Finding.key (a.due models) (a.checkModels models).findings ∧
      (a.checkModels models).classesChecked = (models.map Model.declaredCount).sum ∧
      (a.checkModels models).filesChecked = models.length ∧
      ∀ workers, { a with config.analyzer.parallelism := workers }.checkModels models =
        a.checkModels models := by
  refine ⟨a.checkModels_isStableSort models, a.checkModels_classesChecked models, rfl, ?_⟩
  intro workers
  rfl

/-! ### Reports of some of the rules -/

/-- What options leave alone of a check, a configuration leaves alone of a rule. -/
theorem read_check_configureFrom {α : Type} {read : Check → α}
    (h : ∀ c check, read (Check.configure c check) = read check) (config : Config) (r : Rule) :
    read (r.configureFrom config).check = read r.check := by
  unfold Rule.configureFrom
  cases config.rule? r.name with
  | none => rfl
  | some c => exact h c r.check

theorem code_configureFrom (config : Config) (r : Rule) :
    (r.configureFrom config).code = r.code :=
  @read_check_configureFrom _ Check.code (fun c check => by cases check <;> rfl) config r

theorem name_configureFrom (config : Config) (r : Rule) :
    (r.configureFrom config).name = r.name :=
  @read_check_configureFrom _ Check.name (fun c check => by cases check <;> rfl) config r

theorem due_eq_nil {a : Analyzer} {models : List Model} (h : a.rules = []) :
    a.due models = [] := by
  simp only [due, List.flatMap_eq_nil_iff]
  intro m _ e _
  unfold dueAbout
  cases e.declaration? with
  | none => rfl
  | some d => rw [h]; rfl

/-- A finding carries the code of its rule, whatever is configured. -/
theorem code_of_mem_dueBy {a : Analyzer} {models : List Model} {e : ClassEntry}
    {d : ClassDeclaration} {r : Rule} {f : Finding} (hf : f ∈ a.dueBy models e d r) :
    f.code = r.code := by
  unfold dueBy at hf
  split at hf
  · simp at hf
  · simp only [List.mem_filter, List.mem_map, Rule.findings] at hf
    obtain ⟨⟨_, ⟨v, _, rfl⟩, rfl⟩, _⟩ := hf
    rfl

/-- A finding due is what its rule makes of a violation, the severity apart. -/
theorem exists_violation_of_mem_dueBy {a : Analyzer} {models : List Model} {e : ClassEntry}
    {d : ClassDeclaration} {r : Rule} {f : Finding} (hf : f ∈ a.dueBy models e d r) :
    ∃ v ∈ r.check.violations (a.context (ClassIndex.ofModels models) e d), ∃ severity,
      f = { r.finding (reportPath a.root e.file) v with severity := severity } := by
  rw [dueBy_eq_kept] at hf
  unfold kept at hf
  split at hf
  · exact absurd hf List.not_mem_nil
  · simp only [List.mem_filter, List.mem_map] at hf
    obtain ⟨⟨_, ⟨v, hv, rfl⟩, rfl⟩, -⟩ := hf
    exact ⟨v, hv, _, rfl⟩

/-- A reported finding is due by some rule, about some class with a declaration. -/
theorem exists_rule_of_mem_checkModels {a : Analyzer} {models : List Model} {f : Finding}
    (hf : f ∈ (a.checkModels models).findings) :
    ∃ e ∈ models.flatMap Model.classes, ∃ d, e.declaration? = some d ∧
      ∃ r ∈ a.rules, f ∈ a.dueBy models e d r := by
  rw [(a.checkModels_isStableSort models).perm.mem_iff, due_eq_flatMap, List.mem_flatMap] at hf
  obtain ⟨e, he, hf⟩ := hf
  unfold dueAbout at hf
  cases hd : e.declaration? with
  | none =>
      rw [hd] at hf
      exact absurd hf List.not_mem_nil
  | some d =>
      rw [hd] at hf
      exact ⟨e, he, d, hd, List.mem_flatMap.mp hf⟩

/-- What a key selects from the findings of a rule with another code is nothing. -/
theorem withKey_dueBy_eq_nil {a : Analyzer} {models : List Model} {e : ClassEntry}
    {d : ClassDeclaration} {r : Rule} {k : Finding.Key}
    (h : r.code ≠ k.code) :
    withKey Finding.key k (a.dueBy models e d r) = [] := by
  rw [List.eq_nil_iff_forall_not_mem]
  intro f hf
  obtain ⟨hf, hk⟩ := mem_withKey.mp hf
  apply h
  rw [← code_of_mem_dueBy hf, ← hk, Finding.code_key]

/-- Of the rules with their usual options no two share a code. -/
theorem eq_of_code_eq : ∀ r ∈ Rule.all, ∀ s ∈ Rule.all, r.code = s.code → r = s := by
  decide

/-- A choice among all rules has at most one rule with a given code. -/
theorem filter_code_eq {S : List Rule} (hS : S.Nodup) (hsub : S ⊆ Rule.all) {code : String}
    (hcode : code ∈ S.map Rule.code) :
    S.filter (fun r => r.code = code) = Rule.all.filter fun r => r.code = code := by
  have single : ∀ {T : List Rule}, T.Nodup → T ⊆ Rule.all → ∀ {r : Rule}, r ∈ T →
      T.filter (fun s => s.code = r.code) = [r] := by
    intro T hT hTsub r hr
    have hcongr : T.filter (fun s => s.code = r.code) = T.filter fun s => s = r := by
      apply List.filter_congr
      intro s hs
      rw [decide_eq_decide]
      exact ⟨eq_of_code_eq s (hTsub hs) r (hTsub hr), fun h => h ▸ rfl⟩
    rw [hcongr, List.filter_eq, List.count_eq_one_of_mem hT hr]
    rfl
  obtain ⟨r, hr, rfl⟩ := List.mem_map.mp hcode
  rw [single hS hsub hr, single (by decide) (List.Subset.refl _) (hsub hr)]

section chosen

variable (root : Path) (config : Config) (classifier : Classifier) (models : List Model)

/-- What a key selects from the findings due is due by the rule that has the key's code. -/
theorem withKey_dueAbout (S : List Rule) (e : ClassEntry) (k : Finding.Key) :
    withKey Finding.key k ((build root S config classifier).dueAbout models e) =
      withKey Finding.key k ((build root (S.filter fun r => r.code = k.code) config
        classifier).dueAbout models e) := by
  unfold dueAbout
  cases e.declaration? with
  | none => rfl
  | some d =>
      simp only [build, withKey_flatMap]
      induction S with
      | nil => rfl
      | cons r rs ih =>
          rw [List.map_cons, List.flatMap_cons, List.filter_cons]
          split
          · rw [List.map_cons, List.flatMap_cons]
            exact congrArg _ ih
          · -- A rule with another code has nothing under this key.
            rename_i hr
            have hcode : (r.configureFrom config).code ≠ k.code := by
              rw [code_configureFrom]
              simpa using hr
            rw [withKey_dueBy_eq_nil hcode, List.nil_append]
            exact ih

theorem withKey_due (S : List Rule) (k : Finding.Key) :
    withKey Finding.key k ((build root S config classifier).due models) =
      withKey Finding.key k ((build root (S.filter fun r => r.code = k.code) config
        classifier).due models) := by
  simp only [due, withKey_flatMap]
  simp only [withKey_dueAbout root config classifier models S]

/-- Two lists of rules with the same rules of one code have the same findings of that code. -/
theorem withKey_due_congr {S T : List Rule} {k : Finding.Key}
    (h : S.filter (fun r => r.code = k.code) = T.filter fun r => r.code = k.code) :
    withKey Finding.key k ((build root S config classifier).due models) =
      withKey Finding.key k ((build root T config classifier).due models) := by
  rw [withKey_due, h, ← withKey_due]

/-- The report for some of the rules is what their codes select from the report for all rules. -/
theorem checkModels_findings_of_subset {S : List Rule} (hS : S.Nodup) (hsub : S ⊆ Rule.all) :
    ((build root S config classifier).checkModels models).findings =
      ((build root Rule.all config classifier).checkModels models).findings.filter
        fun f => f.code ∈ S.map Rule.code := by
  apply (checkModels_isStableSort _ _).eq_of_withKey_eq ((checkModels_isStableSort _ _).filter _)
  -- It is enough to compare what each key selects, and a key names one code.
  intro k
  rw [withKey_filter]
  by_cases hk : k.code ∈ S.map Rule.code
  · rw [withKey_due_congr root config classifier models (filter_code_eq hS hsub hk)]
    symm
    rw [List.filter_eq_self]
    intro f hf
    rw [decide_eq_true_iff, ← Finding.code_key, (mem_withKey.mp hf).2]
    exact hk
  · have hnone : S.filter (fun r => r.code = k.code) = [] := by
      rw [List.filter_eq_nil_iff]
      intro r hr hcode
      exact hk (of_decide_eq_true hcode ▸ List.mem_map_of_mem hr)
    have hleft : withKey Finding.key k ((build root S config classifier).due models) = [] := by
      rw [withKey_due, hnone, due_eq_nil rfl]
      rfl
    have hright : (withKey Finding.key k
        ((build root Rule.all config classifier).due models)).filter
          (fun f => decide (f.code ∈ S.map Rule.code)) = [] := by
      rw [List.filter_eq_nil_iff]
      intro f hf hcode
      apply hk
      rw [← (mem_withKey.mp hf).2, Finding.code_key]
      exact of_decide_eq_true hcode
    rw [hleft, hright]

/-- **Rules do not influence each other's findings.**  The report for a choice of rules, in any
order, is the report for all rules restricted to the codes of the chosen ones; so the order of
registration does not matter, and the minimal preset reports what the recommended one reports
under its three codes. -/
theorem checkModels_rules :
    (∀ S : List Rule, S.Nodup → S ⊆ Rule.all →
      ((build root S config classifier).checkModels models).findings =
        ((build root Rule.all config classifier).checkModels models).findings.filter
          fun f => f.code ∈ S.map Rule.code) ∧
    (∀ S T : List Rule, S.Nodup → S ⊆ Rule.all → S.Perm T →
      (build root S config classifier).checkModels models =
        (build root T config classifier).checkModels models) ∧
    ((build root Preset.minimal.rules config classifier).checkModels models).findings =
      ((build root Preset.recommended.rules config classifier).checkModels models).findings.filter
        fun f => f.code ∈ ["EL001", "EL002", "EL004"] := by
  refine ⟨fun S hS hsub => ?_, fun S T hS hsub hperm => ?_, ?_⟩
  · exact checkModels_findings_of_subset root config classifier models hS hsub
  · have hT : T.Nodup := hperm.nodup hS
    have hTsub : T ⊆ Rule.all := fun r hr => hsub (hperm.mem_iff.mpr hr)
    have hcodes : ∀ code, code ∈ S.map Rule.code ↔ code ∈ T.map Rule.code :=
      fun code => (hperm.map Rule.code).mem_iff
    apply checkModels_congr
    rw [checkModels_findings_of_subset root config classifier models hS hsub,
      checkModels_findings_of_subset root config classifier models hT hTsub]
    simp only [hcodes]
  · exact checkModels_findings_of_subset root config classifier models (S := Preset.minimal.rules)
      (by decide) (by decide)

end chosen

/-- A document of one entity, whose only column has a mutable type and no comment. -/
def mutableDay : Model where
  classes := [{
    file? := some ⟨"src/Day.php"⟩
    declaration? := some {
      name := "Day"
      kind := .regular
      line := 3
      attributes := []
      properties := [⟨"begin", 5, [⟨"Column", 5, [⟨some "type", .string "date" 5, 5⟩]⟩]⟩]
      constructor? := none }
    reflection := (Reflection.ofName "App\\Day").addAttribute (.bare Concept.entity.qualified 2) }]

theorem checkModels_rules_mutableDay :
    ((build ⟨"/app"⟩ [Rule.repositoryConstant, Rule.immutableDates] .default
        .conventions).checkModels [mutableDay]).findings =
      ((build ⟨"/app"⟩ Rule.all .default .conventions).checkModels [mutableDay]).findings.filter
        (fun f => f.code ∈ ["EL004", "EL002"]) ∧
    (build ⟨"/app"⟩ [Rule.repositoryConstant, Rule.immutableDates] .default
        .conventions).checkModels [mutableDay] =
      (build ⟨"/app"⟩ [Rule.immutableDates, Rule.repositoryConstant] .default
        .conventions).checkModels [mutableDay] := by
  obtain ⟨hchoice, horder, -⟩ :=
    checkModels_rules ⟨"/app"⟩ .default .conventions [mutableDay]
  constructor
  · exact hchoice _ (by decide) (by decide)
  · exact horder _ _ (by decide) (by decide) (.swap _ _ _)

end Analyzer

end EntityConventions
