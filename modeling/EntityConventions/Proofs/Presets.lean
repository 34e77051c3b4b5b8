import EntityConventions.Proofs.Checking
import EntityConventions.Proofs.Insertion

/-! # The strict preset

A rule tightens another one (`Rule.Tightens`) if it reports errors and objects to the same, or
also to columns in test files.  The rules of the strict preset tighten those of the recommended
one, rule by rule (`tightens_presets`), and they still do once their options are set
(`Tightens.configureFrom`), because an option that is set counts for both.

A tighter rule keeps all findings, as errors, and what it adds is about columns of classes in test
files (`dueBy_tightens`).  Sorting carries this over to whole reports (`checkModels_strict`). -/

namespace EntityConventions

/-- No rule is given another severity. -/
def Config.KeepsSeverities (c : Config) : Prop :=
  ∀ name, c.ruleSeverity? name = none

/-- A finding as an error. -/
def Finding.raised (f : Finding) : Finding :=
  { f with severity := .error }

/-- Whether a class is in a test file: some part of the path is called `tests`. -/
def Reflection.InTests (r : Reflection) : Prop :=
  ∃ file ∈ r.file, Component.name "tests" ∈ file.components

theorem ClassContext.inTestFile_iff (ctx : ClassContext) :
    ctx.inTestFile = true ↔ ctx.reflection.InTests := by
  have hname : ∀ c : Component, c.name? = some "tests" ↔ c = .name "tests" := by
    intro c
    cases c <;> simp [Component.name?]
  unfold inTestFile Reflection.InTests
  cases ctx.reflection.file with
  | none => simp
  | some file => simp [Path.isTest, Path.names, List.mem_filterMap, hname]

/-! ### Tighter rules -/

namespace Rule

/-- A rule reports errors and objects to what another rule objects to, in test files perhaps to
more columns. -/
structure Tightens (s r : Rule) : Prop where
  severity : s.severity = .error
  check : s.check = r.check ∨ s.check = .columnComment false ∧ r.check = .columnComment true

/-- The strict rules tighten the recommended ones, one by one. -/
theorem tightens_presets :
    List.Forall₂ Tightens Preset.strict.rules Preset.recommended.rules := by
  have hsame : ∀ {s r : Rule}, s.severity = .error → s.check = r.check → s.Tightens r :=
    fun hseverity hcheck => ⟨hseverity, .inl hcheck⟩
  exact .cons ⟨rfl, .inr ⟨rfl, rfl⟩⟩ (.cons (hsame rfl rfl) (.cons (hsame rfl rfl)
    (.cons (hsame rfl rfl) (.cons (hsame rfl rfl) (.cons (hsame rfl rfl) (.cons (hsame rfl rfl)
      (.cons (hsame rfl rfl) .nil)))))))

namespace Tightens

variable {s r : Rule}

/-- The two rules differ at most in whether columns in test files are left out. -/
theorem check_congr {α : Type} {read : Check → α} (h : s.Tightens r)
    (hread : read (.columnComment false) = read (.columnComment true)) :
    read s.check = read r.check := by
  rcases h.check with heq | ⟨hs, hr⟩
  · rw [heq]
  · rw [hs, hr, hread]

theorem name_eq (h : s.Tightens r) : s.name = r.name :=
  h.check_congr rfl

theorem code_eq (h : s.Tightens r) : s.code = r.code :=
  h.check_congr rfl

/-- Options that are set are set for both rules, and otherwise both keep their own. -/
theorem configureFrom (h : s.Tightens r) (config : Config) :
    (s.configureFrom config).Tightens (r.configureFrom config) := by
  unfold Rule.configureFrom
  rw [h.name_eq]
  cases config.rule? r.name with
  | none => exact h
  | some c =>
      refine ⟨h.severity, ?_⟩
      rcases h.check with heq | ⟨hs, hr⟩
      · left
        simp only [Rule.configure, heq]
      · simp only [Rule.configure, hs, hr, Check.configure, RuleConfig.getBool]
        cases c.option? "skip_tests" Toml.bool? with
        | none => exact .inr ⟨rfl, rfl⟩
        | some skipTests => exact .inl rfl

/-- Outside test files a tighter rule objects to the same; in them the other rule may have said
nothing about columns. -/
theorem violations (h : s.Tightens r) (ctx : ClassContext) :
    r.check.violations ctx = s.check.violations ctx ∨
      s.code = "EL001" ∧ ctx.reflection.InTests ∧ r.check.violations ctx = [] := by
  rcases h.check with heq | ⟨hs, hr⟩
  · exact .inl (congrArg (Check.violations · ctx) heq.symm)
  · simp only [Rule.code, hs, hr, Check.violations, ColumnComment.violations]
    cases htest : ctx.inTestFile with
    | true => exact .inr ⟨rfl, ctx.inTestFile_iff.mp htest, rfl⟩
    | false => exact .inl rfl

end Tightens

end Rule

/-! ### Tighter reports -/

namespace Analyzer

theorem severity_of_mem_dueBy {a : Analyzer} {models : List Model} {e : ClassEntry}
    {d : ClassDeclaration} {r : Rule} {f : Finding} (h : a.config.KeepsSeverities)
    (hf : f ∈ a.dueBy models e d r) : f.severity = r.severity := by
  have hnone : (a.config.rule? r.name).bind RuleConfig.severity = none := h r.name
  unfold dueBy at hf
  split at hf
  · simp at hf
  · simp only [hnone, List.mem_filter, List.mem_map, Rule.findings] at hf
    obtain ⟨⟨_, ⟨v, _, rfl⟩, rfl⟩, _⟩ := hf
    rfl

/-- What is kept of the same violations by a tighter rule differs in severity only. -/
theorem map_raised_kept {a : Analyzer} {s r : Rule} (h : s.Tightens r)
    (hconfig : a.config.KeepsSeverities) (path : Path) (vs : List Violation) :
    (a.kept r path vs).map Finding.raised = a.kept s path vs := by
  have hnone : (a.config.rule? r.name).bind RuleConfig.severity = none := hconfig r.name
  have hfinding : s.finding path = Finding.raised ∘ r.finding path := by
    funext v
    simp only [Rule.finding, Function.comp, Finding.raised, h.severity, h.name_eq, h.code_eq]
  unfold kept
  rw [h.name_eq]
  split
  · rfl
  · simp only [hnone, Option.getD_none, List.map_id']
    rw [hfinding, ← List.map_map, eq_comm, List.filter_map]
    -- Whether a finding is ignored does not depend on its severity.
    rfl

section tighter

variable {a : Analyzer} (hkeeps : a.config.KeepsSeverities) (models : List Model)
include hkeeps

/-- A tighter rule reports what the other one reports, as errors, and may add findings about
columns of a class in a test file. -/
theorem dueBy_tightens {s r : Rule} (h : s.Tightens r) (e : ClassEntry) (d : ClassDeclaration) :
    Insertion (fun f => f.code = "EL001" ∧ e.reflection.InTests)
      ((a.dueBy models e d r).map Finding.raised) (a.dueBy models e d s) := by
  rw [dueBy_eq_kept a models e d r]
  rcases h.violations (a.context (ClassIndex.ofModels models) e d) with
    heq | ⟨hcode, htests, hnil⟩
  · rw [heq, map_raised_kept h hkeeps, ← dueBy_eq_kept]
    exact .refl _
  · rw [hnil, kept_nil]
    exact .of_forall fun f hf => ⟨(code_of_mem_dueBy hf).trans hcode, htests⟩

theorem dueAbout_tightens {rules : List Rule} (h : List.Forall₂ Rule.Tightens rules a.rules)
    (e : ClassEntry) :
    Insertion (fun f => f.code = "EL001" ∧ e.reflection.InTests)
      ((a.dueAbout models e).map Finding.raised)
      ({ a with rules := rules }.dueAbout models e) := by
  unfold dueAbout
  cases e.declaration? with
  | none => exact .nil
  | some d =>
      rw [List.map_flatMap]
      exact .flatMap_forall₂ (h.flip.imp fun r s hs => dueBy_tightens hkeeps models hs e d)

/-- Tighter rules report what the others report, as errors, and beside that only findings about
columns of classes in test files. -/
theorem checkModels_tightens {rules : List Rule}
    (h : List.Forall₂ Rule.Tightens rules a.rules) :
    Insertion (fun f => f.code = "EL001" ∧ ∃ e ∈ models.flatMap Model.classes,
        f ∈ { a with rules := rules }.dueAbout models e ∧ e.reflection.InTests)
      ((a.checkModels models).findings.map Finding.raised)
      ({ a with rules := rules }.checkModels models).findings := by
  have hdue : Insertion (fun f => f.code = "EL001" ∧ ∃ e ∈ models.flatMap Model.classes,
        f ∈ { a with rules := rules }.dueAbout models e ∧ e.reflection.InTests)
      ((a.due models).map Finding.raised) ({ a with rules := rules }.due models) := by
    rw [due_eq_flatMap, due_eq_flatMap, List.map_flatMap]
    refine .flatMap_forall₂ (List.forall₂_same.mpr fun e he => ?_)
    refine (dueAbout_tightens hkeeps models h e).imp_of_mem fun f hf ⟨hcode, htests⟩ => ?_
    exact ⟨hcode, e, he, hf, htests⟩
  -- The severity is no part of the key, so raising it before or after the sort is the same.
  have hraised : IsStableSort Finding.key ((a.due models).map Finding.raised)
      ((a.checkModels models).findings.map Finding.raised) :=
    IsStableSort.map (a.checkModels_isStableSort models)
  exact hraised.insertion (checkModels_isStableSort _ models) hdue

/-- If all rules report errors, all findings are errors. -/
theorem severity_of_mem_checkModels {severity : Severity}
    (h : ∀ r ∈ a.rules, r.severity = severity) :
    ∀ f ∈ (a.checkModels models).findings, f.severity = severity := by
  intro f hf
  obtain ⟨e, -, d, -, r, hr, hf⟩ := exists_rule_of_mem_checkModels hf
  rw [severity_of_mem_dueBy hkeeps hf, h r hr]

end tighter

/-- **The strict preset misses nothing.**  If no severity is configured, the findings of the
recommended preset, as errors, are among those of the strict preset in their order; every further
one is about a column of a class in a test file; and all are errors, so that there are errors as
soon as there are findings. -/
theorem checkModels_strict (root : Path) (config : Config) (classifier : Classifier)
    (models : List Model) (hkeeps : config.KeepsSeverities) :
    let recommended := build root Preset.recommended.rules config classifier
    let strict := build root Preset.strict.rules config classifier
    ((recommended.checkModels models).findings.map Finding.raised).Sublist
        (strict.checkModels models).findings ∧
      Insertion (fun f => f.code = "EL001" ∧ ∃ e ∈ models.flatMap Model.classes,
          f ∈ strict.dueAbout models e ∧ e.reflection.InTests)
        ((recommended.checkModels models).findings.map Finding.raised)
        (strict.checkModels models).findings ∧
      (∀ f ∈ (strict.checkModels models).findings, f.severity = .error) ∧
      ((strict.checkModels models).hasErrors = true ↔
        (strict.checkModels models).findings ≠ []) := by
  intro recommended strict
  have htightens : List.Forall₂ Rule.Tightens strict.rules recommended.rules := by
    show List.Forall₂ Rule.Tightens (Preset.strict.rules.map _) (Preset.recommended.rules.map _)
    rw [List.forall₂_map_left_iff, List.forall₂_map_right_iff]
    exact Rule.tightens_presets.imp fun s r h => h.configureFrom config
  have hinsertion := @checkModels_tightens recommended hkeeps models _ htightens
  have herrors : ∀ f ∈ (strict.checkModels models).findings, f.severity = .error := by
    have hrules := htightens.imp fun s r h => And.intro h.severity h
    rw [List.forall₂_and_left] at hrules
    exact @severity_of_mem_checkModels strict hkeeps models _ hrules.1
  refine ⟨hinsertion.sublist, hinsertion, herrors, ?_⟩
  rw [Report.hasErrors_iff]
  constructor
  · rintro ⟨f, hf, -⟩
    exact List.ne_nil_of_mem hf
  · intro hne
    obtain ⟨f, hf⟩ := List.exists_mem_of_ne_nil _ hne
    exact ⟨f, hf, herrors f hf⟩

/-- The entity of `mutableDay`, in a test file. -/
def testDay : Model where
  classes := mutableDay.classes.map fun e =>
    { e with
      file? := some ⟨"tests/Day.php"⟩
      reflection := e.reflection.setFile ⟨"tests/Day.php"⟩ }

/-- The missing comment of the column in the test file is what the strict preset adds. -/
theorem checkModels_strict_testDay :
    let recommended := build ⟨"/app"⟩ Preset.recommended.rules .default .conventions
    let strict := build ⟨"/app"⟩ Preset.strict.rules .default .conventions
    let models := [mutableDay, testDay]
    Config.default.KeepsSeverities ∧
      (recommended.checkModels models).findings.length = 3 ∧
      (strict.checkModels models).findings.length = 4 ∧
      ((recommended.checkModels models).findings.map Finding.raised).Sublist
        (strict.checkModels models).findings ∧
      ∀ f ∈ (strict.checkModels models).findings, f.severity = .error := by
  intro recommended strict models
  have hkeeps : Config.default.KeepsSeverities := fun _ => rfl
  obtain ⟨hsublist, -, herrors, -⟩ :=
    checkModels_strict ⟨"/app"⟩ .default .conventions models hkeeps
  refine ⟨hkeeps, ?_, ?_, hsublist, herrors⟩
  · rw [(recommended.checkModels_isStableSort models).perm.length_eq]
    decide +kernel
  · rw [(strict.checkModels_isStableSort models).perm.length_eq]
    decide +kernel

end Analyzer

end EntityConventions
