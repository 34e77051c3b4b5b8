import EntityConventions.CommandLine.Run
import EntityConventions.Proofs.Discovery
import EntityConventions.Proofs.FailureMessages

/-! # The command line and the test agree

The command line and the test choose rules and judge a report each in its own way.  Where they run
with one configuration on one root (`Alongside`), they choose the same rules or both know no such
preset (`choosePreset_alongside`), they check the same survey, and an error is what reaches the
threshold of errors (`Report.hasFindingsAt_error`).  So the test passes exactly if the command line
finds no error, and it fails for the same reason (`run_alongside`).

Whatever the threshold is, a test whose check succeeds fails exactly if some finding reaches the
threshold.  Its message shows those findings and no others (`TestGate.message_eq_ofLines`,
`TestGate.reaching_eq_of_message_eq`), and its three totals account for all findings
(`Report.count_add_count_add_count`). -/

namespace EntityConventions

/-! ### Judging a report -/

namespace Report

theorem hasFindingsAt_iff {r : Report} {threshold : Severity} :
    r.hasFindingsAt threshold = true ↔
      ∃ f ∈ r.findings, threshold.rank ≤ f.severity.rank := by
  simp [hasFindingsAt, Severity.reaches]

/-- Nothing is above an error. -/
theorem hasFindingsAt_error (r : Report) : r.hasFindingsAt .error = r.hasErrors := by
  have hreaches : ∀ s : Severity, s.reaches .error = (s == .error) := by
    intro s
    cases s <;> rfl
  simp only [hasFindingsAt, hasErrors, hreaches]

/-- Every finding is counted once. -/
theorem count_add_count_add_count (r : Report) :
    r.count .error + r.count .warning + r.count .info = r.findings.length := by
  unfold count
  induction r.findings with
  | nil => rfl
  | cons f fs ih =>
      rw [List.countP_cons, List.countP_cons, List.countP_cons, List.length_cons, ← ih]
      cases f.severity <;> simp <;> omega

end Report

namespace TestGate

/-! ### The check behind a test -/

/-- What a test checks. -/
def survey (env : Environment) (config : Config) (preset : Preset) : Survey :=
  .plan env.current (some ((projectRoot env).join config.analyzer.root)) [] [] preset.rules config
    .conventions false

section run

variable {env : Environment} {o : Options} {config : Config}

theorem run_of_choosePreset_error {e : Failure}
    (hconfig : loadConfig env (projectRoot env) o.config = .ok config)
    (hpreset : choosePreset o.preset config.preset = .error e) : run env o = .error e := by
  simp only [run, hconfig, bind, Except.bind, hpreset]

/-- A test with a known preset and a known threshold is decided by its check. -/
theorem run_eq {preset : Preset} {threshold : Severity}
    (hconfig : loadConfig env (projectRoot env) o.config = .ok config)
    (hpreset : choosePreset o.preset config.preset = .ok preset)
    (hthreshold : chooseThreshold o.failOn config.failOn = .ok threshold) :
    run env o =
      match env.project.check (survey env config preset) with
      | .error e => .error (.check e)
      | .ok report =>
          if report.hasFindingsAt threshold then .error (.findings report threshold)
          else .ok () := by
  simp only [run, hconfig, bind, Except.bind, hpreset, hthreshold]
  rfl

/-- A configured root that is a file is checked as one document. -/
theorem check_survey_of_isFile {preset : Preset}
    (hroot : env.tree.isFile env.current (survey env config preset).root = true) :
    env.project.check (survey env config preset) =
      .ok ((survey env config preset).analyzer.checkModels
        (env.project.loaded [(survey env config preset).root])) := by
  have hdiscover : env.project.discover (survey env config preset) =
      .ok [(survey env config preset).root] := if_pos hroot
  exact Project.check_lenient (s := survey env config preset) hdiscover

end run

end TestGate

/-! ### Side by side -/

/-- A test and a check by the command line run with one configuration on one root, and the test
asks for no other preset and fails on errors. -/
structure Alongside (env : Environment) (o : TestGate.Options) (source : ConfigSource)
    (path : Path) (config : Config) : Prop where
  testConfig : TestGate.loadConfig env (TestGate.projectRoot env) o.config = .ok config
  checkConfig : CommandLine.loadConfig env.project source = .ok config
  root : (FileTree.pathOf env.current).join path =
    (FileTree.pathOf env.current).join ((TestGate.projectRoot env).join config.analyzer.root)
  preset : ∀ name ∈ o.preset, name = config.preset.getD "recommended"
  threshold : TestGate.chooseThreshold o.failOn config.failOn = .ok .error

/-- The failures of the command line that a test has too. -/
inductive SameCause : CommandLine.Failure → TestGate.Failure → Prop
  | preset (name : String) : SameCause (.unknownPreset name) (.unknownPreset name)
  | check (e : CheckError) : SameCause (.check e) (.check e)

section alongside

variable {env : Environment} {o : TestGate.Options} {source : ConfigSource} {path : Path}
  {config : Config}

/-- Both take the rules of one preset, or neither knows the preset. -/
theorem choosePreset_alongside (h : Alongside env o source path config) :
    (∃ preset, TestGate.choosePreset o.preset config.preset = .ok preset ∧
        CommandLine.selectRules config none = .ok preset.rules) ∨
      ∃ name, TestGate.choosePreset o.preset config.preset = .error (.unknownPreset name) ∧
        CommandLine.selectRules config none = .error (.unknownPreset name) := by
  have hname : (o.preset.or config.preset).getD "recommended" =
      config.preset.getD "recommended" := by
    cases hgiven : o.preset with
    | none => rfl
    | some name => exact h.preset name hgiven
  simp only [TestGate.choosePreset, hname, CommandLine.selectRules]
  cases config.preset with
  | none => exact .inl ⟨.recommended, rfl, rfl⟩
  | some name =>
      simp only [Option.getD_some]
      cases Preset.ofWord? name with
      | some preset => exact .inl ⟨preset, rfl, rfl⟩
      | none => exact .inr ⟨name, rfl, rfl⟩

theorem check_of_selectRules_error {e : CommandLine.Failure}
    (h : Alongside env o source path config)
    (hrules : CommandLine.selectRules config none = .error e) :
    CommandLine.check env.project source path none [] = .error e := by
  simp only [CommandLine.check, h.checkConfig, bind, Except.bind, hrules]

/-- The command line checks what the test checks. -/
theorem check_alongside {preset : Preset} (h : Alongside env o source path config)
    (hrules : CommandLine.selectRules config none = .ok preset.rules) :
    CommandLine.check env.project source path none [] =
      match env.project.check (TestGate.survey env config preset) with
      | .ok report => .ok report
      | .error e => .error (.check e) := by
  have hsurvey : Survey.plan env.project.current (some path) [] [] preset.rules config
      .conventions false = TestGate.survey env config preset := by
    have hroot : (FileTree.pathOf env.project.current).join path =
      (FileTree.pathOf env.project.current).join
        ((TestGate.projectRoot env).join config.analyzer.root) := h.root
    simp only [TestGate.survey, Survey.plan, Environment.current, Option.getD_some, hroot]
  cases hresult : env.project.check (TestGate.survey env config preset) <;>
    simp only [CommandLine.check, h.checkConfig, bind, Except.bind, hrules, hsurvey, hresult]

/-- A test does what the outcome of the command line says. -/
theorem run_alongside (h : Alongside env o source path config) :
    (∃ e e', CommandLine.check env.project source path none [] = .error e ∧
        TestGate.run env o = .error e' ∧ SameCause e e') ∨
      ∃ report, CommandLine.check env.project source path none [] = .ok report ∧
        TestGate.run env o =
          if report.hasErrors then .error (.findings report .error) else .ok () := by
  rcases choosePreset_alongside h with ⟨preset, hpreset, hrules⟩ | ⟨name, hpreset, hrules⟩
  · have hrun := TestGate.run_eq h.testConfig hpreset h.threshold
    have hcheck := check_alongside h hrules
    cases hresult : env.project.check (TestGate.survey env config preset) with
    | error e =>
        rw [hresult] at hrun hcheck
        exact .inl ⟨.check e, .check e, hcheck, hrun, .check e⟩
    | ok report =>
        rw [hresult] at hrun hcheck
        simp only [report.hasFindingsAt_error] at hrun
        exact .inr ⟨report, hcheck, hrun⟩
  · exact .inl ⟨.unknownPreset name, .unknownPreset name, check_of_selectRules_error h hrules,
      TestGate.run_of_choosePreset_error h.testConfig hpreset, .preset name⟩

/-- A test with no options, beside the command line with the file that the test finds. -/
theorem alongside_of_fileIn {file : Path}
    (hfile : ConfigSource.fileIn? env.project (TestGate.projectRoot env) = some file)
    (hload : Config.load env.tree env.current file = .ok config)
    (hthreshold : TestGate.chooseThreshold none config.failOn = .ok .error) :
    Alongside env .empty (.project file) ((TestGate.projectRoot env).join config.analyzer.root)
      config where
  testConfig := by
    show TestGate.loadConfig env (TestGate.projectRoot env) none = .ok config
    unfold TestGate.loadConfig
    simp only [hfile, hload]
  checkConfig := by
    have hload' : Config.load env.project.tree env.project.current file = .ok config := hload
    simp only [CommandLine.loadConfig, ConfigSource.path?, hload']
  root := rfl
  preset := nofun
  threshold := hthreshold

end alongside

/-- **The command line and the test agree.**  Side by side, the test passes exactly if the command
line finds no error; it fails where the command line fails, for the same reason, and where the
command line finds errors.  With any threshold, a test whose check succeeds fails with a report
exactly if some finding reaches the threshold, and passes otherwise.  The report has the number of
the findings that reach the threshold in its headline and shows them in their order, each by its
code, rule, place, severity, message, identifier and tip; no other legible findings make the same
report; and its totals add up to the number of all findings. -/
theorem frontEnds_agree (env : Environment) (o : TestGate.Options) (config : Config) :
    (∀ source path, Alongside env o source path config →
      (TestGate.run env o = .ok () ↔
        (CommandLine.check env.project source path none []).map Report.hasErrors = .ok false) ∧
      (∀ e, CommandLine.check env.project source path none [] = .error e →
        ∃ e', TestGate.run env o = .error e' ∧ SameCause e e') ∧
      ∀ report, CommandLine.check env.project source path none [] = .ok report →
        report.hasErrors = true → TestGate.run env o = .error (.findings report .error)) ∧
    ∀ preset threshold report,
      TestGate.loadConfig env (TestGate.projectRoot env) o.config = .ok config →
      TestGate.choosePreset o.preset config.preset = .ok preset →
      TestGate.chooseThreshold o.failOn config.failOn = .ok threshold →
      env.project.check (TestGate.survey env config preset) = .ok report →
        (TestGate.run env o = .error (.findings report threshold) ↔
          ∃ f ∈ report.findings, threshold.rank ≤ f.severity.rank) ∧
        (TestGate.run env o = .ok () ↔
          ¬ ∃ f ∈ report.findings, threshold.rank ≤ f.severity.rank) ∧
        (TestGate.Failure.findings report threshold).message =
          Text.ofLines (TestGate.messageLines (report.reaching threshold) (report.count .error)
            (report.count .warning) (report.count .info) report.classesChecked) ∧
        (∀ (other : Report) (threshold' : Severity),
          (∀ f ∈ report.reaching threshold, f.IsLegible) →
          (∀ f ∈ other.reaching threshold', f.IsLegible) →
          (TestGate.Failure.findings report threshold).message =
            (TestGate.Failure.findings other threshold').message →
          report.reaching threshold = other.reaching threshold') ∧
        report.count .error + report.count .warning + report.count .info =
          report.findings.length := by
  constructor
  · intro source path h
    rcases run_alongside h with ⟨e, e', hcheck, hrun, hcause⟩ | ⟨report, hcheck, hrun⟩
    · rw [hcheck, hrun]
      refine ⟨by simp [Except.map], fun _ he => ?_, nofun⟩
      cases he
      exact ⟨e', rfl, hcause⟩
    · rw [hcheck, hrun]
      refine ⟨?_, nofun, fun _ hreport herrors => ?_⟩
      · cases herrors : report.hasErrors <;> simp [Except.map, herrors]
      · cases hreport
        rw [if_pos herrors]
  · intro preset threshold report hconfig hpreset hthreshold hcheck
    have hrun := TestGate.run_eq hconfig hpreset hthreshold
    rw [hcheck] at hrun
    rw [hrun, ← Report.hasFindingsAt_iff]
    refine ⟨?_, ?_, TestGate.message_eq_ofLines report threshold,
      fun _ _ => TestGate.reaching_eq_of_message_eq, report.count_add_count_add_count⟩
    · cases hreached : report.hasFindingsAt threshold <;> simp [hreached]
    · cases hreached : report.hasFindingsAt threshold <;> simp [hreached]

/-- A document of one entity, whose constructor has a parameter, and whose column has no comment. -/
def dayText : String :=
  "[[[\"Day.php\",[\"Day\",\"class\",3,[],[[\"begin\",5,[[\"ORM\\\\Column\",5]]]]]," ++
    "[\"Day\",null,0,false,[],[1,9],[[\"Doctrine\\\\ORM\\\\Mapping\\\\Entity\"]]]]]]"

/-- A directory with a configuration and the document that it names. -/
def dayTree : FileTree :=
  (FileTree.empty.addFile ["app", "entity-lint.toml"]
      "fail_on = \"error\"\n[analyzer]\nroot = \"day.model.json\"\n".toUTF8).addFile
    ["app", "day.model.json"] dayText.toUTF8

/-- The directory is the current one, and nothing else is known. -/
def dayEnvironment : Environment :=
  ⟨⟨dayTree, ["app"]⟩, none, none, none⟩

/-- The configuration in the directory. -/
def dayConfig : Config where
  preset := none
  failOn := some "error"
  analyzer := ⟨⟨"day.model.json"⟩, [], AnalyzerConfig.defaultIncludes, none⟩
  rules := []
  ignore := []

theorem load_dayConfig :
    Config.load dayEnvironment.tree dayEnvironment.current ⟨"/app/entity-lint.toml"⟩ =
      .ok dayConfig := by
  have hread : (Config.load dayEnvironment.tree dayEnvironment.current
      ⟨"/app/entity-lint.toml"⟩).toOption.map
        (fun c => (c.preset, c.failOn, c.analyzer, c.rules.length, c.ignore)) =
          some (none, some "error", dayConfig.analyzer, 0, []) := by
    decide +kernel
  generalize Config.load dayEnvironment.tree dayEnvironment.current
    ⟨"/app/entity-lint.toml"⟩ = outcome at hread ⊢
  cases outcome with
  | error e => cases hread
  | ok config =>
      obtain ⟨preset, failOn, analyzer, rules, ignore⟩ := config
      simp only [Except.toOption, Option.map_some, Option.some.injEq, Prod.mk.injEq,
        List.length_eq_zero_iff] at hread
      obtain ⟨rfl, rfl, rfl, rfl, rfl⟩ := hread
      rfl

theorem alongside_day : Alongside dayEnvironment .empty (.project ⟨"/app/entity-lint.toml"⟩)
    ((TestGate.projectRoot dayEnvironment).join dayConfig.analyzer.root) dayConfig :=
  alongside_of_fileIn (by decide +kernel) load_dayConfig rfl

/-- The survey of the directory. -/
def daySurvey : Survey :=
  TestGate.survey dayEnvironment dayConfig .recommended

/-- The report on the document. -/
def dayReport : Report :=
  daySurvey.analyzer.checkModels (dayEnvironment.project.loaded [daySurvey.root])

/-- The error in the document. -/
def dayError : Finding :=
  ⟨"EL003", "entity-parameterless-constructor", "doctrine.entity.ctor.noParams", .error,
    ⟨"Day.php"⟩, 9, "Constructor of entity Day must not take parameters. " ++
      "Remove them and set entity data through setter methods.", none⟩

theorem isLegible_dayError : dayError.IsLegible where
  code := by decide
  rule := by decide
  oneLine := by
    have hmessage : Text.IsOneLine dayError.message := Text.isOneLine_append.mpr
      ⟨Text.isOneLine_ofList (by decide), Text.isOneLine_ofList (by decide)⟩
    simp only [List.forall_mem_append, List.forall_mem_cons]
    exact ⟨⟨by decide, by decide, by decide, hmessage, by decide, nofun⟩, nofun⟩

/-- What is found in the document: a warning about the column, and the error. -/
def dayFindings : List Finding :=
  [⟨"EL001", "entity-column-comment", "doctrine.column.comment.missingOptions", .warning,
      ⟨"Day.php"⟩, 5, "Property $begin of entity Day should declare options with a comment on " ++
        "#[ORM\\Column] (e.g. options: ['comment' => 'column description']).", none⟩,
    dayError]

theorem dayReport_eq : dayReport = ⟨dayFindings, 1, 1⟩ := by
  have hmodels :
      daySurvey.analyzer.due (dayEnvironment.project.loaded [daySurvey.root]) = dayFindings ∧
        (Analyzer.targets (dayEnvironment.project.loaded [daySurvey.root])).length = 1 ∧
        (dayEnvironment.project.loaded [daySurvey.root]).length = 1 := by
    decide +kernel
  obtain ⟨hdue, hclasses, hlength⟩ := hmodels
  have hsorted := @List.mergeSort_of_pairwise Finding Finding.precedes dayFindings
    (by decide +kernel)
  rw [dayReport, Analyzer.checkModels_eq, hdue, hclasses, hlength, Report.sorted, hsorted]

/-- The command line finds the error of the document, and the test fails with the same report.  Its
message shows the error and counts the warning, and no message without findings is the same. -/
theorem frontEnds_agree_day :
    CommandLine.check dayEnvironment.project (.project ⟨"/app/entity-lint.toml"⟩)
        ((TestGate.projectRoot dayEnvironment).join dayConfig.analyzer.root) none [] =
      .ok dayReport ∧
    dayReport.hasErrors = true ∧
    TestGate.run dayEnvironment .empty = .error (.findings dayReport .error) ∧
    (TestGate.Failure.findings dayReport .error).message =
      "\n=== entity-lint: 1 finding(s) ===\n\n" ++
        "EL003 entity-parameterless-constructor at Day.php:9\n" ++
        "  error: Constructor of entity Day must not take parameters. " ++
        "Remove them and set entity data through setter methods.\n" ++
        "  = id: doctrine.entity.ctor.noParams\n\n" ++
        "Total: 1 error(s), 1 warning(s), 0 info(s) in 1 class(es)\n" ∧
    (TestGate.Failure.findings dayReport .error).message ≠
      (TestGate.Failure.findings .empty .error).message ∧
    dayReport.count .error + dayReport.count .warning + dayReport.count .info =
      dayReport.findings.length := by
  have hroot : dayEnvironment.tree.isFile dayEnvironment.current daySurvey.root = true := by
    decide +kernel
  have herrors : dayReport.hasErrors = true := by
    rw [dayReport_eq]
    rfl
  have hcheck := TestGate.check_survey_of_isFile hroot
  have hline := check_alongside alongside_day rfl
  rw [hcheck] at hline
  obtain ⟨hside, hgate⟩ := frontEnds_agree dayEnvironment .empty dayConfig
  obtain ⟨-, -, hmessage, hother, htotals⟩ := hgate .recommended .error dayReport
    alongside_day.testConfig rfl alongside_day.threshold hcheck
  refine ⟨hline, herrors, (hside _ _ alongside_day).2.2 dayReport hline herrors, ?_, ?_, htotals⟩
  · rw [hmessage, dayReport_eq]
    decide +kernel
  · intro heq
    rw [dayReport_eq] at hother heq
    have hnone : [dayError] = [] := hother .empty .error
      (List.forall_mem_singleton.mpr isLegible_dayError) nofun heq
    cases hnone

end EntityConventions
