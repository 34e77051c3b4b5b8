import EntityConventions.CommandLine.Run
import EntityConventions.Proofs.Checking
import EntityConventions.Proofs.IndexedAssociations
import EntityConventions.Proofs.Names

/-! # The configuration to begin with

`CommandLine.initialConfig` is meant to spell out what applies without a configuration.  It does so
for where documents are found, for the choice of rules and for seven of them
(`exists_parse_initialConfig`): the marker of indexed columns that it names has another namespace
than the usual one, but of the marker a check reads the last segment only
(`ExclusiveIndexColumn.violations_congr`).  The base class of entity tests that it names is another
class, so the eighth rule asks for something else (`checkModels_initial`).

A rule sees of a configuration what `Config.ReadAlike` lists.  Reports under two configurations
that some rules read alike agree on the findings of these rules (`filter_findings_congr`). -/

namespace EntityConventions

/-! ### Configurations that a rule reads alike -/

theorem Rule.finding_configureFrom (config : Config) (r : Rule) :
    (r.configureFrom config).finding = r.finding := by
  have hseverity : (r.configureFrom config).severity = r.severity := by
    unfold configureFrom
    split <;> rfl
  funext path v
  simp only [finding, Analyzer.code_configureFrom, Analyzer.name_configureFrom, hseverity]

/-- All that a rule is told by two configurations is the same: whether it is applied, the severity
of its findings, and options as far as its violations depend on them. -/
structure Config.ReadAlike (c c' : Config) (r : Rule) : Prop where
  enabled : c.isRuleEnabled r.name = c'.isRuleEnabled r.name
  severity : c.ruleSeverity? r.name = c'.ruleSeverity? r.name
  violations : (r.configureFrom c).check.violations = (r.configureFrom c').check.violations

namespace Analyzer

section readAlike

variable {c c' : Config} (hignore : c.ignore = c'.ignore) {rules : List Rule} (root : Path)
  (classifier : Classifier) (models : List Model)
include hignore

theorem dueBy_congr {r : Rule} (h : c.ReadAlike c' r) (e : ClassEntry) (d : ClassDeclaration) :
    (build root rules c classifier).dueBy models e d (r.configureFrom c) =
      (build root rules c' classifier).dueBy models e d (r.configureFrom c') := by
  have henabled : (c.rule? r.name).bind RuleConfig.enabled = some false ↔
      (c'.rule? r.name).bind RuleConfig.enabled = some false := by
    rw [← isRuleEnabled_eq_false_iff, ← isRuleEnabled_eq_false_iff, h.enabled]
  have hseverity : (c.rule? r.name).bind RuleConfig.severity =
      (c'.rule? r.name).bind RuleConfig.severity := h.severity
  rw [dueBy_eq_kept, dueBy_eq_kept, h.violations]
  simp only [kept, build, name_configureFrom, Rule.finding_configureFrom, henabled, hseverity,
    hignore]
  rfl

/-- Of the findings that a test lets through, those of rules that read two configurations alike
are the same under both. -/
theorem filter_findings_congr (p : Finding → Bool)
    (h : ∀ r ∈ rules, c.ReadAlike c' r ∨ ∀ f : Finding, f.code = r.code → p f = false) :
    ((build root rules c classifier).checkModels models).findings.filter p =
      ((build root rules c' classifier).checkModels models).findings.filter p := by
  have hdueBy : ∀ e d, ∀ r ∈ rules,
      ((build root rules c classifier).dueBy models e d (r.configureFrom c)).filter p =
        ((build root rules c' classifier).dueBy models e d (r.configureFrom c')).filter p := by
    intro e d r hr
    rcases h r hr with halike | hcode
    · rw [dueBy_congr hignore root classifier models halike]
    · have hnone : ∀ config : Config,
          ((build root rules config classifier).dueBy models e d
            (r.configureFrom config)).filter p = [] := by
        intro config
        rw [List.filter_eq_nil_iff]
        intro f hf
        rw [hcode f ((code_of_mem_dueBy hf).trans (code_configureFrom config r))]
        exact Bool.false_ne_true
      rw [hnone, hnone]
  have hdue : ((build root rules c classifier).due models).filter p =
      ((build root rules c' classifier).due models).filter p := by
    rw [due_eq_flatMap, due_eq_flatMap, List.filter_flatMap, List.filter_flatMap]
    apply List.flatMap_congr
    intro e _
    unfold dueAbout
    cases e.declaration? with
    | none => rfl
    | some d =>
        simp only [build, List.flatMap_map, List.filter_flatMap]
        exact List.flatMap_congr (hdueBy e d)
  apply ((checkModels_isStableSort _ models).filter p).eq_of_withKey_eq
    ((checkModels_isStableSort _ models).filter p)
  intro k
  rw [hdue]

/-- Configurations that all rules read alike lead to the same report. -/
theorem checkModels_eq_of_readAlike (h : ∀ r ∈ rules, c.ReadAlike c' r) :
    (build root rules c classifier).checkModels models =
      (build root rules c' classifier).checkModels models := by
  have hall := filter_findings_congr hignore root classifier models (fun _ => true)
    fun r hr => Or.inl (h r hr)
  simp only [List.filter_true] at hall
  exact checkModels_congr hall

end readAlike

end Analyzer

/-! ### What the written text says -/

/-- The table that the characters of a text spell. -/
def Toml.ofChars? (chars : List Char) : Option (List (String × Toml)) := do
  let cs :=
    match chars with
    | '\ufeff' :: cs => cs
    | cs => cs
  let lines ← Reader.lines (cs.length + 1) cs
  let (pairs, blocks) := Reader.blocks lines
  Document.assemble pairs blocks

theorem Toml.parse_eq_ofChars? (text : String) : Toml.parse text = Toml.ofChars? text.toList :=
  rfl

/-- A text without entries to ignore spells the configuration that its table reads as. -/
theorem Config.parse_of_ofEntries? {text : String} {c : Config}
    (hc : (Toml.parse text).bind ofEntries? = some c) (hignore : c.ignore = []) :
    Config.parse text = .ok c := by
  unfold parse
  simp only [hc, hignore, List.findSome?_nil]

namespace CommandLine

/-- The marker of indexed columns in the configuration to begin with. -/
def initialMarker : String := "App\\Doctrine\\Attribute\\IndexColumn"

/-- The base class of entity tests in the configuration to begin with. -/
def initialBase : String := "App\\Tests\\AbstractEntityTestCase"

/-- A check with the options of the configuration to begin with. -/
def initialCheck : Check → Check
  | .exclusiveIndexColumn _ => .exclusiveIndexColumn initialMarker
  | .entityTestBase _ => .entityTestBase initialBase
  | check => check

/-- The configuration to begin with repeats the usual preset, places and severities, and sets two
options. -/
theorem exists_parse_initialConfig :
    ∃ config, Config.parse initialConfig = .ok config ∧ config.preset = some "recommended" ∧
      config.failOn = some "error" ∧ config.analyzer = .default ∧ config.ignore = [] ∧
      ∀ r ∈ Rule.all, config.isRuleEnabled r.name = true ∧ config.ruleSeverity? r.name = none ∧
        (r.configureFrom config).check = initialCheck r.check := by
  have hread : ((Toml.ofChars? initialConfig.toList).bind Config.ofEntries?).any (fun config =>
      config.preset = some "recommended" ∧ config.failOn = some "error" ∧
        config.analyzer = .default ∧ config.ignore = [] ∧
        ∀ r ∈ Rule.all, config.isRuleEnabled r.name = true ∧ config.ruleSeverity? r.name = none ∧
          (r.configureFrom config).check = initialCheck r.check) = true := by
    -- The characters are laid open first: evaluating the text as a whole takes minutes.
    unfold initialConfig
    repeat rewrite [String.toList_append]
    repeat rewrite [String.toList_ofList]
    decide +kernel
  rw [Option.any_eq_true] at hread
  obtain ⟨config, hconfig, hrules⟩ := hread
  rw [← Toml.parse_eq_ofChars?] at hconfig
  have hrules := of_decide_eq_true hrules
  exact ⟨config, Config.parse_of_ofEntries? hconfig hrules.2.2.2.1, hrules⟩

theorem selectRules_recommended {config : Config} (hpreset : config.preset = some "recommended") :
    selectRules config none = .ok Rule.all := by
  simp only [selectRules, hpreset]
  rfl

/-! ### Reports under the written text -/

/-- No configuration, apart from a base class of entity tests. -/
def baseClassOnly (base : String) : Config :=
  { Config.default with
    rules := [("entity-test-must-extend", ⟨none, none, [("base_class", .string base)]⟩)] }

/-- The options of the written text make the checks object to what they object to with the base
class alone. -/
theorem violations_initialCheck :
    ∀ r ∈ Rule.all, (initialCheck r.check).violations =
      (r.configureFrom (baseClassOnly initialBase)).check.violations := by
  have hsame : ∀ r ∈ Rule.all, r = Rule.exclusiveIndexColumn ∨
      initialCheck r.check = (r.configureFrom (baseClassOnly initialBase)).check := by
    decide
  intro r hr
  rcases hsame r hr with rfl | heq
  · exact ExclusiveIndexColumn.violations_congr (by decide)
  · rw [heq]

/-- Under the written text a report is the one for the base class that it names. -/
theorem checkModels_initial {config : Config} (hignore : config.ignore = [])
    (hrules : ∀ r ∈ Rule.all, config.isRuleEnabled r.name = true ∧
      config.ruleSeverity? r.name = none ∧ (r.configureFrom config).check = initialCheck r.check)
    (root : Path) (classifier : Classifier) (models : List Model) :
    (Analyzer.build root Rule.all config classifier).checkModels models =
      (Analyzer.build root Rule.all (baseClassOnly initialBase) classifier).checkModels models := by
  have hbase : ∀ r ∈ Rule.all, (baseClassOnly initialBase).isRuleEnabled r.name = true ∧
      (baseClassOnly initialBase).ruleSeverity? r.name = none := by
    decide
  apply Analyzer.checkModels_eq_of_readAlike hignore
  intro r hr
  obtain ⟨henabled, hseverity, hcheck⟩ := hrules r hr
  refine ⟨?_, ?_, ?_⟩
  · rw [henabled, (hbase r hr).1]
  · rw [hseverity, (hbase r hr).2]
  · rw [hcheck, violations_initialCheck r hr]

/-- A base class alone changes nothing but the findings about entity tests. -/
theorem filter_findings_baseClassOnly (root : Path) (classifier : Classifier)
    (models : List Model) :
    ((Analyzer.build root Rule.all (baseClassOnly initialBase) classifier).checkModels
        models).findings.filter (fun f => f.code ≠ "EL008") =
      ((Analyzer.build root Rule.all .default classifier).checkModels models).findings.filter
        fun f => f.code ≠ "EL008" := by
  have hothers : ∀ r ∈ Rule.all, r.code = "EL008" ∨
      (baseClassOnly initialBase).isRuleEnabled r.name = Config.default.isRuleEnabled r.name ∧
      (baseClassOnly initialBase).ruleSeverity? r.name = Config.default.ruleSeverity? r.name ∧
      r.configureFrom (baseClassOnly initialBase) = r.configureFrom .default := by
    decide
  have hignore : (baseClassOnly initialBase).ignore = Config.default.ignore := rfl
  apply Analyzer.filter_findings_congr hignore
  intro r hr
  rcases hothers r hr with hcode | ⟨henabled, hseverity, hrule⟩
  · right
    intro f hf
    rw [hf, hcode]
    rfl
  · exact Or.inl ⟨henabled, hseverity, by rw [hrule]⟩

end CommandLine

/-- A finding about an entity test advises to extend the configured base class. -/
theorem Analyzer.tip_of_mem_checkModels {config : Config} {base : String}
    (hbase : (Rule.entityTestBase.configureFrom config).check = .entityTestBase base) {root : Path}
    {classifier : Classifier} {models : List Model} {f : Finding}
    (hf : f ∈ ((build root Rule.all config classifier).checkModels models).findings)
    (hcode : f.code = "EL008") :
    f.tip = some ("Entity tests must extend " ++ base ++
      " to use the prepared test environment and helper methods.") := by
  obtain ⟨e, -, d, -, r', hr', hf⟩ := exists_rule_of_mem_checkModels hf
  obtain ⟨r, hr, rfl⟩ := List.mem_map.mp hr'
  have hr : r = Rule.entityTestBase := by
    apply eq_of_code_eq r hr _ (by decide)
    rw [← code_configureFrom config, ← code_of_mem_dueBy hf, hcode]
    rfl
  subst hr
  obtain ⟨v, hv, severity, rfl⟩ := exists_violation_of_mem_dueBy hf
  rw [hbase] at hv
  simp only [Check.violations, EntityTestBase.violations] at hv
  split at hv
  · split at hv
    · exact absurd hv List.not_mem_nil
    · rw [List.mem_singleton.mp hv]
      rfl
  · exact absurd hv List.not_mem_nil

namespace CommandLine

/-- **The configuration to begin with is neutral but for one base class.**  It reads as a
configuration that finds documents and selects rules as if there were none.  Under it every report
is the one for the base class that it names and nothing else; compared with the report without a
configuration, the counts and the findings with a code other than `EL008` are the same, and the
reports are equal exactly if neither has a finding with that code. -/
theorem initialConfig_neutral :
    ∃ config, Config.parse initialConfig = .ok config ∧ config.analyzer = .default ∧
      selectRules config none = .ok Rule.all ∧ selectRules .default none = .ok Rule.all ∧
      ∀ (root : Path) (classifier : Classifier) (models : List Model),
        let written := (Analyzer.build root Rule.all config classifier).checkModels models
        let usual := (Analyzer.build root Rule.all .default classifier).checkModels models
        written = (Analyzer.build root Rule.all (baseClassOnly initialBase)
            classifier).checkModels models ∧
          written.findings.filter (fun f => f.code ≠ "EL008") =
            usual.findings.filter (fun f => f.code ≠ "EL008") ∧
          written.classesChecked = usual.classesChecked ∧
          written.filesChecked = usual.filesChecked ∧
          (written = usual ↔ ∀ f ∈ written.findings ++ usual.findings, f.code ≠ "EL008") := by
  obtain ⟨config, hparse, hpreset, -, hanalyzer, hignore, hrules⟩ := exists_parse_initialConfig
  refine ⟨config, hparse, hanalyzer, selectRules_recommended hpreset, rfl, ?_⟩
  intro root classifier models written usual
  have hwritten := checkModels_initial hignore hrules root classifier models
  have hothers : written.findings.filter (fun f => f.code ≠ "EL008") =
      usual.findings.filter fun f => f.code ≠ "EL008" := by
    rw [show written = _ from hwritten]
    exact filter_findings_baseClassOnly root classifier models
  refine ⟨hwritten, hothers, rfl, rfl, ?_, ?_⟩
  · -- A common finding about an entity test would advise two base classes.
    intro heq f hf hcode
    have hf : f ∈ written.findings ∧ f ∈ usual.findings := by
      rw [heq, List.mem_append, or_self] at hf
      exact ⟨heq ▸ hf, hf⟩
    have hbase : (Rule.entityTestBase.configureFrom config).check = .entityTestBase initialBase :=
      (hrules Rule.entityTestBase (by decide)).2.2
    have hdefault : (Rule.entityTestBase.configureFrom .default).check =
        .entityTestBase EntityTestBase.defaultBase := rfl
    have hinitial := Analyzer.tip_of_mem_checkModels hbase hf.1 hcode
    have husual := Analyzer.tip_of_mem_checkModels hdefault hf.2 hcode
    exact absurd (hinitial.symm.trans husual) (by decide)
  · intro hnone
    apply Analyzer.checkModels_congr
    have hwhole : ∀ {fs : List Finding}, (∀ f ∈ fs, f.code ≠ "EL008") →
        fs.filter (fun f => f.code ≠ "EL008") = fs := by
      intro fs h
      rw [List.filter_eq_self]
      exact fun f hf => decide_eq_true (h f hf)
    rw [← hwhole fun f hf => hnone f (List.mem_append_left _ hf),
      ← hwhole fun f hf => hnone f (List.mem_append_right _ hf)]
    exact hothers

/-- A test case that covers an entity and does not extend the base class of the written text. -/
def dayTest : Model where
  classes := [
    { file? := some ⟨"tests/DayTest.php"⟩
      declaration? := some (.empty "App\\Tests\\DayTest" .regular 7)
      reflection := ((Reflection.ofName "App\\Tests\\DayTest").setFile
        ⟨"tests/DayTest.php"⟩).addAttribute ((Attribute.bare Concept.coversClass.qualified 6).addArg
          (.positional (.classConst (some "App\\Entity\\Day") (some "class") 6))) },
    { file? := none
      declaration? := none
      reflection := (Reflection.ofName "App\\Entity\\Day").addAttribute
        (.bare Concept.entity.qualified 2) },
    { file? := none
      declaration? := none
      reflection := .ofName initialBase }]

/-- The written text turns a document without findings into one with an error. -/
theorem initialConfig_dayTest :
    ∃ config, Config.parse initialConfig = .ok config ∧
      selectRules config none = .ok Rule.all ∧ selectRules .default none = .ok Rule.all ∧
      ((Analyzer.build ⟨"/app"⟩ Rule.all config .conventions).checkModels
        [dayTest]).findings.map Finding.code = ["EL008"] ∧
      ((Analyzer.build ⟨"/app"⟩ Rule.all .default .conventions).checkModels
        [dayTest]).findings.map Finding.code = [] ∧
      (Analyzer.build ⟨"/app"⟩ Rule.all config .conventions).checkModels [dayTest] ≠
        (Analyzer.build ⟨"/app"⟩ Rule.all .default .conventions).checkModels [dayTest] := by
  obtain ⟨config, hparse, hpreset, -, -, hignore, hrules⟩ := exists_parse_initialConfig
  have hwritten : ((Analyzer.build ⟨"/app"⟩ Rule.all config .conventions).checkModels
      [dayTest]).findings.map Finding.code = ["EL008"] := by
    rw [checkModels_initial hignore hrules]
    exact Analyzer.map_findings_of_map_due (by decide +kernel) le_rfl
  have husual : ((Analyzer.build ⟨"/app"⟩ Rule.all .default .conventions).checkModels
      [dayTest]).findings.map Finding.code = [] :=
    Analyzer.map_findings_of_map_due (by decide +kernel) (Nat.zero_le 1)
  refine ⟨config, hparse, selectRules_recommended hpreset, rfl, hwritten, husual, fun heq => ?_⟩
  rw [heq, husual] at hwritten
  exact List.cons_ne_nil _ _ hwritten.symm

end CommandLine

end EntityConventions
