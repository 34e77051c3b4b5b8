import EntityConventions.Report
import EntityConventions.Rule

/-! # Checking models

An `Analyzer` holds what a check needs to know beside the documents: the root that reported paths
are relative to, the rules with their options set, the configuration and the roles of classes.
`Analyzer.checkModels` applies every enabled rule to every declared class, replaces severities as
configured, drops what is to be ignored and puts the findings in order. -/

namespace EntityConventions

/-- All that a check needs beside the documents. -/
structure Analyzer where
  root : Path
  rules : List Rule
  config : Config
  classifier : Classifier

namespace Analyzer

/-- An analyzer for given rules; their options are set from the configuration. -/
def build (root : Path) (rules : List Rule) (config : Config) (classifier : Classifier) :
    Analyzer where
  root := root
  rules := rules.map (Rule.configureFrom config)
  config := config
  classifier := classifier

/-- Give findings the severity that is configured for a rule. -/
def overrideSeverity (config : Config) (ruleName : String) (fs : List Finding) : List Finding :=
  match config.ruleSeverity? ruleName with
  | some severity => fs.map fun f => { f with severity := severity }
  | none => fs

/-- What rules see of an entry with a declaration. -/
def context (a : Analyzer) (index : ClassIndex) (e : ClassEntry) (d : ClassDeclaration) :
    ClassContext where
  declaration := d
  reflection := e.reflection
  scope := ⟨some e.reflection, index⟩
  classifier := a.classifier
  path := reportPath a.root e.file

/-- The findings of the enabled rules about one class. -/
def checkClass (a : Analyzer) (index : ClassIndex) (e : ClassEntry) (d : ClassDeclaration) :
    List Finding :=
  (a.rules.filter fun r => a.config.isRuleEnabled r.name).flatMap fun r =>
    overrideSeverity a.config r.name (r.findings (a.context index e d))

/-- The entries with a declaration, in the order of the documents. -/
def targets (models : List Model) : List (ClassEntry × ClassDeclaration) :=
  (models.flatMap Model.classes).filterMap fun e => e.declaration?.map fun d => (e, d)

/-- Check all declared classes of some documents; their classes know each other. -/
def checkModels (a : Analyzer) (models : List Model) : Report :=
  let index := ClassIndex.ofModels models
  let targets := targets models
  let found := targets.flatMap fun (e, d) => a.checkClass index e d
  let kept := found.filter fun f => (a.config.ignoredBy? f).isNone
  Report.sorted ⟨kept, targets.length, models.length⟩

end Analyzer

end EntityConventions
