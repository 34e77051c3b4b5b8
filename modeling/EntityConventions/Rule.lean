import EntityConventions.Config
import EntityConventions.Rule.ColumnComment
import EntityConventions.Rule.EntityTestBase
import EntityConventions.Rule.ExclusiveIndexColumn
import EntityConventions.Rule.ImmutableDates
import EntityConventions.Rule.IndexNamePrefix
import EntityConventions.Rule.ParameterlessConstructor
import EntityConventions.Rule.RangeMessages
import EntityConventions.Rule.RepositoryConstant

/-! # Rules

A `Rule` is one of eight checks, with the options of that check, and a severity for its findings.
Every rule has a code and a name.  `Rule.findings` stamps both on the violations of a class;
`Rule.configure` sets the options from what a configuration says about the rule. -/

namespace EntityConventions

/-- The checks, each with its options. -/
inductive Check where
  | columnComment (skipTests : Bool)
  | immutableDates
  | parameterlessConstructor
  | repositoryConstant
  | exclusiveIndexColumn (marker : String)
  | indexNamePrefix
  | rangeMessages
  | entityTestBase (baseClass : String)
  deriving DecidableEq, Repr

/-- A check and the severity of its findings. -/
structure Rule where
  check : Check
  severity : Severity
  deriving DecidableEq, Repr

namespace Check

/-- The code of a check. -/
def code : Check → String
  | .columnComment _ => "EL001"
  | .immutableDates => "EL002"
  | .parameterlessConstructor => "EL003"
  | .repositoryConstant => "EL004"
  | .exclusiveIndexColumn _ => "EL005"
  | .indexNamePrefix => "EL006"
  | .rangeMessages => "EL007"
  | .entityTestBase _ => "EL008"

/-- The name of a check. -/
def name : Check → String
  | .columnComment _ => "entity-column-comment"
  | .immutableDates => "entity-datetime-immutable"
  | .parameterlessConstructor => "entity-parameterless-constructor"
  | .repositoryConstant => "entity-repository-class-constant"
  | .exclusiveIndexColumn _ => "index-column-mutually-exclusive"
  | .indexNamePrefix => "index-name-prefix"
  | .rangeMessages => "range-constraint-message"
  | .entityTestBase _ => "entity-test-must-extend"

/-- What a check asks for, in a few words. -/
def description : Check → String
  | .columnComment _ => "Requires a comment in the options of every entity column"
  | .immutableDates => "Requires immutable date/time column types on entities"
  | .parameterlessConstructor => "Forbids constructor parameters on entities"
  | .repositoryConstant => "Requires ClassName::class syntax for repositoryClass"
  | .exclusiveIndexColumn _ => "Forbids #[IndexColumn] on association properties"
  | .indexNamePrefix => "Requires index names to be prefixed with the table name"
  | .rangeMessages => "Forbids minMessage/maxMessage on range constraints with both bounds"
  | .entityTestBase _ => "Requires entity tests to extend the abstract entity test case"

/-- The violations of a class. -/
def violations : Check → ClassContext → List Violation
  | .columnComment skipTests => ColumnComment.violations skipTests
  | .immutableDates => ImmutableDates.violations
  | .parameterlessConstructor => ParameterlessConstructor.violations
  | .repositoryConstant => RepositoryConstant.violations
  | .exclusiveIndexColumn marker => ExclusiveIndexColumn.violations marker
  | .indexNamePrefix => IndexNamePrefix.violations
  | .rangeMessages => RangeMessages.violations
  | .entityTestBase baseClass => EntityTestBase.violations baseClass

/-- Set the options of a check; the class that an option names loses a leading separator. -/
def configure (c : RuleConfig) : Check → Check
  | .columnComment skipTests => .columnComment (c.getBool "skip_tests" skipTests)
  | .exclusiveIndexColumn marker =>
      .exclusiveIndexColumn (Name.trimLeading (c.getString "index_column_class" marker))
  | .entityTestBase baseClass =>
      .entityTestBase (Name.trimLeading (c.getString "base_class" baseClass))
  | check => check

end Check

namespace Rule

/-- The code of a rule. -/
def code (r : Rule) : String := r.check.code

/-- The name of a rule. -/
def name (r : Rule) : String := r.check.name

/-- What a rule asks for. -/
def description (r : Rule) : String := r.check.description

/-- The finding for a violation of a rule. -/
def finding (r : Rule) (file : Path) (v : Violation) : Finding where
  code := r.code
  rule := r.name
  identifier := v.identifier
  severity := r.severity
  file := file
  line := v.line
  message := v.message
  tip := v.tip

/-- The findings of a rule about a class. -/
def findings (r : Rule) (ctx : ClassContext) : List Finding :=
  (r.check.violations ctx).map (r.finding ctx.path)

/-- Set the options of a rule. -/
def configure (r : Rule) (c : RuleConfig) : Rule :=
  { r with check := r.check.configure c }

/-- Set the options of a rule from a configuration, if it mentions the rule. -/
def configureFrom (config : Config) (r : Rule) : Rule :=
  match config.rule? r.name with
  | some c => r.configure c
  | none => r

/-! ### All rules -/

/-- Columns carry a comment. -/
def columnComment : Rule := ⟨.columnComment true, .warning⟩

/-- Dates and times are immutable. -/
def immutableDates : Rule := ⟨.immutableDates, .error⟩

/-- Constructors of entities take no parameters. -/
def parameterlessConstructor : Rule := ⟨.parameterlessConstructor, .error⟩

/-- Repositories are named by class constants. -/
def repositoryConstant : Rule := ⟨.repositoryConstant, .error⟩

/-- Associations are not marked as indexed. -/
def exclusiveIndexColumn : Rule := ⟨.exclusiveIndexColumn Concept.indexColumn.qualified, .error⟩

/-- Names of indexes start with the table. -/
def indexNamePrefix : Rule := ⟨.indexNamePrefix, .warning⟩

/-- Ranges with two bounds have one message. -/
def rangeMessages : Rule := ⟨.rangeMessages, .error⟩

/-- Tests of entities extend the common test case. -/
def entityTestBase : Rule := ⟨.entityTestBase EntityTestBase.defaultBase, .error⟩

/-- All rules with their usual options and severities, in the order of their codes. -/
def all : List Rule :=
  [columnComment, immutableDates, parameterlessConstructor, repositoryConstant,
   exclusiveIndexColumn, indexNamePrefix, rangeMessages, entityTestBase]

/-- A text with the capital letters of the basic alphabet made small. -/
def lower (text : String) : List Char :=
  text.toList.map Char.toLower

/-- The rule with a given name, or with a given code in any case. -/
def find? (text : String) : Option Rule :=
  all.find? fun r => r.name == text || lower r.code == lower text

end Rule

/-! ### Presets -/

/-- Common choices of rules. -/
inductive Preset where
  | recommended
  | strict
  | minimal
  deriving DecidableEq, Repr

namespace Preset

/-- The preset that a word names. -/
def ofWord? : String → Option Preset
  | "recommended" => some .recommended
  | "strict" => some .strict
  | "minimal" => some .minimal
  | _ => none

/-- The rules of a preset: all of them; all of them as errors and test files not left out; or a
few to begin with. -/
def rules : Preset → List Rule
  | .recommended => Rule.all
  | .strict =>
      [⟨.columnComment false, .error⟩, Rule.immutableDates, Rule.parameterlessConstructor,
       Rule.repositoryConstant, Rule.exclusiveIndexColumn,
       { Rule.indexNamePrefix with severity := .error }, Rule.rangeMessages, Rule.entityTestBase]
  | .minimal => [Rule.columnComment, Rule.immutableDates, Rule.repositoryConstant]

end Preset

end EntityConventions
