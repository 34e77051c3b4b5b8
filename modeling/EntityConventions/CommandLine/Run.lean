import EntityConventions.CommandLine.Arguments
import EntityConventions.Environment
import EntityConventions.Text.Blank

/-! # Commands

`CommandLine.run` carries out a command line in an environment and returns its `Outcome`: what it
prints, how it ends, and the files afterwards.  A check ends with status one if it finds errors;
so does every failure.  A command line that makes no sense ends with status two. -/

namespace EntityConventions.CommandLine

/-- Why a command fails. -/
inductive Failure where
  | config (path : Path) (e : ConfigError)
  | noKnownRules (filter : String)
  | unknownPreset (name : String)
  | check (e : CheckError)
  | configExists (path : Path)
  | file (e : FileError)

/-- The words for a failure, without its cause. -/
def Failure.message : Failure → String
  | .config path _ => "Failed to load config: " ++ path.text
  | .noKnownRules filter =>
      "No known rules in --rules " ++ Text.Quoted.quote filter ++ "; see `entity-lint list-rules`"
  | .unknownPreset name =>
      "Unknown preset " ++ Text.Quoted.quote name ++ " (expected recommended, strict or minimal)"
  | .check _ => "Analysis failed"
  | .configExists path =>
      "Configuration file already exists at " ++ path.text ++ ". Use --force to overwrite."
  | .file e => e.message

/-- How a run ends. -/
structure Outcome where
  exitCode : Nat
  stdout : String
  failure? : Option Failure
  tree : FileTree

/-! ### Checking -/

/-- The configuration from a source. -/
def loadConfig (p : Project) (source : ConfigSource) : Except Failure Config :=
  match source.path? with
  | none => .ok .default
  | some path =>
      match Config.load p.tree p.current path with
      | .ok config => .ok config
      | .error e => .error (.config path e)

/-- The words between commas, without blanks around them and without empty ones. -/
def filterWords (filter : String) : List String :=
  ((filter.toList.splitOn ',').map fun cs => Text.Blank.trim (String.ofList cs)).filter (· != "")

/-- The rules to apply: those that a filter names, or else those of the configured preset. -/
def selectRules (config : Config) (filter : Option String) : Except Failure (List Rule) :=
  match filter with
  | some filter =>
      match (filterWords filter).filterMap Rule.find? with
      | [] => .error (.noKnownRules filter)
      | rules => .ok rules
  | none =>
      match config.preset with
      | none => .ok Preset.recommended.rules
      | some name =>
          match Preset.ofWord? name with
          | some preset => .ok preset.rules
          | none => .error (.unknownPreset name)

/-- The directory of the models at a path: that of a file, or the path itself. -/
def modelDirectory (p : Project) (path : Path) : Path :=
  if p.tree.isFile p.current path then path.parent?.getD ⟨""⟩ else path

/-- Check the models at a path. -/
def check (p : Project) (source : ConfigSource) (path : Path) (filter : Option String)
    (excludes : List String) : Except Failure Report := do
  let config ← loadConfig p source
  let rules ← selectRules config filter
  let survey := Survey.plan p.current (some path) [] excludes rules config
    Classifier.conventions false
  match p.check survey with
  | .ok report => .ok report
  | .error e => .error (.check e)

/-! ### Listing the rules -/

/-- A text, filled up with blanks on the right. -/
def column (width : Nat) (text : String) : String :=
  text ++ String.ofList (List.replicate (width - text.length) ' ')

/-- One row of the table of rules. -/
def row (code severity name description : String) : String :=
  column 8 code ++ " " ++ column 9 severity ++ " " ++ column 34 name ++ " " ++ description ++ "\n"

/-- The table of rules, and how to choose among them. -/
def ruleList : String :=
  "Available rules:\n\n" ++ row "Code" "Severity" "Name" "Description" ++
    String.ofList (List.replicate 96 '-') ++ "\n" ++
    String.join (Rule.all.map fun r => row r.code r.severity.word r.name r.description) ++
    "\nPresets:\n" ++
    "  recommended  - EL001 through EL008 (default)\n" ++
    "  strict       - All rules, EL001 and EL006 raised to errors, tests not skipped\n" ++
    "  minimal      - EL001, EL002, EL004 (for gradual adoption)\n" ++
    "\nUse --rules to filter specific rules, e.g.:\n" ++
    "  entity-lint check --rules entity-datetime-immutable,index-name-prefix\n" ++
    "  entity-lint check --rules EL001,EL004\n"

/-! ### Writing a configuration -/

/-- The name of the configuration file that is written. -/
def configFileName : String := "entity-lint.toml"

/-- The configuration to begin with. -/
def initialConfig : String :=
  "# entity-lint configuration\n" ++
  "\n" ++
  "# Rule preset: \"recommended\" (default), \"strict\" or \"minimal\"\n" ++
  "preset = \"recommended\"\n" ++
  "\n" ++
  "# Minimum severity that fails `cargo test` integration\n" ++
  "fail_on = \"error\"\n" ++
  "\n" ++
  "[analyzer]\n" ++
  "# Root directory holding model documents (default: current directory)\n" ++
  "# root = \"./var/model\"\n" ++
  "\n" ++
  "# Model documents to load\n" ++
  "include = [\"**/*.model.json\"]\n" ++
  "\n" ++
  "# Glob patterns to exclude from analysis\n" ++
  "exclude = [\n" ++
  "    \"**/vendor/**\",\n" ++
  "    \"**/node_modules/**\",\n" ++
  "]\n" ++
  "\n" ++
  "# Worker threads for class evaluation (default: all cores)\n" ++
  "# parallelism = 4\n" ++
  "\n" ++
  "# Rule configurations\n" ++
  "# Each rule can be enabled/disabled and have its severity overridden\n" ++
  "\n" ++
  "[rules.entity-column-comment]\n" ++
  "enabled = true\n" ++
  "# severity = \"error\"\n" ++
  "skip_tests = true\n" ++
  "\n" ++
  "[rules.index-column-mutually-exclusive]\n" ++
  "index_column_class = \"App\\\\Doctrine\\\\Attribute\\\\IndexColumn\"\n" ++
  "\n" ++
  "[rules.entity-test-must-extend]\n" ++
  "base_class = \"App\\\\Tests\\\\AbstractEntityTestCase\"\n" ++
  "\n" ++
  "# Suppress individual findings\n" ++
  "# [[ignore]]\n" ++
  "# identifier = \"doctrine.indexName.prefix\"\n" ++
  "# path = \"src/Legacy/**\"\n" ++
  "# reason = \"legacy tables keep their historic index names\"\n"

/-- What is printed once the configuration is written. -/
def initMessage (path : Path) : String :=
  "Created " ++ path.text ++ "\n" ++
    "\nNext steps:\n" ++
    "  1. Edit " ++ configFileName ++ " to configure rules\n" ++
    "  2. Export your class model as *.model.json\n" ++
    "  3. Run: entity-lint check\n"

/-- Write the configuration to begin with into a directory; one that is there is kept, unless
`force` holds. -/
def init (p : Project) (directory : Path) (force : Bool) : Except Failure FileTree :=
  let path := directory.join ⟨configFileName⟩
  if p.tree.leadsTo p.current path && !force then .error (.configExists path)
  else
    match p.tree.write p.current directory configFileName initialConfig with
    | .ok tree => .ok tree
    | .error e => .error (.file e)

/-! ### Running -/

/-- Carry out an invocation. -/
def perform (env : Environment) (i : Invocation) : Outcome :=
  let p := env.project
  let fail := fun (e : Failure) => (⟨1, "", some e, p.tree⟩ : Outcome)
  match i.command with
  | .check path format rules excludes =>
      let source :=
        ConfigSource.resolve p (modelDirectory p path) i.config env.globalDirectory?
      match check p source path rules excludes with
      | .ok report =>
          ⟨if report.hasErrors then 1 else 0, report.render format false, none, p.tree⟩
      | .error e => fail e
  | .listRules => ⟨0, ruleList, none, p.tree⟩
  | .init force =>
      match init p ⟨"."⟩ force with
      | .ok tree => ⟨0, initMessage ((⟨"."⟩ : Path).join ⟨configFileName⟩), none, tree⟩
      | .error e => fail e

/-- Carry out a command line. -/
def run (env : Environment) (words : List String) : Outcome :=
  match Arguments.parse words with
  | .ok invocation => perform env invocation
  | .error .help => ⟨0, "", none, env.tree⟩
  | .error .usage => ⟨2, "", none, env.tree⟩

end EntityConventions.CommandLine
