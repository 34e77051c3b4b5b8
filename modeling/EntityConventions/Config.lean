import EntityConventions.FileTree
import EntityConventions.Finding
import EntityConventions.Glob.Match
import EntityConventions.Text.Quoted
import EntityConventions.Toml.Access
import EntityConventions.Toml.Reader

/-! # Configuration

A `Config` names a preset and a threshold, says where model documents are, sets up rules one by
one, and lists findings to be ignored.  `Config.parse` reads it from a TOML text: keys that are
not known do not matter, a value of the wrong type does, and every path of an ignore entry has to
be a pattern.  `Config.isRuleEnabled`, `Config.ruleSeverity?` and `Config.ignoredBy?` are the
questions that a check asks. -/

namespace EntityConventions

/-- Where model documents are. -/
structure AnalyzerConfig where
  root : Path
  excludes : List String
  includes : List String
  parallelism : Option Nat
  deriving DecidableEq, Repr

/-- What is said about one rule; the options are all keys that are not common to rules. -/
structure RuleConfig where
  enabled : Option Bool
  severity : Option Severity
  options : List (String × Toml)

/-- A finding to be ignored, everywhere or in the files that a pattern matches. -/
structure IgnoreEntry where
  identifier : String
  path : Option String
  reason : Option String
  deriving DecidableEq, Repr

/-- A configuration. -/
structure Config where
  preset : Option String
  failOn : Option String
  analyzer : AnalyzerConfig
  rules : List (String × RuleConfig)
  ignore : List IgnoreEntry

/-- Why there is no configuration. -/
inductive ConfigError where
  | unreadable (path : Path) (reason : FileError)
  | malformed
  | badGlob (pattern : String) (fault : Glob.Fault)

/-- The words for a failure. -/
def ConfigError.message : ConfigError → String
  | .unreadable path reason => "Failed to read config file " ++ path.text ++ ": " ++ reason.message
  | .malformed => "Failed to parse config:"
  | .badGlob pattern fault =>
      "Invalid ignore path glob " ++ Text.Quoted.quote pattern ++ ": " ++ fault.message

/-! ### Rules -/

namespace RuleConfig

/-- Nothing is said. -/
def empty : RuleConfig := ⟨none, none, []⟩

/-- An option as a value of some type; one of another type counts as absent. -/
def option? {α : Type} (c : RuleConfig) (key : String) (decode : Toml → Option α) : Option α :=
  (c.options.lookup key).bind decode

/-- A truth value, or a default. -/
def getBool (c : RuleConfig) (key : String) (default : Bool) : Bool :=
  (c.option? key Toml.bool?).getD default

/-- A text, or a default. -/
def getString (c : RuleConfig) (key default : String) : String :=
  (c.option? key Toml.string?).getD default

/-- Read what is said about a rule. -/
def ofToml? (v : Toml) : Option RuleConfig := do
  let entries ← v.entries?
  let enabled ← Toml.optional entries "enabled" none fun v => v.bool?.map some
  let severity ← Toml.optional entries "severity" none fun v =>
    (v.wordOf Severity.ofWord?).map some
  let options ← Toml.unpackEntries? true
    (entries.filter fun e => e.1 != "enabled" && e.1 != "severity")
  return ⟨enabled, severity, options⟩

end RuleConfig

/-! ### Ignored findings -/

namespace IgnoreEntry

/-- Whether an entry drops findings with a given identifier in a given file. -/
def drops (e : IgnoreEntry) (identifier : String) (file : Path) : Bool :=
  e.identifier == identifier &&
    match e.path with
    | none => true
    | some pattern => Glob.isMatch pattern file.text

/-- Whether an entry drops a finding. -/
def isMatch (e : IgnoreEntry) (f : Finding) : Bool :=
  e.drops f.identifier f.file

/-- Read an entry. -/
def ofToml? (v : Toml) : Option IgnoreEntry := do
  let fields ← v.record? ["identifier", "path", "reason"]
  let identifier ← Toml.required fields "identifier" Toml.string?
  let path ← Toml.optional fields "path" none fun v => v.string?.map some
  let reason ← Toml.optional fields "reason" none fun v => v.string?.map some
  return ⟨identifier, path, reason⟩

/-- The fault of an entry's pattern, if it has a pattern that does not compile. -/
def fault? (e : IgnoreEntry) : Option ConfigError :=
  match e.path with
  | none => none
  | some pattern =>
      match Glob.compile pattern with
      | .ok _ => none
      | .error fault => some (.badGlob pattern fault)

end IgnoreEntry

/-! ### Where model documents are -/

namespace AnalyzerConfig

/-- The current directory. -/
def defaultRoot : Path := ⟨"."⟩

/-- Files that end in `.model.json`. -/
def defaultIncludes : List String := ["**/*.model.json"]

/-- Directories of installed packages. -/
def defaultExcludes : List String := ["**/vendor/**", "**/node_modules/**"]

/-- The settings of a configuration that has none. -/
def default : AnalyzerConfig := ⟨defaultRoot, defaultExcludes, defaultIncludes, none⟩

/-- Read the settings.  Settings that are there and do not mention exclusions exclude nothing. -/
def ofToml? (v : Toml) : Option AnalyzerConfig := do
  let fields ← v.record? ["root", "exclude", "include", "parallelism"]
  let root ← Toml.optional fields "root" defaultRoot fun v => v.string?.map Path.mk
  let excludes ← Toml.optional fields "exclude" [] (Toml.listOf Toml.string?)
  let includes ← Toml.optional fields "include" defaultIncludes (Toml.listOf Toml.string?)
  let parallelism ← Toml.optional fields "parallelism" none fun v => v.nat?.map some
  return ⟨root, excludes, includes, parallelism⟩

end AnalyzerConfig

namespace Config

/-- The configuration that applies where none is found. -/
def default : Config := ⟨none, none, .default, [], []⟩

/-- Read what is said about the rules, by their names. -/
def rulesOfToml? : Toml → Option (List (String × RuleConfig))
  | .table entries => entries.mapM fun (name, v) => (RuleConfig.ofToml? v).map (name, ·)
  | _ => none

/-- Read a configuration from the entries of a document. -/
def ofEntries? (entries : List (String × Toml)) : Option Config := do
  let preset ← Toml.optional entries "preset" none fun v => v.string?.map some
  let failOn ← Toml.optional entries "fail_on" none fun v => v.string?.map some
  let analyzer ← Toml.optional entries "analyzer" .default AnalyzerConfig.ofToml?
  let rules ← Toml.optional entries "rules" [] rulesOfToml?
  let ignore ← Toml.optional entries "ignore" [] (Toml.listOf IgnoreEntry.ofToml?)
  return ⟨preset, failOn, analyzer, rules, ignore⟩

/-- The configuration that a TOML text spells. -/
def parse (text : String) : Except ConfigError Config :=
  match (Toml.parse text).bind ofEntries? with
  | none => .error .malformed
  | some config =>
      match config.ignore.findSome? IgnoreEntry.fault? with
      | some e => .error e
      | none => .ok config

/-- The configuration in the file that a path leads to. -/
def load (tree : FileTree) (current : Place) (path : Path) : Except ConfigError Config :=
  match tree.read current path with
  | .ok text => parse text
  | .error reason => .error (.unreadable path reason)

/-- What is said about a rule. -/
def rule? (c : Config) (name : String) : Option RuleConfig :=
  c.rules.lookup name

/-- Whether a rule is to be applied; it is unless that is denied. -/
def isRuleEnabled (c : Config) (name : String) : Bool :=
  ((c.rule? name).bind RuleConfig.enabled).getD true

/-- The severity that the findings of a rule are given. -/
def ruleSeverity? (c : Config) (name : String) : Option Severity :=
  (c.rule? name).bind RuleConfig.severity

/-- The first entry that drops a finding. -/
def ignoredBy? (c : Config) (f : Finding) : Option IgnoreEntry :=
  c.ignore.find? fun e => e.isMatch f

end Config

end EntityConventions
