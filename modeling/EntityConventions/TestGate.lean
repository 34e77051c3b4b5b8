import EntityConventions.Environment

/-! # Checking a project as a test

`TestGate.run` passes if no finding reaches a threshold, and otherwise fails with a report.  The
project is the nearest directory at or above the manifest whose `Cargo.toml` has a workspace
table.  Preset, threshold and configuration may be given by name; what is not given is taken from
the configuration. -/

namespace EntityConventions.TestGate

/-- What may be given to a test. -/
structure Options where
  preset : Option String
  config : Option String
  failOn : Option String
  deriving DecidableEq, Repr

/-- Why a test fails. -/
inductive Failure where
  | unknownArgument (name : String)
  | config (path : Path) (e : ConfigError)
  | unknownPreset (name : String)
  | unknownSeverity (name : String)
  | check (e : CheckError)
  | findings (report : Report) (threshold : Severity)

/-- The words for a failure. -/
def Failure.message : Failure → String
  | .unknownArgument name =>
      "entity-lint: unknown check!() argument `" ++ name ++
        "`. Valid arguments: preset, config, fail_on"
  | .config path e =>
      "entity-lint: failed to load config from " ++ path.text ++ ": " ++ e.message
  | .unknownPreset name =>
      "entity-lint: unknown preset `" ++ name ++ "`. Valid presets: recommended, strict, minimal"
  | .unknownSeverity name =>
      "entity-lint: unknown severity `" ++ name ++ "`. Valid values: error, warning, info"
  | .check e => "entity-lint: analysis failed: " ++ e.message
  | .findings report threshold => report.failureText threshold

namespace Options

/-- Nothing is given. -/
def empty : Options := ⟨none, none, none⟩

/-- Give one more thing; the last one of a name counts. -/
def set (o : Options) (name value : String) : Except Failure Options :=
  match name with
  | "preset" => .ok { o with preset := some value }
  | "config" => .ok { o with config := some value }
  | "fail_on" => .ok { o with failOn := some value }
  | _ => .error (.unknownArgument name)

/-- Give some things, one after the other. -/
def ofPairs (pairs : List (String × String)) : Except Failure Options :=
  pairs.foldlM (fun o p => o.set p.1 p.2) empty

end Options

/-- Whether a file is a manifest with a workspace table. -/
def hasWorkspace (p : Project) (path : Path) : Bool :=
  match p.tree.read p.current path with
  | .error _ => false
  | .ok text =>
      match (Toml.parse text).bind (Toml.unpackEntries? false) with
      | none => false
      | some entries => (entries.lookup "workspace").isSome

/-- The directory of the project. -/
def projectRoot (env : Environment) : Path :=
  match env.manifestDirectory with
  | none => FileTree.pathOf env.current
  | some manifest =>
      (manifest.ancestors.find? fun directory =>
        hasWorkspace env.project (directory.join ⟨"Cargo.toml"⟩)).getD manifest

/-- The configuration: the one that is given, or else one of the usual files in the project. -/
def loadConfig (env : Environment) (root : Path) (given : Option String) :
    Except Failure Config :=
  let path :=
    match given with
    | some path => some (root.join ⟨path⟩)
    | none => ConfigSource.fileIn? env.project root
  match path with
  | none => .ok .default
  | some path =>
      match Config.load env.tree env.current path with
      | .ok config => .ok config
      | .error e => .error (.config path e)

/-- The preset: the one that is given, or else the configured one, or else the usual one. -/
def choosePreset (given configured : Option String) : Except Failure Preset :=
  let name := (given.or configured).getD "recommended"
  match Preset.ofWord? name with
  | some preset => .ok preset
  | none => .error (.unknownPreset name)

/-- The threshold: the one that is given, or else the configured one, or else errors. -/
def chooseThreshold (given configured : Option String) : Except Failure Severity :=
  let name := (given.or configured).getD "error"
  match Severity.ofWord? name with
  | some severity => .ok severity
  | none => .error (.unknownSeverity name)

/-- Check the project of an environment; pass, or fail with the reason. -/
def run (env : Environment) (o : Options) : Except Failure Unit := do
  let root := projectRoot env
  let config ← loadConfig env root o.config
  let preset ← choosePreset o.preset config.preset
  let threshold ← chooseThreshold o.failOn config.failOn
  let survey := Survey.plan env.current (some (root.join config.analyzer.root)) [] []
    preset.rules config Classifier.conventions false
  match env.project.check survey with
  | .error e => .error (.check e)
  | .ok report =>
      if report.hasFindingsAt threshold then .error (.findings report threshold) else .ok ()

end EntityConventions.TestGate
