import EntityConventions.Analyzer
import EntityConventions.Glob.Walk

/-! # Checking a project

A `Project` is a file tree with a current directory.  `Project.discover` finds the model
documents below a root: the root itself if it is a file, and otherwise the files that some
include pattern matches and no exclude pattern does, each once and in the order of their paths.
`Project.check` loads and checks them; documents that cannot be loaded are passed over, or stop
the check if it is strict. -/

namespace EntityConventions

/-- Why a document cannot be loaded. -/
inductive ModelError where
  | unreadable (path : Path) (reason : FileError)
  | malformed (path : Path)

/-- The words for a failure. -/
def ModelError.message : ModelError → String
  | .unreadable path reason => "Failed to read model " ++ path.text ++ ": " ++ reason.message
  | .malformed path => "Failed to parse model " ++ path.text ++ ":"

/-- Why a project cannot be checked. -/
inductive CheckError where
  | model (e : ModelError)
  | glob (fault : Glob.Fault)
  | listing (reason : FileError)

/-- The words for a failure. -/
def CheckError.message : CheckError → String
  | .model e => e.message
  | .glob fault => "Invalid glob pattern: " ++ fault.message
  | .listing reason => "IO error: " ++ reason.message

/-- The failure of a check whose walk through the files fails. -/
def CheckError.ofWalk : Glob.WalkError → CheckError
  | .pattern fault => .glob fault
  | .listing reason => .listing reason

namespace Model

/-- The document that a text from a given file spells. -/
def parseFrom (path : Path) (text : String) : Except ModelError Model :=
  match parse text with
  | some m => .ok m
  | none => .error (.malformed path)

/-- The document in the file that a path leads to. -/
def load (tree : FileTree) (current : Place) (path : Path) : Except ModelError Model :=
  match tree.read current path with
  | .ok text => parseFrom path text
  | .error reason => .error (.unreadable path reason)

end Model

/-- A file tree and a current directory. -/
structure Project where
  tree : FileTree
  current : Place

/-- What to check, and how. -/
structure Survey where
  root : Path
  includes : List String
  excludes : List String
  rules : List Rule
  config : Config
  classifier : Classifier
  strict : Bool

namespace Survey

/-- A survey from what is asked for and what is configured.  A root that is asked for wins over
the configured one, and both are seen from the current directory; patterns that are asked for are
added to the configured exclusions and replace the configured inclusions. -/
def plan (current : Place) (root : Option Path) (includes excludes : List String)
    (rules : List Rule) (config : Config) (classifier : Classifier) (strict : Bool) : Survey where
  root := (FileTree.pathOf current).join (root.getD config.analyzer.root)
  includes :=
    if includes ≠ [] then includes
    else if config.analyzer.includes ≠ [] then config.analyzer.includes
    else AnalyzerConfig.defaultIncludes
  excludes := excludes ++ config.analyzer.excludes
  rules := rules
  config := config
  classifier := classifier
  strict := strict

/-- The analyzer of a survey. -/
def analyzer (s : Survey) : Analyzer :=
  .build s.root s.rules s.config s.classifier

/-- Whether a path is excluded: as it stands, or as seen from the root. -/
def isExcluded (s : Survey) (path : Path) : Bool :=
  let relative := (Path.stripAncestor s.root path).getD path
  s.excludes.any fun pattern =>
    Glob.isMatch pattern path.text || Glob.isMatch pattern relative.text

/-- The pattern for the files that an include pattern selects below the root. -/
def fullPattern (s : Survey) (pattern : String) : String :=
  s.root.text ++ "/" ++ pattern

end Survey

namespace Project

/-- Drop the paths that repeat the components of the one kept before them. -/
def dropRepeatsOf (kept : Path) : List Path → List Path
  | [] => []
  | p :: rest => if kept.sameAs p then dropRepeatsOf kept rest else p :: dropRepeatsOf p rest

/-- Keep the first of neighbouring paths with the same components. -/
def dropRepeats : List Path → List Path
  | [] => []
  | p :: rest => p :: dropRepeatsOf p rest

/-- Paths in order, each once. -/
def arrange (paths : List Path) : List Path :=
  dropRepeats (paths.mergeSort fun p q => (p.order q).isLE)

/-- The model documents of a survey. -/
def discover (p : Project) (s : Survey) : Except Glob.WalkError (List Path) :=
  if p.tree.isFile p.current s.root then .ok [s.root]
  else do
    let found ← s.includes.mapM fun pattern => Glob.walk p.tree (s.fullPattern pattern)
    return arrange (found.flatten.filter fun path => !s.isExcluded path)

/-- The documents at some paths; what cannot be loaded is passed over, or is an error if the
survey is strict. -/
def loadAll (p : Project) (strict : Bool) : List Path → Except ModelError (List Model)
  | [] => .ok []
  | path :: rest =>
      match Model.load p.tree p.current path with
      | .ok m => do
          let more ← loadAll p strict rest
          return m :: more
      | .error e => if strict then .error e else loadAll p strict rest

/-- Check the documents of a survey. -/
def check (p : Project) (s : Survey) : Except CheckError Report :=
  match p.discover s with
  | .error e => .error (.ofWalk e)
  | .ok paths =>
      match p.loadAll s.strict paths with
      | .error e => .error (.model e)
      | .ok models => .ok (s.analyzer.checkModels models)

end Project

end EntityConventions
