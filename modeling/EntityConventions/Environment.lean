import EntityConventions.Project

/-! # The surroundings of a run

An `Environment` is the project together with the directories that are known from outside it.
`ConfigSource.resolve` says where the configuration for some models comes from: from a path that
is given, from the nearest directory at or above the models that has a configuration file, from
the user's own directory, or from nowhere. -/

namespace EntityConventions

/-- A project, and directories known from outside it. -/
structure Environment where
  project : Project
  configDirectory : Option Path
  home : Option Path
  manifestDirectory : Option Path

namespace Environment

/-- The files of an environment. -/
def tree (env : Environment) : FileTree := env.project.tree

/-- The current directory. -/
def current (env : Environment) : Place := env.project.current

/-- The directory of the user's own configuration. -/
def globalDirectory? (env : Environment) : Option Path :=
  env.configDirectory.or (env.home.map fun home => home.join ⟨".entity-lint"⟩)

end Environment

/-- Where a configuration comes from. -/
inductive ConfigSource where
  | explicit (path : Path)
  | project (path : Path)
  | global (path : Path)
  | defaults
  deriving DecidableEq, Repr

namespace ConfigSource

/-- The file of a configuration that has one. -/
def path? : ConfigSource → Option Path
  | .explicit p => some p
  | .project p => some p
  | .global p => some p
  | .defaults => none

/-- Whether a configuration is the user's own. -/
def isGlobal : ConfigSource → Bool
  | .global _ => true
  | _ => false

/-- The names of configuration files, the preferred one first. -/
def fileNames : List String := ["entity-lint.toml", ".entity-lint.toml"]

/-- The name of the user's own configuration file. -/
def globalFileName : String := "config.toml"

/-- The configuration file in a directory. -/
def fileIn? (p : Project) (directory : Path) : Option Path :=
  (fileNames.map fun name => directory.join ⟨name⟩).find? (p.tree.isFile p.current)

/-- The nearest configuration file at or above a directory. -/
def nearest? (p : Project) (start : Path) : Option Path :=
  let start : Path := if start.text = "" then ⟨"."⟩ else start
  let absolute := (p.tree.canonical? p.current start).getD start
  absolute.ancestors.findSome? (fileIn? p)

/-- Where the configuration for the models in a directory comes from. -/
def resolve (p : Project) (modelDirectory : Path) (explicit : Option Path)
    (globalDirectory : Option Path) : ConfigSource :=
  match explicit with
  | some path => .explicit path
  | none =>
      match nearest? p modelDirectory with
      | some path => .project path
      | none =>
          match globalDirectory with
          | none => .defaults
          | some directory =>
              let path := directory.join ⟨globalFileName⟩
              if p.tree.isFile p.current path then .global path else .defaults

end ConfigSource

end EntityConventions
