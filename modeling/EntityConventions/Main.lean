import EntityConventions.CommandLine.Run

/-! # The program

`main` takes a snapshot of the files that a command line can reach, lets `CommandLine.run` carry
it out, and does outside what the outcome says: it prints, writes the configuration to begin with,
and ends with the exit code.  The snapshot holds everything below the current directory and below
the models, and the configuration files above them. -/

namespace EntityConventions.Snapshot

/-- The place that a path names from the current directory, whether or not it is there. -/
def placeOf (current : Place) (p : Path) : Place :=
  p.parts.foldl (fun place part =>
    if part = [] ∨ part = ['.'] then place
    else if part = ['.', '.'] then place.dropLast
    else place ++ [String.ofList part]) (if p.isAbsolute then [] else current)

/-- The directory entry of a place. -/
def entry (place : Place) : IO.FS.DirEntry :=
  { root := (FileTree.pathOf place).text, fileName := "" }

/-- The file at a place, if there is one that can be read. -/
def fileAt (place : Place) : IO (List (Place × FileNode)) := do
  match ← (IO.FS.readBinFile (entry place).root).toBaseIO with
  | .ok content => return [(place, .file content)]
  | .error _ => return []

/-- Everything at and below a place; links to directories are not followed. -/
partial def below (place : Place) : IO (List (Place × FileNode)) := do
  match ← (entry place).root.readDir.toBaseIO with
  | .error _ => fileAt place
  | .ok children =>
      let mut nodes := [(place, FileNode.directory)]
      for child in children do
        let next := place ++ [child.fileName]
        match ← child.path.symlinkMetadata.toBaseIO with
        | .ok found =>
            match found.type with
            | .dir => nodes := nodes ++ (← below next)
            | _ => nodes := nodes ++ (← fileAt next)
        | .error _ => nodes := nodes
      return nodes

/-- The directories at and above a place. -/
def directoriesAbove (place : Place) : List Place :=
  (List.range (place.length + 1)).map fun n => place.take n

/-- The configuration files at and above a place, and the directories they are in. -/
def above (place : Place) : IO (List (Place × FileNode)) := do
  let mut nodes := []
  for directory in directoriesAbove place do
    nodes := nodes ++ [(directory, FileNode.directory)]
    for name in ConfigSource.fileNames do
      nodes := nodes ++ (← fileAt (directory ++ [name]))
  return nodes

/-- The files that an invocation can reach. -/
def take (current : Place) (global : Option Path) : Option Invocation → IO FileTree
  | none => return FileTree.empty
  | some i => do
      let models :=
        match i.command with
        | .check path .. => placeOf current path
        | _ => current ++ [CommandLine.configFileName]
      let config := i.config.toList ++
        (global.map fun directory => directory.join ⟨ConfigSource.globalFileName⟩).toList
      let mut nodes := (← below models) ++ (← above current) ++ (← above models.dropLast)
      for path in config do
        let place := placeOf current path
        nodes := nodes ++ (← fileAt place) ++
          (directoriesAbove place.dropLast).map fun directory => (directory, .directory)
      return ⟨nodes⟩

end EntityConventions.Snapshot

namespace EntityConventions

/-- Carry out a command line in the surroundings of the process. -/
def runProcess (words : List String) : IO UInt32 := do
  let current := Snapshot.placeOf [] ⟨(← IO.currentDir).toString⟩
  let configDirectory := (← IO.getEnv "ENTITY_LINT_CONFIG_DIR").map Path.mk
  let home := (← IO.getEnv "HOME").map Path.mk
  let bare : Environment := ⟨⟨.empty, current⟩, configDirectory, home, none⟩
  let invocation := (Arguments.parse words).toOption
  let tree ← Snapshot.take current bare.globalDirectory? invocation
  let outcome := CommandLine.run { bare with project := ⟨tree, current⟩ } words
  IO.print outcome.stdout
  match outcome.failure?, invocation.map Invocation.command with
  | some failure, _ => IO.eprintln ("Error: " ++ failure.message)
  | none, some (.init _) =>
      match outcome.tree.read current ⟨CommandLine.configFileName⟩ with
      | .ok text => IO.FS.writeFile CommandLine.configFileName text
      | .error e => IO.eprintln ("Error: " ++ e.message)
  | none, _ => pure ()
  return outcome.exitCode.toUInt32

end EntityConventions

/-- The entry point. -/
def main (words : List String) : IO UInt32 :=
  EntityConventions.runProcess words
