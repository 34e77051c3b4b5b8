import EntityConventions.Path

/-! # File trees

A `FileTree` is a snapshot of a file system: the absolute places of its files, with their
contents, and of its directories.  `FileTree.resolve` follows a path from the current directory
to a place, part by part as an operating system does: every part but the last must be a
directory, and so must the last one if a slash or a `.` follows.  A path holds no NUL, and a name
in it is no longer than `nameLimit`; whatever is asked for by a path is refused if the path is not
shorter than `pathLimit`, except its canonical form.  Reading a file gives a
text, or the reason why there is none. -/

namespace EntityConventions

/-- Why a file cannot be read or written. -/
inductive FileError where
  | notFound
  | notDirectory
  | isDirectory
  | nameTooLong
  | nulInName
  | notText
  deriving DecidableEq, Repr

/-- The words for a failure. -/
def FileError.message : FileError → String
  | .notFound => "No such file or directory (os error 2)"
  | .notDirectory => "Not a directory (os error 20)"
  | .isDirectory => "Is a directory (os error 21)"
  | .nameTooLong => "File name too long (os error 36)"
  | .nulInName => "file name contained an unexpected NUL byte"
  | .notText => "stream did not contain valid UTF-8"

/-- A place, by the names on the way from the root. -/
abbrev Place := List String

/-- What is at a place: a file with its content, or a directory. -/
inductive FileNode where
  | file (content : ByteArray)
  | directory

/-- A snapshot of a file system.  The root is always a directory. -/
structure FileTree where
  nodes : List (Place × FileNode)

namespace FileTree

/-- Only the root. -/
def empty : FileTree := ⟨[]⟩

/-- What is at a place. -/
def node? (tree : FileTree) (place : Place) : Option FileNode :=
  if place = [] then some .directory else tree.nodes.lookup place

/-- Whether there is a directory at a place. -/
def isDirectoryAt (tree : FileTree) (place : Place) : Bool :=
  match tree.node? place with
  | some .directory => true
  | _ => false

/-- The name of a place in a directory, if it lies right below it. -/
def nameIn : Place → Place → Option String
  | [], [name] => some name
  | a :: directory, b :: place => if a = b then nameIn directory place else none
  | _, _ => none

/-- The names in a directory, in increasing order. -/
def children (tree : FileTree) (place : Place) : List String :=
  let names := tree.nodes.filterMap fun n => nameIn place n.1
  names.mergeSort fun a b => (compare a b).isLE

/-- Put something at a place, instead of what was there. -/
def put (tree : FileTree) (place : Place) (node : FileNode) : FileTree :=
  ⟨tree.nodes.filter (fun n => n.1 != place) ++ [(place, node)]⟩

/-- Make a directory and those above it, unless something is there already. -/
def makeDirectory (tree : FileTree) (place : Place) : FileTree :=
  (List.range (place.length + 1)).foldl (fun tree n =>
    let above := place.take n
    if (tree.node? above).isSome then tree else tree.put above .directory) tree

/-- Put a file at a place and make the directories above it. -/
def addFile (tree : FileTree) (place : Place) (content : ByteArray) : FileTree :=
  (tree.makeDirectory place.dropLast).put place (.file content)

/-! ### Resolving paths -/

/-- The greatest number of bytes in a name. -/
def nameLimit : Nat := 255

/-- Paths have fewer bytes than this. -/
def pathLimit : Nat := 4096

/-- Follow one part of a path from a place. -/
def step (tree : FileTree) (place : Place) (part : List Char) : Except FileError Place :=
  match tree.node? place with
  | none => .error .notFound
  | some (.file _) => .error .notDirectory
  | some .directory =>
      if Path.isSilent part then .ok place
      else if part = ['.', '.'] then .ok place.dropLast
      else
        let name := String.ofList part
        if nameLimit < name.utf8ByteSize then .error .nameTooLong
        else if (tree.node? (place ++ [name])).isSome then .ok (place ++ [name])
        else .error .notFound

/-- The place that a path leads to, however long it is. -/
def follow (tree : FileTree) (current : Place) (p : Path) : Except FileError Place :=
  if p.text.toList.contains '\x00' then .error .nulInName
  else if p.text.toList = [] then .error .notFound
  else p.parts.foldlM (tree.step) (if p.isAbsolute then [] else current)

/-- Whether a path is short enough to be asked for. -/
def admits (p : Path) : Bool :=
  p.text.utf8ByteSize < pathLimit

/-- The place of a path, seen from the current directory. -/
def resolve (tree : FileTree) (current : Place) (p : Path) : Except FileError Place :=
  if admits p || p.text.toList.contains '\x00' then tree.follow current p
  else .error .nameTooLong

/-- What a path leads to, or why it leads nowhere. -/
def find (tree : FileTree) (current : Place) (p : Path) : Except FileError FileNode := do
  let place ← tree.resolve current p
  match tree.node? place with
  | some node => .ok node
  | none => .error .notFound

/-- What a path leads to, if it leads anywhere. -/
def find? (tree : FileTree) (current : Place) (p : Path) : Option FileNode :=
  if admits p then (tree.follow current p).toOption.bind tree.node? else none

/-- Whether a path leads to a file. -/
def isFile (tree : FileTree) (current : Place) (p : Path) : Bool :=
  match tree.find? current p with
  | some (.file _) => true
  | _ => false

/-- Whether a path leads to a directory. -/
def isDirectory (tree : FileTree) (current : Place) (p : Path) : Bool :=
  match tree.find? current p with
  | some .directory => true
  | _ => false

/-- Whether a path leads anywhere. -/
def leadsTo (tree : FileTree) (current : Place) (p : Path) : Bool :=
  (tree.find? current p).isSome

/-- The text of the file that a path leads to. -/
def read (tree : FileTree) (current : Place) (p : Path) : Except FileError String := do
  match ← tree.find current p with
  | .directory => .error .isDirectory
  | .file content =>
      match String.fromUTF8? content with
      | some text => .ok text
      | none => .error .notText

/-- The absolute path of a place. -/
def pathOf (place : Place) : Path :=
  ⟨"/" ++ String.intercalate "/" place⟩

/-- The absolute path without `.` and `..` that a path leads to.  It is found part by part, so the
path may be of any length. -/
def canonical? (tree : FileTree) (current : Place) (p : Path) : Option Path :=
  match tree.follow current p with
  | .ok place => some (pathOf place)
  | .error _ => none

/-- Write a file whose directory exists. -/
def write (tree : FileTree) (current : Place) (directory : Path) (name : String)
    (text : String) : Except FileError FileTree := do
  match ← tree.find current directory with
  | .file _ => .error .notDirectory
  | .directory =>
      let place := (← tree.resolve current directory) ++ [name]
      match tree.node? place with
      | some .directory => .error .isDirectory
      | _ => .ok (tree.put place (.file text.toUTF8))

end FileTree

end EntityConventions
