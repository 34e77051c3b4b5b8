import EntityConventions.FileTree
import EntityConventions.Glob.Match

/-! # Walking a file tree along a pattern

`Glob.walk` lists the paths of a file tree that match a pattern part by part: each part matches
one name, so that no wildcard but `**` passes a slash.  A part without wildcards is followed as
it stands, whatever it leads to.  `**` stands for any number of directories, hidden ones too, and
at the end of a pattern for directories only.  A slash at the end asks for a directory.

Paths grow on the way.  One that has become too long leads nowhere, except that an entry of a
directory is known to be a directory without being asked for; to list it then is an error. -/

namespace EntityConventions.Glob

/-- One part of a pattern. -/
inductive Part where
  | literal (name : List Char)
  | wild (tokens : List Token)
  | anyDepth
  deriving DecidableEq, Repr

namespace Part

/-- The text of tokens that are all characters. -/
def plain? : List Token → Option (List Char)
  | [] => some []
  | .char c :: ts => (plain? ts).map (c :: ·)
  | _ :: _ => none

/-- The part with given tokens. -/
def ofTokens (ts : List Token) : Part :=
  match plain? ts with
  | some name => .literal name
  | none => if ts.contains .anyParts then .anyDepth else .wild ts

/-- Whether a part matches one name. -/
def fits : Part → String → Bool
  | .literal name, s => name == s.toList
  | .wild ts, s => matchesAll ts s.toList
  | .anyDepth, _ => true

end Part

/-- The parts of an absolute pattern behind its first slash; a slash at the end adds none. -/
def partTexts (pattern : String) : List (List Char) :=
  let texts := (pattern.toList.drop 1).splitOn '/'
  if texts.getLast? = some [] then texts.dropLast else texts

/-- Compile an absolute pattern: as a whole, and then part by part. -/
def compileParts (pattern : String) : Except Fault (List Part) := do
  let _ ← compile pattern
  (partTexts pattern).mapM fun text => return Part.ofTokens (← compile (String.ofList text))

/-- Drop the parts of any depth in front. -/
def dropAnyDepth : List Part → List Part
  | .anyDepth :: parts => dropAnyDepth parts
  | parts => parts

/-- Why a walk fails: the pattern is faulty, or a directory cannot be listed. -/
inductive WalkError where
  | pattern (fault : Fault)
  | listing (reason : FileError)
  deriving DecidableEq, Repr

/-- A path as it is spelled, the place it leads to, and whether it is known for a directory. -/
structure Found where
  path : Path
  place : Place
  isDirectory : Bool

/-- Go on to a name in the directory of a path. -/
def Found.child (tree : FileTree) (f : Found) (name : String) : Found :=
  ⟨f.path.join ⟨name⟩, f.place ++ [name], tree.isDirectoryAt (f.place ++ [name])⟩

/-- The entries of a directory; a file has none. -/
def Found.entries (tree : FileTree) (f : Found) : Except FileError (List Found) :=
  if !f.isDirectory then .ok []
  else if FileTree.admits f.path then .ok ((tree.children f.place).map (f.child tree))
  else .error .nameTooLong

/-- Whether a part is one of the two that stand for a directory in each directory. -/
def isDots (part : List Char) : Bool :=
  part == ['.'] || part == ['.', '.']

/-- Follow a part as it stands.  The two dotted ones are in every directory and need not be asked
for. -/
def Found.follow? (tree : FileTree) (f : Found) (part : List Char) : Option Found :=
  let path := f.path.join ⟨String.ofList part⟩
  if (if isDots part then f.isDirectory else FileTree.admits path) then
    match tree.step f.place part with
    | .ok place => some ⟨path, place, tree.isDirectoryAt place && FileTree.admits path⟩
    | .error _ => none
  else none

/-- What `next` makes of an entry and of all that is below it, the entry first.  `height` bounds
the depth of the tree. -/
def descend (tree : FileTree) (next : Found → Except FileError (List Found)) :
    Nat → Found → Except FileError (List Found)
  | 0, f => next f
  | height + 1, f => do
      let here ← next f
      let below ← (← f.entries tree).mapM (descend tree next height)
      return here ++ below.flatten

/-- The paths that match the parts ahead, starting from a path that has matched so far. -/
def walkParts (tree : FileTree) (height : Nat) :
    List Part → Found → Except FileError (List Found)
  | [], f => .ok [f]
  | .literal name :: parts, f =>
      match f.follow? tree name with
      | some g => walkParts tree height parts g
      | none => .ok []
  | .wild ts :: parts, f => do
      let entries ← f.entries tree
      let dots := [['.', '.'], ['.']].filter fun dot =>
        ts.head? = some (.char '.') && matchesAll ts dot
      let reached := dots.filterMap (f.follow? tree) ++
        entries.filter fun g => matchesAll ts (g.place.getLast?.getD "").toList
      let found ← reached.mapM fun g => walkParts tree height parts g
      return found.flatten
  | .anyDepth :: parts, f => do
      let name := fun (g : Found) => g.place.getLast?.getD ""
      let below ← (← f.entries tree).mapM
        (descend tree (fun g => belowAnyDepth parts g (name g)) height)
      return below.flatten
where
  /-- What an entry below `**` contributes: itself where the pattern ends and it is a directory,
  and otherwise what the next part makes of it. -/
  belowAnyDepth : List Part → Found → String → Except FileError (List Found)
    | [], g, _ => .ok (if g.isDirectory then [g] else [])
    | .anyDepth :: parts, g, name => belowAnyDepth parts g name
    | part :: parts, g, name =>
        if part.fits name then walkParts tree height parts g else .ok []

/-- The paths of a tree that match an absolute pattern. -/
def walk (tree : FileTree) (pattern : String) : Except WalkError (List Path) := do
  let parts ← (compileParts pattern).mapError WalkError.pattern
  let height := tree.nodes.length
  let found ← (walkParts tree height parts ⟨⟨"/"⟩, [], true⟩).mapError WalkError.listing
  let found :=
    if pattern.toList.getLast? = some '/' then found.filter Found.isDirectory else found
  return found.map Found.path

end EntityConventions.Glob
