import EntityConventions.Toml.Basic

/-! # Assembling TOML documents

A document is a sequence of entries and headers.  An entry puts a value under a key of the table
that is open; a header opens another table, or a further element of an array of tables.  A key
with several parts passes through tables and makes those that are missing.

Which tables may be extended depends on what made them, their `Origin`: a header opens a table
only once, and the parts of a key never reach into a table that a header has opened.  Entries
stand in the order of their keys' first appearance, but a table that other headers have implied
moves to the end when its own header comes.  `Document.assemble` follows these rules and fails on
a key that is given twice. -/

namespace EntityConventions.Toml

/-- What made a table: a header of its own, a header of some table inside it, or a part of a
key. -/
inductive Origin where
  | header
  | implied
  | dotted
  deriving DecidableEq, Repr

/-- A part of a document under assembly. -/
inductive Node where
  | value (v : Toml)
  | table (origin : Origin) (entries : List (String × Node))
  | tables (elements : List (List (String × Node)))

mutual

/-- The value of a finished part. -/
def Node.toToml : Node → Toml
  | .value v => v
  | .table _ entries => .table (entriesToToml entries)
  | .tables elements => .array (elementsToToml elements)

/-- The values of finished entries. -/
def entriesToToml : List (String × Node) → List (String × Toml)
  | [] => []
  | (key, node) :: rest => (key, node.toToml) :: entriesToToml rest

/-- The values of the elements of a finished array of tables. -/
def elementsToToml : List (List (String × Node)) → List Toml
  | [] => []
  | entries :: rest => .table (entriesToToml entries) :: elementsToToml rest

end

namespace Document

/-- The entries of a table under assembly. -/
abbrev Entries := List (String × Node)

/-- Replace what stands under a key. -/
def replace (key : String) (node : Node) (entries : Entries) : Entries :=
  entries.map fun e => if e.1 = key then (key, node) else e

/-- Change the last element of a list that has one. -/
def updateLast {α : Type} (f : α → Option α) : List α → Option (List α)
  | [] => none
  | [a] => (f a).map ([·])
  | a :: b :: rest => (updateLast f (b :: rest)).map (a :: ·)

/-- Put a value under a key with several parts.  Tables on the way must not have been opened by
a header, and the last of them must be one that a key has made. -/
def addEntry (v : Toml) (last : String) : List String → Entries → Option Entries
  | [], entries =>
      if (entries.lookup last).isSome then none else some (entries ++ [(last, .value v)])
  | part :: parts, entries =>
      match entries.lookup part with
      | none => do
          let inner ← addEntry v last parts []
          return entries ++ [(part, .table .dotted inner)]
      | some (.value _) => none
      | some (.table origin inner) => do
          if origin = .header ∨ (parts = [] ∧ origin ≠ .dotted) then none
          else
            let inner ← addEntry v last parts inner
            return replace part (.table origin inner) entries
      | some (.tables elements) => do
          if parts = [] then none
          else
            let elements ← updateLast (addEntry v last parts) elements
            return replace part (.tables elements) entries

/-- Put what a header has opened under its key: a new element leaves its array where it is, and a
table comes last. -/
def putOpened (key : String) (node : Node) (entries : Entries) : Entries :=
  match node with
  | .tables _ => replace key node entries
  | _ => entries.filter (·.1 != key) ++ [(key, node)]

/-- Change what stands under the path of a header, making the tables on the way. -/
def atHeader (change : Option Node → Option Node) (last : String) :
    List String → Entries → Option Entries
  | [], entries =>
      match entries.lookup last with
      | none => (change none).map fun node => entries ++ [(last, node)]
      | some old => (change (some old)).map fun node => putOpened last node entries
  | part :: parts, entries =>
      match entries.lookup part with
      | none => do
          let inner ← atHeader change last parts []
          return entries ++ [(part, .table .implied inner)]
      | some (.value _) => none
      | some (.table origin inner) => do
          let inner ← atHeader change last parts inner
          return replace part (.table origin inner) entries
      | some (.tables elements) => do
          let elements ← updateLast (atHeader change last parts) elements
          return replace part (.tables elements) entries

/-- The parts of a key before its last one, and the last one. -/
def splitLast : List String → Option (List String × String)
  | [] => none
  | [k] => some ([], k)
  | k :: l :: rest => (splitLast (l :: rest)).map fun (front, last) => (k :: front, last)

/-- Put values under keys, one after the other. -/
def addEntries (pairs : List (List String × Toml)) (entries : Entries) : Option Entries :=
  pairs.foldlM (fun entries (key, v) => do
    let (front, last) ← splitLast key
    addEntry v last front entries) entries

/-- A header and the entries below it. -/
structure Block where
  repeated : Bool
  path : List String
  pairs : List (List String × Toml)

/-- Open the table of a header and fill it: one that only other headers have implied, or a new
one, or a further element of an array of tables. -/
def addBlock (entries : Entries) (block : Block) : Option Entries := do
  let (front, last) ← splitLast block.path
  atHeader (fun old => do
    match block.repeated, old with
    | false, none => return .table .header (← addEntries block.pairs [])
    | false, some (.table .implied inner) =>
        return .table .header (← addEntries block.pairs inner)
    | true, none => return .tables [← addEntries block.pairs []]
    | true, some (.tables elements) =>
        return .tables (elements ++ [← addEntries block.pairs []])
    | _, _ => none) last front entries

/-- The value of a whole document: the entries before the first header, and the blocks. -/
def assemble (pairs : List (List String × Toml)) (blocks : List Block) :
    Option (List (String × Toml)) := do
  let entries ← addEntries pairs []
  let entries ← blocks.foldlM addBlock entries
  return entriesToToml entries

/-- The value of a table on one line. -/
def inlineTable (pairs : List (List String × Toml)) : Option Toml := do
  let entries ← addEntries pairs []
  return .table (entriesToToml entries)

end Document

end EntityConventions.Toml
