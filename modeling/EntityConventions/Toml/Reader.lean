import EntityConventions.Toml.Document
import EntityConventions.Toml.Scanner

/-! # Reading TOML texts

`Toml.parse` reads a whole text as a table.  A text is a sequence of lines, each an entry, a
header or nothing, with a comment at its end or not; a byte order mark may stand in front.
Values contain values, so `Reader.value` takes a bound on the number of nested calls, and
`Toml.parse` supplies one that no text of that length can exceed; arrays and inline tables also
nest less than `Scanner.limit` deep. -/

namespace EntityConventions.Toml

namespace Reader

open Scanner

/-- A value that is no array and no table. -/
def scalar : List Char → Option (Toml × List Char)
  | 't' :: 'r' :: 'u' :: 'e' :: rest => some (.bool true, rest)
  | 'f' :: 'a' :: 'l' :: 's' :: 'e' :: rest => some (.bool false, rest)
  | '"' :: rest => (Scanner.string ('"' :: rest)).map fun (t, rest) => (.string t, rest)
  | '\x27' :: rest => (Scanner.string ('\x27' :: rest)).map fun (t, rest) => (.string t, rest)
  | cs =>
      match Scanner.datetime cs with
      | some (d, rest) => some (.datetime d, rest)
      | none =>
          match (finiteFloat cs).or (specialFloat cs) with
          | some (f, rest) => some (.float f, rest)
          | none => (Scanner.integer cs).map fun (i, rest) => (.integer i, rest)

mutual

/-- A value, `depth` arrays and tables deep. -/
def value : Nat → Nat → List Char → Option (Toml × List Char)
  | 0, _, _ => none
  | fuel + 1, depth, '[' :: rest => do
      if depth + 1 < limit then
        let (items, rest) ← items fuel (depth + 1) rest
        return (.array items, rest)
      else none
  | fuel + 1, depth, '\x7b' :: rest => do
      if depth + 1 < limit then
        match skipSpace rest with
        | '\x7d' :: rest => return (.table [], rest)
        | rest =>
            let (pairs, rest) ← pairs fuel (depth + 1) rest
            let table ← Document.inlineTable pairs
            return (table, rest)
      else none
  | _ + 1, _, cs => scalar cs

/-- The items of an array up to its closing bracket; a comma may stand before it. -/
def items : Nat → Nat → List Char → Option (List Toml × List Char)
  | 0, _, _ => none
  | fuel + 1, depth, cs =>
      match skipTrivia false cs with
      | ']' :: rest => some ([], rest)
      | cs => do
          let (item, rest) ← value fuel depth cs
          match skipTrivia false rest with
          | ',' :: rest =>
              let (more, rest) ← items fuel depth rest
              return (item :: more, rest)
          | ']' :: rest => return ([item], rest)
          | _ => none

/-- The entries of a table on one line up to its closing brace, at least one. -/
def pairs : Nat → Nat → List Char → Option (List (List String × Toml) × List Char)
  | 0, _, _ => none
  | fuel + 1, depth, cs => do
      let (k, rest) ← key cs
      let rest ← expect '=' rest
      let (v, rest) ← value fuel depth (skipSpace rest)
      match skipSpace rest with
      | ',' :: rest =>
          let (more, rest) ← pairs fuel depth rest
          return ((k, v) :: more, rest)
      | '\x7d' :: rest => return ([(k, v)], rest)
      | _ => none

end

/-- A line of a document that says something. -/
inductive Line where
  | entry (key : List String) (value : Toml)
  | header (repeated : Bool) (path : List String)

/-- A header, read behind its opening bracket. -/
def header : List Char → Option (Line × List Char)
  | '[' :: rest => do
      let (path, rest) ← key rest
      let rest ← expect ']' rest
      let rest ← expect ']' rest
      return (.header true path, rest)
  | rest => do
      let (path, rest) ← key rest
      let rest ← expect ']' rest
      return (.header false path, rest)

/-- An entry. -/
def entry (cs : List Char) : Option (Line × List Char) := do
  let (k, rest) ← key cs
  let rest ← expect '=' rest
  let (v, rest) ← value (2 * rest.length + 2) 0 (skipSpace rest)
  return (.entry k v, rest)

/-- The lines of a document that say something. -/
def lines : Nat → List Char → Option (List Line)
  | 0, _ => none
  | fuel + 1, cs =>
      match skipSpace cs with
      | [] => some []
      | '#' :: rest => do
          let rest ← endOfLine ('#' :: rest)
          lines fuel rest
      | '\n' :: rest => lines fuel rest
      | '\r' :: '\n' :: rest => lines fuel rest
      | '[' :: rest => do
          let (line, rest) ← header rest
          let rest ← endOfLine rest
          let more ← lines fuel rest
          return line :: more
      | cs => do
          let (line, rest) ← entry cs
          let rest ← endOfLine rest
          let more ← lines fuel rest
          return line :: more

/-- The entries before the first header, and each header with the entries below it. -/
def blocks : List Line → List (List String × Toml) × List Document.Block
  | [] => ([], [])
  | .entry k v :: rest =>
      let (pairs, more) := blocks rest
      ((k, v) :: pairs, more)
  | .header repeated path :: rest =>
      let (pairs, more) := blocks rest
      ([], ⟨repeated, path, pairs⟩ :: more)

end Reader

/-- The table that a whole text spells, if it spells one. -/
def parse (text : String) : Option (List (String × Toml)) := do
  let cs :=
    match text.toList with
    | '\ufeff' :: cs => cs
    | cs => cs
  let lines ← Reader.lines (cs.length + 1) cs
  let (pairs, blocks) := Reader.blocks lines
  Document.assemble pairs blocks

end EntityConventions.Toml
