import EntityConventions.Decimal.Digits
import EntityConventions.Json.Record
import EntityConventions.Reflection

/-! # Findings

A `Finding` is one violation of a rule: where it is, how severe it is, what it says and perhaps
how to mend it.  `Finding.oneLine` and `Finding.block` are its two plain texts;
`Finding.diagnostic` is what a graphical report shows of it. -/

namespace EntityConventions

open Decimal

/-- How severe a finding is. -/
inductive Severity where
  | info
  | warning
  | error
  deriving DecidableEq, Repr

namespace Severity

/-- The place of a severity in their order, the least severe first. -/
def rank : Severity → Nat
  | .info => 0
  | .warning => 1
  | .error => 2

/-- Whether a severity reaches a threshold. -/
def reaches (s threshold : Severity) : Bool :=
  threshold.rank ≤ s.rank

/-- The word for a severity. -/
def word : Severity → String
  | .info => "info"
  | .warning => "warning"
  | .error => "error"

/-- The severity that a word names. -/
def ofWord? : String → Option Severity
  | "error" => some .error
  | "warning" => some .warning
  | "info" => some .info
  | _ => none

/-- Write a severity. -/
def toJson (s : Severity) : Json :=
  .ofString s.word

end Severity

/-- A violation of a rule. -/
structure Finding where
  code : String
  rule : String
  identifier : String
  severity : Severity
  file : Path
  line : Nat
  message : String
  tip : Option String
  deriving DecidableEq, Repr

namespace Finding

/-- File and line, with a colon between them. -/
def place (f : Finding) : String :=
  f.file.text ++ ":" ++ Digits.natText f.line

/-- A finding on one line. -/
def oneLine (f : Finding) : String :=
  f.place ++ ": " ++ f.severity.word ++ " [" ++ f.code ++ "] " ++ f.message ++
    " (" ++ f.identifier ++ ")"

/-- A finding as a block of lines. -/
def block (f : Finding) : String :=
  f.code ++ " " ++ f.rule ++ " at " ++ f.place ++ "\n" ++
    "  " ++ f.severity.word ++ ": " ++ f.message ++ "\n" ++
    "  = id: " ++ f.identifier ++ "\n" ++
    match f.tip with
    | some tip => "  = tip: " ++ tip ++ "\n"
    | none => ""

/-! ### Diagnostics -/

/-- What a graphical report shows of a finding. -/
structure Diagnostic where
  text : String
  code : String
  help : Option String
  severity : Severity

/-- The diagnostic of a finding: its place goes in front of its message. -/
def diagnostic (f : Finding) : Diagnostic where
  text := f.place ++ ": " ++ f.message
  code := f.code ++ "::" ++ f.identifier
  help := f.tip
  severity := f.severity

/-! ### Order -/

/-- Findings are ordered by file, then by line, then by code. -/
def order (f g : Finding) : Ordering :=
  (f.file.order g.file).then ((compare f.line g.line).then (compare f.code g.code))

/-- Whether a finding may stand before another one. -/
def precedes (f g : Finding) : Bool :=
  (f.order g).isLE

/-! ### As JSON values -/

/-- Write a finding; a tip that is not there is left out. -/
def toJson (f : Finding) : Json :=
  .ofMembers ([("code", .ofString f.code), ("rule", .ofString f.rule),
    ("identifier", .ofString f.identifier), ("severity", f.severity.toJson),
    ("location", .ofMembers [("file", f.file.toJson), ("line", .ofNat f.line)]),
    ("message", .ofString f.message)] ++
    match f.tip with
    | some tip => [("tip", .ofString tip)]
    | none => [])

/-- Read the place of a finding. -/
def placeOfJson? (room : Nat) (j : Json) : Option (Path × Nat) := do
  let _ ← Json.enter room
  let record ← Json.Record.ofJson ["file", "line"] j
  let file ← record.required "file" Path.ofJson?
  let line ← record.required "line" Json.nat64?
  return (file, line)

/-- Read a finding. -/
def ofJson? (room : Nat) (j : Json) : Option Finding := do
  let room ← Json.enter room
  let record ← Json.Record.ofJson
    ["code", "rule", "identifier", "severity", "location", "message", "tip"] j
  let code ← record.required "code" Json.text?
  let rule ← record.required "rule" Json.text?
  let identifier ← record.required "identifier" Json.text?
  let severity ← record.required "severity" (Json.wordOf Severity.ofWord? room)
  let (file, line) ← record.required "location" (placeOfJson? room)
  let message ← record.required "message" Json.text?
  let tip ← record.optional "tip" none (Json.nullable Json.text?)
  return ⟨code, rule, identifier, severity, file, line, message, tip⟩

end Finding

end EntityConventions
