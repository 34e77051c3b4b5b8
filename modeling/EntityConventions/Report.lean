import EntityConventions.Finding
import EntityConventions.Json.Printer
import EntityConventions.Json.Reader

/-! # Reports

A `Report` is the outcome of a check: its findings and how much was checked.  `Report.sorted`
puts the findings in order, equal ones as they were.  A report is rendered in one of three
formats: as text for people, as JSON, or one line for each finding; `Report.failureText` is the
message of a failing test. -/

namespace EntityConventions

open Decimal

/-- The outcome of a check. -/
structure Report where
  findings : List Finding
  classesChecked : Nat
  filesChecked : Nat
  deriving DecidableEq, Repr

namespace Report

/-- Nothing was checked. -/
def empty : Report := ⟨[], 0, 0⟩

/-- Whether some finding is an error. -/
def hasErrors (r : Report) : Bool :=
  r.findings.any fun f => f.severity == .error

/-- Whether some finding reaches a severity. -/
def hasFindingsAt (r : Report) (threshold : Severity) : Bool :=
  r.findings.any fun f => f.severity.reaches threshold

/-- The findings with a given identifier. -/
def byIdentifier (r : Report) (identifier : String) : List Finding :=
  r.findings.filter fun f => f.identifier == identifier

/-- The number of findings of a severity. -/
def count (r : Report) (s : Severity) : Nat :=
  r.findings.countP fun f => f.severity == s

/-- The report with its findings in order; the sort is stable. -/
def sorted (r : Report) : Report :=
  { r with findings := r.findings.mergeSort Finding.precedes }

/-! ### Plain texts -/

/-- The numbers of findings by severity, the most severe first. -/
def tally (r : Report) : String :=
  Digits.natText (r.count .error) ++ " error(s), " ++ Digits.natText (r.count .warning) ++
    " warning(s), " ++ Digits.natText (r.count .info) ++ " info(s) in " ++
    Digits.natText r.classesChecked ++ " class(es)"

/-- The findings that reach a threshold, and the totals. -/
def failureText (r : Report) (threshold : Severity) : String :=
  let failing := r.findings.filter fun f => f.severity.reaches threshold
  "\n=== entity-lint: " ++ Digits.natText failing.length ++ " finding(s) ===\n\n" ++
    String.join (failing.map fun f => f.block ++ "\n") ++
    "Total: " ++ r.tally ++ "\n"

/-! ### As JSON values -/

/-- Write a report. -/
def toJson (r : Report) : Json :=
  .ofMembers [("findings", .ofList Finding.toJson r.findings),
    ("classes_checked", .ofNat r.classesChecked), ("files_checked", .ofNat r.filesChecked)]

/-- Read a report. -/
def ofJson? (room : Nat) (j : Json) : Option Report := do
  let room ← Json.enter room
  let record ← Json.Record.ofJson ["findings", "classes_checked", "files_checked"] j
  let findings ← record.required "findings" (Json.listOf Finding.ofJson? room)
  let classesChecked ← record.required "classes_checked" Json.nat64?
  let filesChecked ← record.required "files_checked" Json.nat64?
  return ⟨findings, classesChecked, filesChecked⟩

/-- The report that a JSON text spells. -/
def parse (text : String) : Option Report :=
  (Json.parse text).bind (ofJson? Json.maxDepth)

/-! ### Formats -/

/-- The formats of a rendered report. -/
inductive Format where
  | text
  | json
  | compact
  deriving DecidableEq, Repr

/-- The format that a word names. -/
def Format.ofWord? : String → Option Format
  | "text" => some .text
  | "json" => some .json
  | "compact" => some .compact
  | _ => none

/-- The last line of the text format. -/
def summary (r : Report) : String :=
  "Found " ++ r.tally ++ " from " ++ Digits.natText r.filesChecked ++ " model file(s)"

/-- The control sequence that colours the summary: red with errors, yellow with warnings, green
otherwise. -/
def summaryColour (r : Report) : String :=
  if 0 < r.count .error then "\x1b[31m"
  else if 0 < r.count .warning then "\x1b[33m"
  else "\x1b[32m"

/-- The summary, coloured if wanted. -/
def summaryLine (r : Report) (colour : Bool) : String :=
  if colour then r.summaryColour ++ r.summary ++ "\x1b[0m" else r.summary

/-- The symbol in front of a diagnostic. -/
def symbol : Severity → String
  | .error => "×"
  | .warning => "⚠"
  | .info => "☞"

/-- A diagnostic in the text format: its code, its text and its help. -/
def diagnosticText (d : Finding.Diagnostic) : String :=
  d.code ++ "\n\n  " ++ symbol d.severity ++ " " ++ d.text ++ "\n" ++
    match d.help with
    | some help => "  help: " ++ help ++ "\n"
    | none => ""

/-- A report for people: each finding as a diagnostic, and the summary. -/
def asText (r : Report) (colour : Bool) : String :=
  String.join (r.findings.map fun f => diagnosticText f.diagnostic ++ "\n") ++
    r.summaryLine colour ++ "\n"

/-- A report with one line for each finding. -/
def asCompact (r : Report) : String :=
  String.join (r.findings.map fun f => f.oneLine ++ "\n")

/-- A report in one of the formats. -/
def render (r : Report) (format : Format) (colour : Bool) : String :=
  match format with
  | .text => r.asText colour
  | .json => r.toJson.pretty ++ "\n"
  | .compact => r.asCompact

end Report

end EntityConventions
