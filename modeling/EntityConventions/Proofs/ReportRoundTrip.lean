import EntityConventions.Proofs.ModelReading
import EntityConventions.Report

/-! # Writing and reading reports

A report is a record like those of a document: findings and counts, and in every finding a place
and perhaps a tip.  `Finding.SpelledBy` and `Report.SpelledBy` say which JSON values spell them.
What fits is read from each of its spellings (`Report.ofJson?_of_spelledBy`), and what is written
is one of them, in which a missing tip is left out (`Report.spelledBy_toJson`).

No report nests deeper than four arrays and objects (`Report.depth_toJson_le`), whatever its texts
hold, so there is always room for it.  The rendered text of a report is therefore read back as
the report itself (`Report.parse_render_json`). -/

namespace EntityConventions

open Json (nullableSpelling listSpelling)
open Json.Record (mandatory defaulted Spelling)

/-- All numbers in a report fit. -/
structure Report.Fits (r : Report) : Prop where
  lines : ∀ f ∈ r.findings, IsWord f.line
  classesChecked : IsWord r.classesChecked
  filesChecked : IsWord r.filesChecked

/-! ### Spellings -/

/-- The values that spell the place of a finding. -/
def Finding.PlaceSpelledBy (f : Finding) : Json → Prop :=
  Spelling anything
    [("file", mandatory (pathSpelling f.file)), ("line", mandatory (natSpelling f.line))]

/-- The values that spell a finding. -/
def Finding.SpelledBy (f : Finding) : Json → Prop :=
  Spelling anything
    [("code", mandatory (textSpelling f.code)), ("rule", mandatory (textSpelling f.rule)),
      ("identifier", mandatory (textSpelling f.identifier)),
      ("severity", mandatory (textSpelling f.severity.word)),
      ("location", mandatory f.PlaceSpelledBy), ("message", mandatory (textSpelling f.message)),
      ("tip", defaulted f.tip none (nullableSpelling textSpelling f.tip))]

/-- The values that spell a report. -/
def Report.SpelledBy (r : Report) : Json → Prop :=
  Spelling anything
    [("findings", mandatory (listSpelling Finding.SpelledBy r.findings)),
      ("classes_checked", mandatory (natSpelling r.classesChecked)),
      ("files_checked", mandatory (natSpelling r.filesChecked))]

theorem Finding.spelledBy_toJson (f : Finding) : f.SpelledBy f.toJson := by
  obtain ⟨code, rule, identifier, severity, file, line, message, tip⟩ := f
  have hplace : Spelling anything
      [("file", mandatory (pathSpelling file)), ("line", mandatory (natSpelling line))]
      (.ofMembers [("file", file.toJson), ("line", .ofNat line)]) :=
    .of_chosen (.written rfl (.written rfl .nil))
  cases tip with
  | none =>
      exact .of_chosen (.written rfl (.written rfl (.written rfl (.written rfl (.written hplace
        (.written rfl (.omitted rfl .nil)))))))
  | some tip =>
      exact .of_chosen (.written rfl (.written rfl (.written rfl (.written rfl (.written hplace
        (.written rfl (.written rfl .nil)))))))

theorem Report.spelledBy_toJson (r : Report) : r.SpelledBy r.toJson := by
  refine .of_chosen (.written ?_ (.written rfl (.written rfl .nil)))
  exact Json.listSpelling_ofList Finding.spelledBy_toJson r.findings

/-! ### What the readers take -/

theorem Finding.placeOfJson?_eq_some_iff {room : Nat} {j : Json} {place : Path × Nat} :
    placeOfJson? room j = some place ↔ ∃ room', room = room' + 1 ∧
      ∃ r, Json.Record.ofJson ["file", "line"] j = some r ∧
        r.required "file" Path.ofJson? = some place.1 ∧
        r.required "line" Json.nat64? = some place.2 := by
  constructor
  · intro h
    simp only [placeOfJson?, Option.bind_eq_bind, Option.bind_eq_some_iff,
      Json.enter_eq_some_iff] at h
    obtain ⟨room', hroom, r, hr, file, hfile, line, hline, hplace⟩ := h
    cases hplace
    exact ⟨room', hroom, r, hr, hfile, hline⟩
  · rintro ⟨room', rfl, r, hr, hfile, hline⟩
    simp [placeOfJson?, Json.enter, hr, hfile, hline]

theorem Finding.ofJson?_eq_some_iff {room : Nat} {j : Json} {f : Finding} :
    ofJson? room j = some f ↔ ∃ room', room = room' + 1 ∧
      ∃ r, Json.Record.ofJson
        ["code", "rule", "identifier", "severity", "location", "message", "tip"] j = some r ∧
        r.required "code" Json.text? = some f.code ∧
        r.required "rule" Json.text? = some f.rule ∧
        r.required "identifier" Json.text? = some f.identifier ∧
        r.required "severity" (Json.wordOf Severity.ofWord? room') = some f.severity ∧
        r.required "location" (placeOfJson? room') = some (f.file, f.line) ∧
        r.required "message" Json.text? = some f.message ∧
        r.optional "tip" none (Json.nullable Json.text?) = some f.tip := by
  obtain ⟨code, rule, identifier, severity, file, line, message, tip⟩ := f
  simp only [ofJson?, Option.bind_eq_bind, Option.bind_eq_some_iff, Json.enter_eq_some_iff,
    Option.pure_def, Option.some.injEq, Finding.mk.injEq]
  grind

theorem Report.ofJson?_eq_some_iff {room : Nat} {j : Json} {report : Report} :
    ofJson? room j = some report ↔ ∃ room', room = room' + 1 ∧
      ∃ r, Json.Record.ofJson ["findings", "classes_checked", "files_checked"] j = some r ∧
        r.required "findings" (Json.listOf Finding.ofJson? room') = some report.findings ∧
        r.required "classes_checked" Json.nat64? = some report.classesChecked ∧
        r.required "files_checked" Json.nat64? = some report.filesChecked := by
  obtain ⟨findings, classesChecked, filesChecked⟩ := report
  simp only [ofJson?, Option.bind_eq_bind, Option.bind_eq_some_iff, Json.enter_eq_some_iff,
    Option.pure_def, Option.some.injEq, Report.mk.injEq]
  grind

/-! ### Reading spellings -/

theorem Severity.wordOf_word (s : Severity) (room : Nat) :
    Json.wordOf ofWord? room (.ofString s.word) = some s := by
  cases s <;> rfl

theorem Finding.placeOfJson?_of_spelledBy {f : Finding} {j : Json} {room : Nat}
    (hline : IsWord f.line) (h : f.PlaceSpelledBy j) (hdepth : j.depth ≤ room) :
    placeOfJson? room j = some (f.file, f.line) := by
  obtain ⟨room, rfl, r, hr, hfileHeld, hlineHeld⟩ := h.read (by simp) hdepth
  refine placeOfJson?_eq_some_iff.mpr ⟨room, rfl, r, hr, ?_, ?_⟩
  · exact Json.Record.required_of hfileHeld fun j hj _ => hj ▸ rfl
  · exact Json.Record.required_of hlineHeld fun j hj _ => nat_of hj hline

theorem Finding.ofJson?_of_spelledBy {f : Finding} {j : Json} {room : Nat}
    (hline : IsWord f.line) (h : f.SpelledBy j) (hdepth : j.depth ≤ room) :
    ofJson? room j = some f := by
  obtain ⟨room, rfl, r, hr, hcode, hrule, hidentifier, hseverity, hplace, hmessage, htip⟩ :=
    h.read (by simp) hdepth
  refine ofJson?_eq_some_iff.mpr ⟨room, rfl, r, hr, ?_, ?_, ?_, ?_, ?_, ?_, ?_⟩
  · exact Json.Record.required_of hcode fun j hj _ => text_of hj
  · exact Json.Record.required_of hrule fun j hj _ => text_of hj
  · exact Json.Record.required_of hidentifier fun j hj _ => text_of hj
  · exact Json.Record.required_of hseverity fun j hj _ => hj ▸ f.severity.wordOf_word room
  · exact Json.Record.required_of hplace fun j hj hd => placeOfJson?_of_spelledBy hline hj hd
  · exact Json.Record.required_of hmessage fun j hj _ => text_of hj
  · exact Json.Record.optional_of htip fun j hj hd => nullable_text_of hj hd

theorem Report.ofJson?_of_spelledBy {report : Report} {j : Json} {room : Nat}
    (hfits : report.Fits) (h : report.SpelledBy j) (hdepth : j.depth ≤ room) :
    ofJson? room j = some report := by
  obtain ⟨room, rfl, r, hr, hfindings, hclasses, hfiles⟩ := h.read (by simp) hdepth
  refine ofJson?_eq_some_iff.mpr ⟨room, rfl, r, hr, ?_, ?_, ?_⟩
  · refine Json.Record.required_of hfindings fun j hj hd => ?_
    refine Json.listOf_of hj hd fun f hf _ _ hj hd => ?_
    exact Finding.ofJson?_of_spelledBy (hfits.lines f hf) hj hd
  · exact Json.Record.required_of hclasses fun j hj _ => nat_of hj hfits.classesChecked
  · exact Json.Record.required_of hfiles fun j hj _ => nat_of hj hfits.filesChecked

/-! ### Reading back -/

theorem Finding.depth_toJson (f : Finding) : f.toJson.depth = 2 := by
  obtain ⟨code, rule, identifier, severity, file, line, message, _ | tip⟩ := f <;> rfl

theorem Report.depth_toJson_le (r : Report) : r.toJson.depth ≤ 4 := by
  have hfindings : Json.depthItems (r.findings.map Finding.toJson) ≤ 2 := by
    refine Json.depthItems_le fun j hj => ?_
    obtain ⟨f, -, rfl⟩ := List.mem_map.mp hj
    rw [f.depth_toJson]
  rw [toJson, Json.depth_ofMembers]
  refine Nat.succ_le_succ (Json.depthItems_le fun j hj => ?_)
  simp only [List.map_cons, List.map_nil, List.mem_cons, List.not_mem_nil, or_false] at hj
  rcases hj with rfl | rfl | rfl
  · rw [Json.ofList, Json.depth_array]
    exact Nat.succ_le_succ hfindings
  · exact Nat.zero_le 3
  · exact Nat.zero_le 3

/-- **A rendered report can be read.**  The text of a report in the JSON format is read as the
same findings in the same order and the same two counts, whatever characters its texts hold. -/
theorem Report.parse_render_json (r : Report) (hfits : r.Fits) (colour : Bool) :
    parse (r.render .json colour) = some r := by
  have htext : Json.parse (r.render .json colour) = some r.toJson :=
    Json.parse_pretty_append r.toJson (b := ['\n']) (by simp [Json.Blank])
  have hroom : r.toJson.depth ≤ Json.maxDepth :=
    Nat.le_trans r.depth_toJson_le (by decide)
  rw [parse, htext, Option.bind_some]
  exact ofJson?_of_spelledBy hfits r.spelledBy_toJson hroom

/-- A report of two findings: a tip and a file with characters that have to be escaped, and no
tip. -/
def awkwardReport : Report where
  findings := [
    { code := "EL006"
      rule := "index-name-prefix"
      identifier := "doctrine.indexName.prefix"
      severity := .warning
      file := ⟨"src/Ent\"it\\y/Ä.php"⟩
      line := 12
      message := "Index \"idx\x01\" in \"App\\Day\"\n\tmust be prefixed."
      tip := some "Rename it: \x7b\u00e9\u2028\x7f 😀" },
    { code := ""
      rule := ""
      identifier := "\x00"
      severity := .error
      file := ⟨""⟩
      line := 18446744073709551615
      message := "null"
      tip := none }]
  classesChecked := 3
  filesChecked := 0

theorem Report.parse_render_json_awkwardReport :
    awkwardReport.Fits ∧
      Report.parse (awkwardReport.render .json true) = some awkwardReport ∧
      Report.parse (awkwardReport.render .json false) = some awkwardReport := by
  have hfits : awkwardReport.Fits :=
    ⟨by simp [awkwardReport, IsWord], by simp [awkwardReport, IsWord],
      by simp [awkwardReport, IsWord]⟩
  exact ⟨hfits, Report.parse_render_json awkwardReport hfits true,
    Report.parse_render_json awkwardReport hfits false⟩

end EntityConventions
