import EntityConventions.Proofs.InitialConfig

/-! # Settings that are not written

A setting has the value that is written about it, or a default if nothing is (`Toml.Settles`).
Nothing is written about a setting if the document has no `analyzer`, or one without the setting
(`AnalyzerConfig.written?`).

Root, inclusions and workers have one default each.  Exclusions have two: those of installed
packages where there is no `analyzer` at all, and none where there is one
(`Config.settles_of_parse`).  So to write any other setting drops them
(`Config.excludes_of_written_root`). -/

namespace EntityConventions

/-! ### Optional fields -/

namespace Toml

variable {α : Type}

/-- A setting has the value that is written about it, or a default if nothing is. -/
def Settles (written : Option Toml) (default : α) (decode : Toml → Option α) (a : α) : Prop :=
  (written = none → a = default) ∧ ∀ v, written = some v → decode v = some a

variable {default : α} {decode : Toml → Option α} {a : α}

theorem settles_none_iff : Settles none default decode a ↔ a = default := by
  simp [Settles]

theorem settles_of_optional {fields : List (String × Toml)} {name : String}
    (h : optional fields name default decode = some a) :
    Settles (fields.lookup name) default decode a := by
  unfold optional at h
  cases hlookup : fields.lookup name with
  | none =>
      rw [hlookup] at h
      exact settles_none_iff.mpr (Option.some.inj h).symm
  | some v =>
      rw [hlookup] at h
      refine ⟨nofun, fun w hw => ?_⟩
      cases hw
      exact h

end Toml

/-! ### What is written about the settings -/

namespace AnalyzerConfig

open Toml

/-- What is written about a setting, under its name or at its position. -/
def written? (entries : List (String × Toml)) (name : String) : Option Toml := do
  let v ← entries.lookup "analyzer"
  let fields ← v.record? ["root", "exclude", "include", "parallelism"]
  fields.lookup name

theorem settles_of_ofToml? {v : Toml} {a : AnalyzerConfig} (h : ofToml? v = some a) :
    ∃ fields, v.record? ["root", "exclude", "include", "parallelism"] = some fields ∧
      Settles (fields.lookup "root") defaultRoot (fun v => v.string?.map Path.mk) a.root ∧
      Settles (fields.lookup "exclude") [] (listOf string?) a.excludes ∧
      Settles (fields.lookup "include") defaultIncludes (listOf string?) a.includes ∧
      Settles (fields.lookup "parallelism") none (fun v => v.nat?.map some) a.parallelism := by
  unfold ofToml? at h
  obtain ⟨fields, hfields, h⟩ := Option.bind_eq_some_iff.mp h
  obtain ⟨root, hroot, h⟩ := Option.bind_eq_some_iff.mp h
  obtain ⟨excludes, hexcludes, h⟩ := Option.bind_eq_some_iff.mp h
  obtain ⟨includes, hincludes, h⟩ := Option.bind_eq_some_iff.mp h
  obtain ⟨parallelism, hparallelism, h⟩ := Option.bind_eq_some_iff.mp h
  cases h
  exact ⟨fields, hfields, settles_of_optional hroot, settles_of_optional hexcludes,
    settles_of_optional hincludes, settles_of_optional hparallelism⟩

end AnalyzerConfig

namespace Config

open Toml AnalyzerConfig

/-- A text that is accepted spells a table that the configuration is read from. -/
theorem exists_ofEntries?_of_parse {text : String} {c : Config} (h : parse text = .ok c) :
    ∃ entries, Toml.parse text = some entries ∧ ofEntries? entries = some c := by
  unfold parse at h
  split at h
  · cases h
  · rename_i hread
    split at h
    · cases h
    · cases h
      exact Option.bind_eq_some_iff.mp hread

theorem settles_of_ofEntries? {entries : List (String × Toml)} {c : Config}
    (h : ofEntries? entries = some c) :
    Settles (entries.lookup "analyzer") .default AnalyzerConfig.ofToml? c.analyzer := by
  unfold ofEntries? at h
  obtain ⟨preset, -, h⟩ := Option.bind_eq_some_iff.mp h
  obtain ⟨failOn, -, h⟩ := Option.bind_eq_some_iff.mp h
  obtain ⟨analyzer, hanalyzer, h⟩ := Option.bind_eq_some_iff.mp h
  obtain ⟨rules, -, h⟩ := Option.bind_eq_some_iff.mp h
  obtain ⟨ignore, -, h⟩ := Option.bind_eq_some_iff.mp h
  cases h
  exact settles_of_optional hanalyzer

/-- **Where the settings come from.**  Of every text that is accepted, root, inclusions and workers
are what is written about each of them, or the default of each, whatever else is written.  So are
the exclusions; but where there is an `analyzer` that does not mention them there are none, and only
where there is no `analyzer` they are those of installed packages. -/
theorem settles_of_parse {text : String} {c : Config} (h : parse text = .ok c) :
    ∃ entries, Toml.parse text = some entries ∧
      Settles (written? entries "root") ⟨"."⟩ (fun v => v.string?.map Path.mk) c.analyzer.root ∧
      Settles (written? entries "include") ["**/*.model.json"] (listOf string?)
        c.analyzer.includes ∧
      Settles (written? entries "parallelism") none (fun v => v.nat?.map some)
        c.analyzer.parallelism ∧
      Settles (written? entries "exclude")
        (if (entries.lookup "analyzer").isNone then ["**/vendor/**", "**/node_modules/**"] else [])
        (listOf string?) c.analyzer.excludes := by
  obtain ⟨entries, hentries, hread⟩ := exists_ofEntries?_of_parse h
  refine ⟨entries, hentries, ?_⟩
  obtain ⟨hdefault, hwritten⟩ := settles_of_ofEntries? hread
  cases hanalyzer : entries.lookup "analyzer" with
  | none =>
      have hnone : ∀ name, written? entries name = none := fun name => by
        rw [written?, hanalyzer]
        rfl
      simp only [hnone, settles_none_iff, hdefault hanalyzer]
      exact ⟨rfl, rfl, rfl, rfl⟩
  | some v =>
      obtain ⟨fields, hfields, hroot, hexcludes, hincludes, hparallelism⟩ :=
        settles_of_ofToml? (hwritten v hanalyzer)
      have hsome : ∀ name, written? entries name = fields.lookup name := fun name => by
        rw [written?, hanalyzer, Option.bind_eq_bind, Option.bind_some, hfields]
        rfl
      simp only [hsome]
      exact ⟨hroot, hincludes, hparallelism, hexcludes⟩

/-- A text is accepted if its table is read as a configuration with no entries to ignore. -/
theorem exists_parse_of_any {text : String} {p : List (String × Toml) → Config → Bool}
    (h : ((Toml.parse text).any fun entries =>
      (ofEntries? entries).any fun c => c.ignore.isEmpty && p entries c) = true) :
    ∃ entries c, Toml.parse text = some entries ∧ parse text = .ok c ∧ p entries c = true := by
  obtain ⟨entries, hentries, h⟩ := (Option.any_eq_true _ _).mp h
  obtain ⟨c, hc, h⟩ := (Option.any_eq_true _ _).mp h
  obtain ⟨hignore, hp⟩ := Bool.and_eq_true_iff.mp h
  have hread : (Toml.parse text).bind ofEntries? = some c := by rw [hentries, Option.bind_some, hc]
  exact ⟨entries, c, hentries, parse_of_ofEntries? hread (List.isEmpty_iff.mp hignore), hp⟩

/-- With exclusions of its own, a text leaves root and inclusions as they are by default. -/
theorem settles_of_parse_excludes :
    ∃ entries c, Toml.parse "[analyzer]\nexclude = [\"build/**\"]\n" = some entries ∧
      parse "[analyzer]\nexclude = [\"build/**\"]\n" = .ok c ∧
      written? entries "root" = none ∧ c.analyzer.root = ⟨"."⟩ ∧
      written? entries "include" = none ∧ c.analyzer.includes = ["**/*.model.json"] ∧
      c.analyzer.excludes = ["build/**"] := by
  have hread : ((Toml.parse "[analyzer]\nexclude = [\"build/**\"]\n").any fun entries =>
      (ofEntries? entries).any fun c => c.ignore.isEmpty &&
        decide ((written? entries "root").isNone = true ∧
          (written? entries "include").isNone = true ∧
          (written? entries "exclude").bind (listOf string?) = some ["build/**"])) = true := by
    decide +kernel
  obtain ⟨entries, c, hentries, hparse, hwritten⟩ := exists_parse_of_any hread
  obtain ⟨hroot, hinclude, hexclude⟩ := of_decide_eq_true hwritten
  obtain ⟨entries', hentries', hroot', hinclude', -, hexclude'⟩ := settles_of_parse hparse
  obtain rfl := Option.some.inj (hentries.symm.trans hentries')
  rw [Option.isNone_iff_eq_none] at hroot hinclude
  obtain ⟨v, hv, hdecode⟩ := Option.bind_eq_some_iff.mp hexclude
  have hexcludes := (hexclude'.2 v hv).symm.trans hdecode
  exact ⟨entries, c, hentries, hparse, hroot, hroot'.1 hroot, hinclude, hinclude'.1 hinclude,
    Option.some.inj hexcludes⟩

/-- To write the root alone drops the exclusions of installed packages. -/
theorem excludes_of_written_root :
    ∃ entries c, Toml.parse "[analyzer]\nroot = \"src\"\n" = some entries ∧
      parse "[analyzer]\nroot = \"src\"\n" = .ok c ∧ written? entries "exclude" = none ∧
      c.analyzer.excludes = [] ∧ c.analyzer.excludes ≠ defaultExcludes := by
  have hread : ((Toml.parse "[analyzer]\nroot = \"src\"\n").any fun entries =>
      (ofEntries? entries).any fun c => c.ignore.isEmpty &&
        decide ((written? entries "exclude").isNone = true ∧ c.analyzer.excludes = [])) = true := by
    decide +kernel
  obtain ⟨entries, c, hentries, hparse, hsettings⟩ := exists_parse_of_any hread
  obtain ⟨hwritten, hexcludes⟩ := of_decide_eq_true hsettings
  rw [Option.isNone_iff_eq_none] at hwritten
  exact ⟨entries, c, hentries, hparse, hwritten, hexcludes, by simp [hexcludes, defaultExcludes]⟩

end Config

end EntityConventions
