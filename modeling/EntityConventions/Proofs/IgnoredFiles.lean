import EntityConventions.Proofs.Checking
import EntityConventions.Proofs.RecursivePatterns

/-! # Findings that an entry ignores

One more entry to ignore leaves exactly those findings out that it matches, and moves no other one
(`Analyzer.findings_ignoring`).  An entry whose pattern compiles is never a reason to refuse a
configuration (`IgnoreEntry.fault?_of_compile`, `Config.parse_ne_badGlob`).

For a plain directory the two patterns that are in use, the directory itself and the directory with
`/**` behind it, ignore what is reported at the directory's own path and what is reported below it
(`IgnoreEntry.ignores_directory`). -/

namespace EntityConventions

/-! ### One more entry -/

namespace Analyzer

/-- An analyzer whose configuration has one more entry to ignore. -/
def ignoring (a : Analyzer) (i : IgnoreEntry) : Analyzer :=
  { a with config := { a.config with ignore := i :: a.config.ignore } }

variable (a : Analyzer) (i : IgnoreEntry) (models : List Model)

theorem dueBy_ignoring (e : ClassEntry) (d : ClassDeclaration) (r : Rule) :
    (a.ignoring i).dueBy models e d r =
      (a.dueBy models e d r).filter fun f => !i.isMatch f := by
  have hrule : (a.ignoring i).config.rule? r.name = a.config.rule? r.name := rfl
  rw [dueBy, dueBy, hrule]
  split
  · rfl
  · rw [List.filter_filter]
    refine List.filter_congr fun f _ => ?_
    rw [Bool.eq_iff_iff, Bool.and_eq_true, Bool.not_eq_true', decide_eq_true_eq,
      decide_eq_true_eq]
    exact List.forall_mem_cons

theorem due_ignoring :
    (a.ignoring i).due models = (a.due models).filter fun f => !i.isMatch f := by
  have hentry : ∀ e, (a.ignoring i).dueAbout models e =
      (a.dueAbout models e).filter fun f => !i.isMatch f := by
    intro e
    unfold dueAbout
    cases e.declaration? with
    | none => rfl
    | some d =>
        rw [List.filter_flatMap]
        exact List.flatMap_congr fun r _ => dueBy_ignoring a i models e d r
  rw [due, due, List.filter_flatMap]
  refine List.flatMap_congr fun m _ => ?_
  rw [List.filter_flatMap]
  exact List.flatMap_congr fun e _ => hentry e

/-- One more entry leaves out the findings that it matches, and the others stay in their order. -/
theorem findings_ignoring :
    ((a.ignoring i).checkModels models).findings =
      (a.checkModels models).findings.filter fun f => !i.isMatch f := by
  have hfiltered := (a.checkModels_isStableSort models).filter fun f => !i.isMatch f
  rw [← due_ignoring] at hfiltered
  exact ((a.ignoring i).checkModels_isStableSort models).eq_of_withKey_eq hfiltered fun _ => rfl

end Analyzer

/-! ### Entries with a pattern -/

theorem IgnoreEntry.isMatch_iff {identifier pattern : String} {reason : Option String}
    {f : Finding} :
    isMatch ⟨identifier, some pattern, reason⟩ f = true ↔
      f.identifier = identifier ∧ Glob.isMatch pattern f.file.text = true := by
  rw [isMatch, drops, Bool.and_eq_true, beq_iff_eq, eq_comm]

section compiled

variable {pattern : String} {ts : List Glob.Token} (h : Glob.compile pattern = .ok ts)
include h

theorem IgnoreEntry.fault?_of_compile (identifier : String) (reason : Option String) :
    fault? ⟨identifier, some pattern, reason⟩ = none := by
  simp only [fault?, h]

/-- No text is refused for a pattern that compiles. -/
theorem Config.parse_ne_badGlob (text : String) (fault : Glob.Fault) :
    parse text ≠ .error (.badGlob pattern fault) := by
  intro hparse
  unfold parse at hparse
  split at hparse
  · cases hparse
  · split at hparse
    · rename_i hfault
      obtain ⟨i, -, hi⟩ := List.exists_of_findSome?_eq_some hfault
      cases hparse
      obtain ⟨identifier, path, reason⟩ := i
      unfold IgnoreEntry.fault? at hi
      split at hi
      · cases hi
      · split at hi
        · cases hi
        · rename_i hcompile
          cases hi
          rw [h] at hcompile
          cases hcompile
    · cases hparse

end compiled

/-! ### Directories -/

/-- **What is ignored in a directory.**  For a directory spelled without wildcards, neither the
pattern with `/**` behind it nor the directory itself is a reason to refuse a configuration.  An
entry with the first drops what has its identifier and is reported at a path that begins with the
directory and a slash; one with the second drops what is reported at the directory itself.  Nothing
else is missing in the report. -/
theorem IgnoreEntry.ignores_directory {d : String} (h : Glob.IsPlain d.toList)
    (identifier : String) (reason : Option String) :
    let below : IgnoreEntry := ⟨identifier, some (d ++ "/**"), reason⟩
    let itself : IgnoreEntry := ⟨identifier, some d, reason⟩
    (below.fault? = none ∧
      (∀ text fault, Config.parse text ≠ .error (.badGlob (d ++ "/**") fault)) ∧
      (∀ f : Finding, below.isMatch f = true ↔
        f.identifier = identifier ∧ ∃ rest, f.file.text = d ++ "/" ++ rest) ∧
      ∀ (a : Analyzer) (models : List Model),
        ((a.ignoring below).checkModels models).findings =
          (a.checkModels models).findings.filter fun f => !below.isMatch f) ∧
    itself.fault? = none ∧
      (∀ text fault, Config.parse text ≠ .error (.badGlob d fault)) ∧
      (∀ f : Finding, itself.isMatch f = true ↔ f.identifier = identifier ∧ f.file.text = d) ∧
      ∀ (a : Analyzer) (models : List Model),
        ((a.ignoring itself).checkModels models).findings =
          (a.checkModels models).findings.filter fun f => !itself.isMatch f := by
  intro below itself
  have hbelow := Glob.compile_below h
  have hitself := Glob.compile_plain h
  refine ⟨⟨fault?_of_compile hbelow identifier reason, Config.parse_ne_badGlob hbelow, fun f => ?_,
    fun a => a.findings_ignoring _⟩, fault?_of_compile hitself identifier reason,
    Config.parse_ne_badGlob hitself, fun f => ?_, fun a => a.findings_ignoring _⟩
  · rw [isMatch_iff, Glob.isMatch_below_iff h]
  · rw [isMatch_iff, Glob.isMatch_plain_iff h]

/-- The column of `mutableDay` is reported in `src`.  Neither `src/**` nor the file itself leaves it
in the report, but a directory that `src` merely begins with does. -/
theorem IgnoreEntry.ignores_directory_mutableDay :
    let a : Analyzer := .build ⟨"/app"⟩ [Rule.columnComment] .default .conventions
    let check := fun d =>
      ((a.ignoring ⟨ColumnComment.missingOptions, some d, none⟩).checkModels
        [Analyzer.mutableDay]).findings
    Glob.IsPlain "src".toList ∧ Glob.IsPlain "src/Day.php".toList ∧ Glob.IsPlain "sr".toList ∧
      (a.checkModels [Analyzer.mutableDay]).findings.map (fun f => (f.identifier, f.file)) =
        [(ColumnComment.missingOptions, ⟨"src/Day.php"⟩)] ∧
      check ("src" ++ "/**") = [] ∧ check "src/Day.php" = [] ∧
      check ("sr" ++ "/**") = (a.checkModels [Analyzer.mutableDay]).findings := by
  intro a check
  have hsrc : Glob.IsPlain "src".toList := by decide
  have hday : Glob.IsPlain "src/Day.php".toList := by decide
  have hsr : Glob.IsPlain "sr".toList := by decide
  have hdue : (a.due [Analyzer.mutableDay]).map (fun f => (f.identifier, f.file)) =
      [(ColumnComment.missingOptions, ⟨"src/Day.php"⟩)] := by
    decide +kernel
  have hfindings := Analyzer.map_findings_of_map_due hdue le_rfl
  obtain ⟨f, hf, hplace⟩ := List.map_eq_singleton_iff.mp hfindings
  obtain ⟨hidentifier, hfile⟩ := Prod.mk.inj hplace
  obtain ⟨-, -, hmatch, hreport⟩ := (ignores_directory hsrc ColumnComment.missingOptions none).1
  obtain ⟨-, -, hmatch', hreport'⟩ := (ignores_directory hday ColumnComment.missingOptions none).2
  obtain ⟨-, -, hmatch₂, hreport₂⟩ := (ignores_directory hsr ColumnComment.missingOptions none).1
  refine ⟨hsrc, hday, hsr, hfindings, ?_, ?_, ?_⟩
  · have hdropped := (hmatch f).mpr ⟨hidentifier, "Day.php", by rw [hfile]; decide⟩
    refine (hreport a _).trans ?_
    rw [hf, List.filter_singleton, hdropped]
    rfl
  · have hdropped := (hmatch' f).mpr ⟨hidentifier, by rw [hfile]⟩
    refine (hreport' a _).trans ?_
    rw [hf, List.filter_singleton, hdropped]
    rfl
  · have hkept := Bool.eq_false_iff.mpr (mt (hmatch₂ f).mp (by
      rintro ⟨-, rest, hrest⟩
      rw [hfile] at hrest
      have htake := congrArg (fun text => text.toList.take 3) hrest
      simp [String.toList_append] at htake))
    refine (hreport₂ a _).trans ?_
    rw [hf, List.filter_singleton, hkept]
    rfl

end EntityConventions
