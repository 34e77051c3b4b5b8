import EntityConventions.Proofs.Ancestors
import EntityConventions.Proofs.ModelRoundTrip
import EntityConventions.Proofs.Presets

/-! # Paths that are reported

A finding is reported at the path of the class file as seen from the root.  That path is the file's
own, or what remains of it below the root (`reportPath_of_isPrefix`), so it has no component that
the file has not (`components_reportPath_suffix`).

Whether a class is in a test file is decided by the file of the resolved class.  Once a document is
read this is the file of its entry (`Model.file_eq_of_parse`), which is also the one that is
reported.  Therefore columns that are passed over in test files are reported at no path below a
`tests` directory (`Analyzer.reportPath_outside_tests`). -/

namespace EntityConventions

section reported

variable {root file : Path}

theorem reportPath_of_isPrefix (h : root.components <+: file.components) :
    reportPath root (some file) = file.after root.components.length := by
  rw [reportPath, Path.stripAncestor, if_pos (List.isPrefixOf_iff_prefix.mpr h), Option.getD_some]

theorem reportPath_of_not_isPrefix (h : ¬ root.components <+: file.components) :
    reportPath root (some file) = file := by
  rw [reportPath, Path.stripAncestor, if_neg (mt List.isPrefixOf_iff_prefix.mp h),
    Option.getD_none]

/-- A reported path has the last components of the file. -/
theorem components_reportPath_suffix (root file : Path) :
    (reportPath root (some file)).components <:+ file.components := by
  by_cases h : root.components <+: file.components
  · rw [reportPath_of_isPrefix h, Path.components_after]
    exact List.drop_suffix _ _
  · have hfile := reportPath_of_not_isPrefix h
    exact hfile.symm ▸ List.suffix_rfl

theorem tests_not_mem_reportPath_none (root : Path) :
    .name "tests" ∉ (reportPath root none).components := by
  show .name "tests" ∉ Path.components ⟨"<unknown>"⟩
  decide +kernel

end reported

/-! ### Documents that were read -/

theorem ClassEntry.file_settleFile (e : ClassEntry) :
    e.settleFile.file = e.settleFile.reflection.file := by
  obtain ⟨_ | file, declaration?, reflection⟩ := e <;> rfl

/-- In a document that was read, entries and resolved classes agree on the file. -/
theorem Model.file_eq_of_parse {text : String} {m : Model} (h : parse text = some m) :
    ∀ e ∈ m.classes, e.file = e.reflection.file := by
  obtain ⟨_, -, written, -, rfl⟩ := parse_eq_some_iff.mp h
  intro e he
  obtain ⟨e, -, rfl⟩ := List.mem_map.mp he
  exact e.file_settleFile

/-! ### Columns in test files -/

namespace Analyzer

/-- What is reported about columns, if test files are passed over, concerns a class in no test
file. -/
theorem not_inTests_of_mem_checkModels {a : Analyzer} {models : List Model}
    (hskip : ∀ r ∈ a.rules, r.code = "EL001" → r.check = .columnComment true) {f : Finding}
    (hf : f ∈ (a.checkModels models).findings) (hcode : f.code = "EL001") :
    ∃ e ∈ models.flatMap Model.classes,
      f.file = reportPath a.root e.file ∧ ¬ e.reflection.InTests := by
  obtain ⟨e, he, d, -, r, hr, hdue⟩ := exists_rule_of_mem_checkModels hf
  have hcheck := hskip r hr ((code_of_mem_dueBy hdue).symm.trans hcode)
  obtain ⟨v, hv, severity, rfl⟩ := exists_violation_of_mem_dueBy hdue
  refine ⟨e, he, rfl, fun htests => ?_⟩
  rw [hcheck, Check.violations, ColumnComment.violations, Bool.true_and,
    if_pos ((ClassContext.inTestFile_iff _).mpr htests)] at hv
  exact absurd hv List.not_mem_nil

/-- **A reported path stays outside of the test directories that decide about columns.**  Below the
root it is the file but for the root's components, and otherwise the file itself; so its components
are components of the file.  In documents that were read an entry and its resolved class have one
file.  Hence, if test files are passed over, no finding about a column is reported at a path with a
component `tests`. -/
theorem reportPath_outside_tests :
    (∀ root file : Path,
      (root.components <+: file.components →
        (root.join (reportPath root (some file))).components = file.components) ∧
      (¬ root.components <+: file.components → reportPath root (some file) = file) ∧
      (.name "tests" ∈ (reportPath root (some file)).components →
        .name "tests" ∈ file.components)) ∧
    (∀ text m, Model.parse text = some m → ∀ e ∈ m.classes, e.file = e.reflection.file) ∧
    ∀ (a : Analyzer) (models : List Model),
      (∀ m ∈ models, ∃ text, Model.parse text = some m) →
      (∀ r ∈ a.rules, r.code = "EL001" → r.check = .columnComment true) →
      ∀ f ∈ (a.checkModels models).findings, f.code = "EL001" →
        .name "tests" ∉ f.file.components := by
  refine ⟨fun root file => ⟨fun h => ?_, reportPath_of_not_isPrefix, fun h => ?_⟩,
    fun text m => Model.file_eq_of_parse, fun a models hread hskip f hf hcode htests => ?_⟩
  · rw [reportPath_of_isPrefix h]
    exact Path.components_join_after h
  · exact (components_reportPath_suffix root file).subset h
  · obtain ⟨e, he, hfile, houtside⟩ := not_inTests_of_mem_checkModels hskip hf hcode
    obtain ⟨m, hm, hem⟩ := List.mem_flatMap.mp he
    obtain ⟨text, htext⟩ := hread m hm
    apply houtside
    rw [hfile, Model.file_eq_of_parse htext e hem] at htests
    cases hreflection : e.reflection.file with
    | none =>
        rw [hreflection] at htests
        exact absurd htests (tests_not_mem_reportPath_none a.root)
    | some file =>
        rw [hreflection] at htests
        exact ⟨file, hreflection, (components_reportPath_suffix a.root file).subset htests⟩

theorem fits_mutableDay : mutableDay.Fits := by
  have hcolumn : Attribute.Fits ⟨"Column", 5, [⟨some "type", .string "date" 5, 5⟩]⟩ :=
    ⟨by simp [IsWord],
      List.forall_mem_singleton.mpr ⟨by simp [Expr.Fits, IsWord], by simp [IsWord]⟩⟩
  have hentity : Attribute.Fits (.bare Concept.entity.qualified 2) :=
    ⟨by simp [Attribute.bare, IsWord], by simp [Attribute.bare]⟩
  refine List.forall_mem_singleton.mpr ⟨fun d hd => ?_, ?_⟩
  · obtain rfl := Option.some.inj hd
    exact ⟨by simp [IsWord], by simp, List.forall_mem_singleton.mpr
      ⟨by simp [IsWord], List.forall_mem_singleton.mpr hcolumn⟩, by simp⟩
  · exact ⟨by simp [Reflection.ofName, Reflection.addAttribute, IsWord],
      by simp [Reflection.ofName, Reflection.addAttribute], List.forall_mem_singleton.mpr hentity⟩

/-- The same entity twice, first in a test file; its resolved class names another file there. -/
def twoDays : Model where
  classes := mutableDay.classes.flatMap fun e =>
    [{ e with
        file? := some ⟨"/app//tests/./Day.php"⟩
        reflection := e.reflection.setFile ⟨"/app/src/Day.php"⟩ },
      { e with file? := some ⟨"/app/src/./Day.php"⟩ }]

theorem fits_twoDays : twoDays.Fits := by
  intro e he
  obtain ⟨e, hmem, he⟩ := List.mem_flatMap.mp he
  obtain ⟨hdeclaration, hreflection⟩ := fits_mutableDay e hmem
  simp only [List.mem_cons, List.not_mem_nil, or_false] at he
  rcases he with rfl | rfl
  · exact ⟨hdeclaration, hreflection.line, hreflection.constructorFacts, hreflection.attributes⟩
  · exact ⟨hdeclaration, hreflection⟩

theorem parse_twoDays : Model.parse twoDays.print = some twoDays.settleFiles := by
  rw [Model.parse_print_eq fits_twoDays, if_pos (by decide)]

/-- Its column is reported once, at the path that is in no test directory. -/
theorem reportPath_outside_tests_twoDays :
    let a : Analyzer := .build ⟨"/app/."⟩ [Rule.columnComment] .default .conventions
    reportPath a.root (some ⟨"/app//tests/./Day.php"⟩) = ⟨"tests/./Day.php"⟩ ∧
      (a.root.join ⟨"tests/./Day.php"⟩).components = Path.components ⟨"/app//tests/./Day.php"⟩ ∧
      .name "tests" ∈ Path.components ⟨"/app//tests/./Day.php"⟩ ∧
      reportPath a.root (some ⟨"/apps/Day.php"⟩) = ⟨"/apps/Day.php"⟩ ∧
      Model.parse twoDays.print = some twoDays.settleFiles ∧
      (∀ e ∈ twoDays.settleFiles.classes, e.file = e.reflection.file) ∧
      (a.checkModels [twoDays.settleFiles]).findings.map (fun f => (f.code, f.file)) =
        [("EL001", ⟨"src/./Day.php"⟩)] ∧
      ∀ f ∈ (a.checkModels [twoDays.settleFiles]).findings, f.code = "EL001" →
        .name "tests" ∉ f.file.components := by
  intro a
  have hpath : reportPath a.root (some ⟨"/app//tests/./Day.php"⟩) = ⟨"tests/./Day.php"⟩ := by
    decide +kernel
  have hprefix : a.root.components <+: Path.components ⟨"/app//tests/./Day.php"⟩ := by
    decide +kernel
  have hother : ¬ a.root.components <+: Path.components ⟨"/apps/Day.php"⟩ := by decide +kernel
  have hdue : (a.due [twoDays.settleFiles]).map (fun f => (f.code, f.file)) =
      [("EL001", ⟨"src/./Day.php"⟩)] := by
    decide +kernel
  obtain ⟨hpaths, hread, hreports⟩ := reportPath_outside_tests
  obtain ⟨hbelow, -, htests⟩ := hpaths a.root ⟨"/app//tests/./Day.php"⟩
  have hjoin := hbelow hprefix
  rw [hpath] at hjoin htests
  refine ⟨hpath, hjoin, htests (by decide +kernel), (hpaths a.root _).2.1 hother, parse_twoDays,
    hread _ _ parse_twoDays, map_findings_of_map_due hdue le_rfl, ?_⟩
  exact hreports a _ (List.forall_mem_singleton.mpr ⟨_, parse_twoDays⟩) (by decide)

end Analyzer

end EntityConventions
