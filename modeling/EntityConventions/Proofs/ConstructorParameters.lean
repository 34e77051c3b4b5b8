import EntityConventions.Proofs.EntityTests
import EntityConventions.Proofs.Presets
import EntityConventions.Proofs.Spellings

/-! # Constructors with parameters

`ParameterlessConstructor.Offends` says in full which classes are objected to: the declared classes
and enumerations that are entities, take parameters in their constructor and are not skipped as
tests.  The parts of the check answer to the parts of this.  Where a constructor is resolved, it
alone tells the number of parameters (`parameterCount_pos_iff`).  A class is skipped by its name or
by a part `tests` of its file, unless that part is followed by the one for fixtures
(`isSkipped_iff`, `Path.hasFixtures_iff`); only the components of the path enter into this, and so
its spelling does not matter (`findings_inFile_congr`). -/

namespace EntityConventions

/-! ### Test files and fixtures -/

/-- The names of the parts that hold fixtures stand one behind the other. -/
theorem Path.hasFixtures_iff (names : List String) :
    hasFixtures names = true ↔
      ["tests", "Fixtures"] <:+: names ∨ ["tests", "fixtures"] <:+: names := by
  fun_induction hasFixtures names with
  | case1 a b rest ih =>
      have hbehind : ∀ second : String, ["tests", second] <:+: a :: b :: rest ↔
          a = "tests" ∧ b = second ∨ ["tests", second] <:+: b :: rest := by
        intro second
        rw [List.infix_cons_iff, List.cons_prefix_cons, List.cons_prefix_cons, eq_comm,
          eq_comm (a := second)]
        simp only [List.nil_prefix, and_true]
      rw [hbehind, hbehind, Bool.or_eq_true, ih, Bool.and_eq_true, Bool.or_eq_true, beq_iff_eq,
        beq_iff_eq, beq_iff_eq]
      tauto
  | case2 names hshort =>
      have hbehind : ∀ second : String, ¬ ["tests", second] <:+: names := by
        intro second h
        have hlength := h.length_le
        match names with
        | [] => simp at hlength
        | [_] => simp at hlength
        | a :: b :: rest => exact hshort a b rest rfl
      simp [hbehind]

/-- Whether a class is in a fixture file: among the names on its path, `tests` is followed by
`Fixtures` or `fixtures`. -/
def Reflection.InFixtures (r : Reflection) : Prop :=
  ∃ file ∈ r.file, ["tests", "Fixtures"] <:+: file.names ∨ ["tests", "fixtures"] <:+: file.names

theorem ClassContext.inFixtureFile_iff (ctx : ClassContext) :
    ctx.inFixtureFile = true ↔ ctx.reflection.InFixtures := by
  unfold inFixtureFile Reflection.InFixtures
  cases ctx.reflection.file with
  | none => simp
  | some file => simp [Path.isFixture, Path.hasFixtures_iff]

/-- The class under check, in another file. -/
def ClassContext.inFile (ctx : ClassContext) (file : Path) : ClassContext :=
  { ctx with reflection := ctx.reflection.setFile file }

namespace ParameterlessConstructor

/-- The constructor of a class takes parameters: the resolved one, or the one that is written if
none is resolved. -/
inductive TakesParameters (ctx : ClassContext) : Prop
  | resolved {facts : ConstructorFacts} (h : ctx.reflection.constructor? = some facts)
      (hcount : 0 < facts.parameters)
  | written {signature : ConstructorSignature} (hnone : ctx.reflection.constructor? = none)
      (h : ctx.declaration.constructor? = some signature) (hparameters : signature.parameters ≠ [])

/-- A class is skipped as a test: by its name or by its file, unless it is a fixture. -/
def IsSkippedTest (ctx : ClassContext) : Prop :=
  (ctx.classifier.isTest ctx.className = true ∨ ctx.reflection.InTests) ∧
    ¬ ctx.reflection.InFixtures

/-- A class is objected to. -/
structure Offends (ctx : ClassContext) : Prop where
  kind : ctx.declaration.kind = .regular ∨ ctx.declaration.kind = .enum
  entity : ctx.isEntity = true
  parameters : TakesParameters ctx
  not_skipped : ¬ IsSkippedTest ctx

theorem isSkipped_iff (ctx : ClassContext) : isSkipped ctx = true ↔ IsSkippedTest ctx := by
  rw [isSkipped, Bool.and_eq_true, Bool.not_eq_true', ← Bool.not_eq_true, ctx.inFixtureFile_iff,
    Bool.or_eq_true, ctx.inTestFile_iff, IsSkippedTest, and_comm]

theorem parameterCount_pos_iff (ctx : ClassContext) :
    0 < parameterCount ctx ↔ TakesParameters ctx := by
  unfold parameterCount
  constructor
  · intro h
    split at h
    · rename_i facts _ hfacts
      exact .resolved hfacts h
    · rename_i signature hnone hsignature
      exact .written hnone hsignature (List.length_pos_iff.mp h)
    · exact absurd h (Nat.lt_irrefl 0)
  · rintro (⟨hfacts, hcount⟩ | ⟨hnone, hsignature, hparameters⟩)
    · rw [hfacts]
      exact hcount
    · rw [hnone, hsignature]
      exact List.length_pos_iff.mpr hparameters

/-- The lines on which the constructor may be reported, the best one first. -/
def reportLines (ctx : ClassContext) : List Nat :=
  (ctx.reflection.constructor?.bind ConstructorFacts.line).toList ++
    (ctx.declaration.constructor?.map ConstructorSignature.line).toList ++
    [ctx.declaration.line, ctx.reflection.line]

theorem isFirstKnown_constructorLine (ctx : ClassContext) :
    IsFirstKnown (reportLines ctx) (constructorLine ctx) := by
  have hlines : [ctx.reflection.constructor?.bind ConstructorFacts.line,
      ctx.declaration.constructor?.map ConstructorSignature.line,
      some ctx.declaration.line, some ctx.reflection.line].filterMap id = reportLines ctx := by
    unfold reportLines
    cases ctx.reflection.constructor?.bind ConstructorFacts.line <;>
      cases ctx.declaration.constructor?.map ConstructorSignature.line <;> rfl
  rw [← hlines]
  exact isFirstKnown_bestLine_filterMap _

/-- What is asked in the check, one after the other. -/
theorem offends_iff (ctx : ClassContext) :
    Offends ctx ↔ isSkipped ctx = false ∧
      ¬ (ctx.declaration.kind = .interface ∨ ctx.declaration.kind = .trait) ∧
      (ctx.isEntity && parameterCount ctx != 0) = true := by
  have hkind : (ctx.declaration.kind = .regular ∨ ctx.declaration.kind = .enum) ↔
      ¬ (ctx.declaration.kind = .interface ∨ ctx.declaration.kind = .trait) := by
    cases ctx.declaration.kind <;> decide
  have hskipped : isSkipped ctx = false ↔ ¬ IsSkippedTest ctx := by
    rw [← isSkipped_iff, Bool.not_eq_true]
  have hcount : (parameterCount ctx != 0) = true ↔ TakesParameters ctx := by
    rw [← parameterCount_pos_iff, bne_iff_ne, Nat.pos_iff_ne_zero]
  rw [hskipped, ← hkind, Bool.and_eq_true, hcount]
  constructor
  · intro h
    exact ⟨h.not_skipped, h.kind, h.entity, h.parameters⟩
  · rintro ⟨hunskipped, hkind, hentity, hparameters⟩
    exact ⟨hkind, hentity, hparameters, hunskipped⟩

theorem exists_violations_eq {ctx : ClassContext} (h : Offends ctx) :
    ∃ v, violations ctx = [v] ∧ IsFirstKnown (reportLines ctx) v.line := by
  obtain ⟨hunskipped, hkind, hparameters⟩ := (offends_iff ctx).mp h
  unfold violations
  rw [if_neg (by simp [hunskipped]), if_neg hkind, if_pos hparameters]
  exact ⟨_, rfl, isFirstKnown_constructorLine ctx⟩

theorem violations_eq_nil {ctx : ClassContext} (h : ¬ Offends ctx) : violations ctx = [] := by
  unfold violations
  split
  · rfl
  split
  · rfl
  split
  · rename_i hunskipped hkind hparameters
    exact absurd ((offends_iff ctx).mpr ⟨by simpa using hunskipped, hkind, hparameters⟩) h
  · rfl

theorem isFirstKnown_of_mem_violations {ctx : ClassContext} {v : Violation}
    (hv : v ∈ violations ctx) : IsFirstKnown (reportLines ctx) v.line := by
  by_cases h : Offends ctx
  · obtain ⟨w, hw, hline⟩ := exists_violations_eq h
    rw [hw, List.mem_singleton] at hv
    rwa [hv]
  · rw [violations_eq_nil h] at hv
    cases hv

/-! ### Findings -/

/-- Of the file the check reads the components. -/
theorem violations_inFile_congr (ctx : ClassContext) {file file' : Path}
    (h : file.components = file'.components)
    (hentity : (ctx.inFile file).isEntity = (ctx.inFile file').isEntity) :
    violations (ctx.inFile file) = violations (ctx.inFile file') := by
  have hnames : file.names = file'.names := by
    rw [Path.names, Path.names, h]
  have htest : (ctx.inFile file).inTestFile = (ctx.inFile file').inTestFile := by
    show file.isTest = file'.isTest
    rw [Path.isTest, Path.isTest, hnames]
  have hfixture : (ctx.inFile file).inFixtureFile = (ctx.inFile file').inFixtureFile := by
    show file.isFixture = file'.isFixture
    rw [Path.isFixture, Path.isFixture, hnames]
  have hskipped : isSkipped (ctx.inFile file) = isSkipped (ctx.inFile file') := by
    rw [isSkipped, isSkipped, hfixture, htest]
    rfl
  unfold violations
  rw [hskipped, hentity]
  rfl

/-- A class is named like a test if its last segment ends so. -/
theorem isTest_conventions_iff_segments (name : String) :
    Classifier.conventions.isTest name = true ↔
      ∃ last ∈ (Name.segments name).getLast?, "Test".toList <:+ last.toList := by
  rw [Name.getLast?_segments, Classifier.isTest_conventions]
  simp

/-- **Exactly the entities whose constructors take parameters are found.**  There is one finding for
a class or enumeration that is an entity, takes parameters and is not skipped as a test, and none
for any other.  Its line is the first known one of the resolved constructor, the written one, the
declaration and the resolved class.  By convention a class is skipped if its last segment ends in
`Test` or if a part of its file is called `tests`, unless the name behind that one is `Fixtures` or
`fixtures`; and its file does not decide whether it is an entity.  As long as it does not, another
spelling of the file changes nothing. -/
theorem findings_iff_offends (ctx : ClassContext) (severity : Severity) :
    let rule : Rule := ⟨.parameterlessConstructor, severity⟩
    ((rule.findings ctx).length = 1 ↔ Offends ctx) ∧
      (¬ Offends ctx → rule.findings ctx = []) ∧
      (∀ f ∈ rule.findings ctx, IsFirstKnown (reportLines ctx) f.line) ∧
      (ctx.classifier = .conventions →
        (IsSkippedTest ctx ↔
          ((∃ last ∈ (Name.segments ctx.className).getLast?, "Test".toList <:+ last.toList) ∨
              ctx.reflection.InTests) ∧
            ¬ ctx.reflection.InFixtures) ∧
        ∀ file, (ctx.inFile file).isEntity = ctx.isEntity) ∧
      ∀ file file', Relation.EqvGen Path.Respell file file' →
        (ctx.inFile file).isEntity = (ctx.inFile file').isEntity →
          rule.findings (ctx.inFile file) = rule.findings (ctx.inFile file') := by
  intro rule
  have hfindings : ∀ ctx, rule.findings ctx = (violations ctx).map (rule.finding ctx.path) :=
    fun _ => rfl
  have hnone : ¬ Offends ctx → rule.findings ctx = [] := by
    intro h
    rw [hfindings, violations_eq_nil h, List.map_nil]
  refine ⟨⟨?_, ?_⟩, hnone, ?_, ?_, ?_⟩
  · intro hone
    by_contra h
    rw [hnone h] at hone
    cases hone
  · intro h
    obtain ⟨v, hv, -⟩ := exists_violations_eq h
    rw [hfindings, hv]
    rfl
  · intro f hf
    obtain ⟨v, hv, rfl⟩ := List.mem_map.mp hf
    exact isFirstKnown_of_mem_violations hv
  · intro hroles
    rw [IsSkippedTest, hroles, isTest_conventions_iff_segments]
    refine ⟨Iff.rfl, fun file => ?_⟩
    rw [ClassContext.isEntity, ClassContext.isEntity, ClassContext.inFile, hroles]
    rfl
  · intro file file' hspelled hentity
    rw [hfindings, hfindings,
      violations_inFile_congr ctx (Path.components_eq_of_eqvGen hspelled) hentity]
    rfl

/-- An enumeration among the fixtures, with the name of a test; its resolved constructor is on an
unknown line, and the one that is written has no parameters. -/
def orderTest : ClassContext where
  declaration := (ClassDeclaration.empty "OrderTest" .enum 12).setConstructor ⟨0, []⟩
  reflection :=
    (((Reflection.ofName "App\\OrderTest").addAttribute (.bare "ORM\\Entity" 9)).setFile
      ⟨"/app//tests/./Fixtures/OrderTest.php"⟩).setConstructor ⟨2, none⟩
  scope := ⟨none, .empty⟩
  classifier := .conventions
  path := ⟨"tests/Fixtures/OrderTest.php"⟩

theorem findings_iff_offends_orderTest :
    let rule : Rule := ⟨.parameterlessConstructor, .error⟩
    let elsewhere := orderTest.inFile ⟨"/app/tests/../Entity/Fixtures/OrderTest.php"⟩
    let file : Path := ⟨"/app//tests/./Fixtures/OrderTest.php"⟩
    let file' : Path := ⟨"/app/tests/Fixtures/OrderTest.php/"⟩
    Offends orderTest ∧ (rule.findings orderTest).map Finding.line = [12] ∧
      (∀ f ∈ rule.findings orderTest, IsFirstKnown [0, 12, 0] f.line) ∧
      ¬ Offends elsewhere ∧ rule.findings elsewhere = [] ∧
      orderTest.classifier = .conventions ∧ orderTest.reflection.InFixtures ∧
      ¬ IsSkippedTest orderTest ∧ Relation.EqvGen Path.Respell file file' ∧
      (orderTest.inFile file).isEntity = (orderTest.inFile file').isEntity ∧
      rule.findings (orderTest.inFile file) = rule.findings (orderTest.inFile file') := by
  intro rule elsewhere file file'
  obtain ⟨hone, -, hline, hconventions, hspelled⟩ := findings_iff_offends orderTest .error
  obtain ⟨helsewhere, hnone, -⟩ := findings_iff_offends elsewhere .error
  obtain ⟨hskipped, hentity⟩ := hconventions rfl
  have hoffends : Offends orderTest := hone.mp (by decide +kernel)
  have hother : ¬ Offends elsewhere := fun h => absurd (helsewhere.mpr h) (by decide +kernel)
  have hfixtures : orderTest.reflection.InFixtures :=
    orderTest.inFixtureFile_iff.mp (by decide +kernel)
  have hunskipped : ¬ IsSkippedTest orderTest := fun h => (hskipped.mp h).2 hfixtures
  have hfiles : Relation.EqvGen Path.Respell file file' :=
    (Path.components_eq_iff_eqvGen file file').mp (by decide +kernel)
  have hsame := (hentity file).trans (hentity file').symm
  exact ⟨hoffends, by decide +kernel, hline, hother, hnone hother, rfl, hfixtures, hunskipped,
    hfiles, hsame, hspelled file file' hfiles hsame⟩

end ParameterlessConstructor

end EntityConventions
