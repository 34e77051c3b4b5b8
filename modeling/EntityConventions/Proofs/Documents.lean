import EntityConventions.Proofs.Checking
import EntityConventions.Proofs.Insertion
import EntityConventions.Proofs.Resolution

/-! # Reports on rearranged and on extended documents

Beside the entry that is checked, a rule sees the entries of all documents only through the index.
`ClassIndex.Retains` compares two indexes: the second knows every class that the first one knows.
Then a check objects to the same, or it is the check of test cases, which said nothing before
(`Check.violations_retains`).  Two results follow.

* Where the entries settle every name among themselves (`Unambiguous`), the index does not depend
  on their order, and documents with the same entries have the same findings
  (`checkModels_perm`).
* Entries that can only be referred to, and that do not compete with the entries there are, leave
  all findings as they are and may add findings of the check of test cases
  (`checkModels_insertion`). -/

namespace EntityConventions

/-! ### What a check sees of an index -/

/-- Every class that the one index knows is known to the other as the same. -/
def ClassIndex.Retains (i j : ClassIndex) : Prop :=
  ∀ name r, i.get? name = some r → j.get? name = some r

namespace EntityTestBase

/-- A test of an entity stays one if more classes are known. -/
theorem entityTest?_retains {ctx : ClassContext} {j : ClassIndex}
    (h : ctx.scope.index.Retains j) {x : Reflection × String} (hx : entityTest? ctx = some x) :
    entityTest? { ctx with scope.index := j } = some x := by
  simp only [entityTest?, Option.bind_eq_bind, Option.bind_eq_some_iff] at hx ⊢
  obtain ⟨test, htest, hx⟩ := hx
  refine ⟨test, htest, ?_⟩
  split at hx
  · rename_i hkind
    rw [if_pos hkind]
    obtain ⟨name, hname, hx⟩ := Option.bind_eq_some_iff.mp hx
    obtain ⟨covered, hcovered, hx⟩ := Option.bind_eq_some_iff.mp hx
    refine Option.bind_eq_some_iff.mpr ⟨name, hname, ?_⟩
    exact Option.bind_eq_some_iff.mpr ⟨covered, h name covered hcovered, hx⟩
  · cases hx

theorem violations_retains {ctx : ClassContext} {j : ClassIndex} (h : ctx.scope.index.Retains j)
    (baseClass : String) :
    violations baseClass ctx = violations baseClass { ctx with scope.index := j } ∨
      violations baseClass ctx = [] := by
  cases htest : entityTest? ctx with
  | none =>
      right
      simp only [violations, htest]
  | some x =>
      obtain ⟨test, coveredName⟩ := x
      cases hbase : ctx.scope.get? baseClass with
      | none =>
          right
          simp only [violations, htest, hbase]
      | some base =>
          left
          have hbase' : Scope.get? ⟨ctx.scope.current, j⟩ baseClass = some base :=
            h baseClass base hbase
          simp only [violations, htest, hbase, entityTest?_retains h htest, hbase']

end EntityTestBase

namespace Check

/-- Seven checks do not ask the index, and the eighth finds what it found before. -/
theorem violations_retains (check : Check) {ctx : ClassContext} {j : ClassIndex}
    (h : ctx.scope.index.Retains j) :
    check.violations ctx = check.violations { ctx with scope.index := j } ∨
      check.code = "EL008" ∧ check.violations ctx = [] := by
  cases check with
  | entityTestBase baseClass =>
      exact (EntityTestBase.violations_retains h baseClass).imp_right fun h => ⟨rfl, h⟩
  | _ => exact Or.inl rfl

/-- A check cannot tell apart indexes that resolve all names alike. -/
theorem violations_congr (check : Check) {ctx : ClassContext} {j : ClassIndex}
    (h : ∀ name, ctx.scope.index.get? name = j.get? name) :
    check.violations ctx = check.violations { ctx with scope.index := j } := by
  have hij : ctx.scope.index.Retains j := fun name r hr => h name ▸ hr
  have hji : j.Retains ctx.scope.index := fun name r hr => (h name).symm ▸ hr
  rcases check.violations_retains hij with heq | ⟨-, hnil⟩
  · exact heq
  · rcases @violations_retains check { ctx with scope.index := j } _ hji with heq | ⟨-, hnil'⟩
    · exact heq.symm
    · rw [hnil, hnil']

end Check

/-! ### Rearranged documents -/

/-- Entries settle every name among themselves: of those with one name at most one has a
declaration, and where none has one there is a single entry. -/
structure Unambiguous (entries : List ClassEntry) : Prop where
  declared : ∀ e ∈ entries, entries.countP (fun x => x.key == e.key && x.isDeclared) ≤ 1
  referred : ∀ e ∈ entries, (∀ x ∈ entries, x.key = e.key → x.isDeclared = false) →
    entries.countP (fun x => x.key == e.key) ≤ 1

/-- A search with at most one answer does not depend on the order. -/
theorem find?_eq_of_perm {α : Type} {p : α → Bool} {l l' : List α} (h : l.Perm l')
    (hp : l.countP p ≤ 1) : l.find? p = l'.find? p := by
  have hfilter := h.filter p
  rw [List.countP_eq_length_filter] at hp
  rw [← List.head?_filter, ← List.head?_filter]
  match hl : l.filter p, hp with
  | [], _ =>
      rw [hl] at hfilter
      rw [List.nil_perm.mp hfilter]
  | [b], _ =>
      rw [hl] at hfilter
      rw [List.singleton_perm.mp hfilter]

namespace ClassIndex

theorem mem_of_chosen?_eq_some {entries : List ClassEntry} {key : String} {c : ClassEntry}
    (h : chosen? entries key = some c) : c ∈ entries ∧ c.key = key := by
  rcases Option.or_eq_some_iff.mp h with h | ⟨-, h⟩
  · have hc := List.find?_some h
    rw [Bool.and_eq_true, beq_iff_eq] at hc
    exact ⟨List.mem_of_find?_eq_some h, hc.1⟩
  · have hc := List.find?_some h
    exact ⟨List.mem_of_find?_eq_some h, eq_of_beq hc⟩

theorem chosen?_perm {entries entries' : List ClassEntry} (h : entries.Perm entries')
    (hu : Unambiguous entries) (key : String) : chosen? entries key = chosen? entries' key := by
  by_cases hkey : ∃ e ∈ entries, e.key = key
  · obtain ⟨e, he, rfl⟩ := hkey
    have hdeclared := find?_eq_of_perm h (hu.declared e he)
    rw [chosen?, chosen?, ← hdeclared]
    cases hd : entries.find? fun x => x.key == e.key && x.isDeclared with
    | some d => rw [Option.some_or, Option.some_or]
    | none =>
        -- No entry of this name has a declaration, so it is the only one.
        have hnone : ∀ x ∈ entries, x.key = e.key → x.isDeclared = false := by
          intro x hx hkey
          simpa [hkey] using List.find?_eq_none.mp hd x hx
        rw [find?_eq_of_perm h (hu.referred e he hnone)]
  · have hnone : ∀ l : List ClassEntry, l.Perm entries → chosen? l key = none := by
      intro l hl
      rw [Option.eq_none_iff_forall_ne_some]
      intro c hc
      obtain ⟨hmem, hc⟩ := mem_of_chosen?_eq_some hc
      exact hkey ⟨c, hl.mem_iff.mp hmem, hc⟩
    rw [hnone _ (List.Perm.refl _), hnone _ h.symm]

end ClassIndex

namespace Analyzer

/-- Rules cannot tell documents apart that resolve all names alike. -/
theorem dueAbout_congr (a : Analyzer) {models models' : List Model}
    (h : ∀ name, (ClassIndex.ofModels models).get? name = (ClassIndex.ofModels models').get? name)
    (e : ClassEntry) : a.dueAbout models e = a.dueAbout models' e := by
  unfold dueAbout
  cases e.declaration? with
  | none => rfl
  | some d =>
      have hviolations : ∀ r : Rule,
          r.check.violations (a.context (ClassIndex.ofModels models) e d) =
            r.check.violations (a.context (ClassIndex.ofModels models') e d) :=
        fun r => r.check.violations_congr h
      refine List.flatMap_congr fun r _ => ?_
      rw [dueBy_eq_kept, hviolations, dueBy_eq_kept]

/-- **The arrangement of documents does not matter.**  Documents with the same entries, grouped and
ordered in any way, have the same findings at the same places of the report, up to the order of
findings with the same file, line and code. -/
theorem checkModels_perm (a : Analyzer) {models models' : List Model}
    (h : (models.flatMap Model.classes).Perm (models'.flatMap Model.classes))
    (hu : Unambiguous (models.flatMap Model.classes)) :
    (a.checkModels models).findings.Perm (a.checkModels models').findings ∧
      (a.checkModels models).findings.map Finding.key =
        (a.checkModels models').findings.map Finding.key ∧
      (a.checkModels models).classesChecked = (a.checkModels models').classesChecked := by
  have hindex : ∀ name,
      (ClassIndex.ofModels models).get? name = (ClassIndex.ofModels models').get? name := by
    intro name
    rw [ClassIndex.get?_ofModels, ClassIndex.get?_ofModels, ClassIndex.chosen?_perm h hu]
  have hdue : (a.due models).Perm (a.due models') := by
    rw [due_eq_flatMap, due_eq_flatMap, funext (a.dueAbout_congr hindex)]
    exact h.flatMap_right _
  have hs := a.checkModels_isStableSort models
  have hs' := a.checkModels_isStableSort models'
  refine ⟨(hs.perm.trans hdue).trans hs'.perm.symm, hs.map_key_eq_of_perm hs' hdue, ?_⟩
  rw [checkModels_classesChecked_eq_countP, checkModels_classesChecked_eq_countP, h.countP_eq]

/-- An entry of which only the name is known. -/
def nameOnly (name : String) : ClassEntry :=
  ⟨none, none, .ofName name⟩

/-- A test case that covers the entity of `mutableDay`. -/
def dayTest : ClassEntry where
  file? := some ⟨"tests/DayTest.php"⟩
  declaration? := some (.empty "DayTest" .regular 4)
  reflection := (Reflection.ofName "App\\Tests\\DayTest").addAttribute
    ((Attribute.bare "CoversClass" 3).addArg (.positional (.string "\\App\\Day" 3)))

theorem checkModels_perm_dayTest :
    let models := [mutableDay, ⟨[dayTest, nameOnly EntityTestBase.defaultBase]⟩]
    let models' := [⟨nameOnly EntityTestBase.defaultBase :: mutableDay.classes⟩, ⟨[dayTest]⟩]
    let a := build ⟨"/app"⟩ Rule.all .default .conventions
    (models.flatMap Model.classes).Perm (models'.flatMap Model.classes) ∧
      Unambiguous (models.flatMap Model.classes) ∧
      (a.checkModels models).findings.Perm (a.checkModels models').findings ∧
      (a.checkModels models).findings.map Finding.key =
        (a.checkModels models').findings.map Finding.key ∧
      (a.checkModels models).classesChecked = (a.checkModels models').classesChecked := by
  intro models models' a
  have hperm : (models.flatMap Model.classes).Perm (models'.flatMap Model.classes) := by
    show (mutableDay.classes ++ [dayTest] ++ [nameOnly EntityTestBase.defaultBase]).Perm _
    exact List.perm_append_comm
  have hu : Unambiguous (models.flatMap Model.classes) := ⟨by decide, by decide⟩
  exact ⟨hperm, hu, checkModels_perm a hperm hu⟩

end Analyzer

/-! ### Extended documents -/

/-- An entry that can only be referred to and does not compete with given entries: its name does
not occur among them, or one of them has the name and a declaration. -/
def ClassEntry.YieldsTo (e : ClassEntry) (entries : List ClassEntry) : Prop :=
  e.isDeclared = false ∧
    ((∀ x ∈ entries, x.key ≠ e.key) ∨ ∃ x ∈ entries, x.key = e.key ∧ x.isDeclared = true)

/-- Entries that yield to those there are do not change what is chosen. -/
theorem ClassIndex.chosen?_insertion {entries entries' : List ClassEntry}
    (h : Insertion (ClassEntry.YieldsTo · entries) entries entries') {key : String}
    {c : ClassEntry} (hc : chosen? entries key = some c) : chosen? entries' key = some c := by
  obtain ⟨hmem, hkey⟩ := mem_of_chosen?_eq_some hc
  have hdeclared := h.find?_eq fun e he => (by simp [he.1] : (e.key == key && e.isDeclared) = false)
  rw [chosen?] at hc ⊢
  rw [hdeclared]
  cases hd : entries.find? fun x => x.key == key && x.isDeclared with
  | some d =>
      rw [hd] at hc
      exact hc
  | none =>
      -- The name occurs without a declaration, so no entry of that name was inserted.
      have hother : ∀ e : ClassEntry, e.YieldsTo entries → (e.key == key) = false := by
        rintro e ⟨-, habsent | ⟨x, hx, hxe, hxd⟩⟩
        · exact beq_false_of_ne fun he => habsent c hmem (hkey.trans he.symm)
        · refine beq_false_of_ne fun he => List.find?_eq_none.mp hd x hx ?_
          simp [hxe, he, hxd]
      rw [hd] at hc
      rw [h.find?_eq hother]
      exact hc

namespace Analyzer

variable (a : Analyzer) {models models' : List Model}

theorem dueBy_insertion
    (h : (ClassIndex.ofModels models).Retains (ClassIndex.ofModels models'))
    (e : ClassEntry) (d : ClassDeclaration) (r : Rule) :
    Insertion (fun f => f.code = "EL008") (a.dueBy models e d r) (a.dueBy models' e d r) := by
  have hviolations : r.check.violations (a.context (ClassIndex.ofModels models) e d) =
        r.check.violations (a.context (ClassIndex.ofModels models') e d) ∨
      r.check.code = "EL008" ∧
        r.check.violations (a.context (ClassIndex.ofModels models) e d) = [] :=
    r.check.violations_retains h
  rw [dueBy_eq_kept a models]
  rcases hviolations with heq | ⟨hcode, hnil⟩
  · rw [heq]
    exact .refl _
  · rw [hnil, kept_nil]
    exact .of_forall fun f hf => (code_of_mem_dueBy hf).trans hcode

theorem dueAbout_insertion
    (h : (ClassIndex.ofModels models).Retains (ClassIndex.ofModels models')) (e : ClassEntry) :
    Insertion (fun f => f.code = "EL008") (a.dueAbout models e) (a.dueAbout models' e) := by
  unfold dueAbout
  cases e.declaration? with
  | none => exact .nil
  | some d =>
      induction a.rules with
      | nil => exact .nil
      | cons r rs ih => exact (a.dueBy_insertion h e d r).append ih

theorem dueAbout_eq_nil {e : ClassEntry} (h : e.isDeclared = false) : a.dueAbout models e = [] := by
  have hnone : e.declaration? = none := by simpa [ClassEntry.isDeclared] using h
  rw [dueAbout, hnone]

/-- **More classes to refer to only add findings about test cases.**  If entries without a
declaration are inserted anywhere, and each of them has a new name or one that is declared already,
then all findings stay in their order, every further one is of the check of test cases, and the
number of checked classes is the same. -/
theorem checkModels_insertion
    (h : Insertion (ClassEntry.YieldsTo · (models.flatMap Model.classes))
      (models.flatMap Model.classes) (models'.flatMap Model.classes)) :
    (a.checkModels models).findings.Sublist (a.checkModels models').findings ∧
      Insertion (fun f => f.code = "EL008") (a.checkModels models).findings
        (a.checkModels models').findings ∧
      (a.checkModels models).classesChecked = (a.checkModels models').classesChecked := by
  have hretains : (ClassIndex.ofModels models).Retains (ClassIndex.ofModels models') := by
    intro name r hr
    rw [ClassIndex.get?_ofModels] at hr ⊢
    obtain ⟨c, hc, rfl⟩ := Option.map_eq_some_iff.mp hr
    rw [ClassIndex.chosen?_insertion h hc]
    rfl
  have hdue : Insertion (fun f => f.code = "EL008") (a.due models) (a.due models') := by
    rw [due_eq_flatMap, due_eq_flatMap]
    refine h.flatMap (a.dueAbout_insertion hretains) fun e he f hf => ?_
    rw [a.dueAbout_eq_nil he.1] at hf
    exact absurd hf List.not_mem_nil
  have hfindings := (a.checkModels_isStableSort models).insertion
    (a.checkModels_isStableSort models') hdue
  refine ⟨hfindings.sublist, hfindings, ?_⟩
  rw [checkModels_classesChecked_eq_countP, checkModels_classesChecked_eq_countP]
  exact (h.countP_eq fun e he => he.1).symm

/-- The common test case becomes known in front, and the entity is referred to once more. -/
theorem checkModels_insertion_dayTest :
    let models := [mutableDay, ⟨[dayTest]⟩]
    let models' := [⟨nameOnly EntityTestBase.defaultBase :: mutableDay.classes⟩,
      ⟨[nameOnly "\\App\\Day", dayTest]⟩]
    let a := build ⟨"/app"⟩ Rule.all .default .conventions
    Insertion (ClassEntry.YieldsTo · (models.flatMap Model.classes))
        (models.flatMap Model.classes) (models'.flatMap Model.classes) ∧
      (a.checkModels models).findings.Sublist (a.checkModels models').findings ∧
      Insertion (fun f => f.code = "EL008") (a.checkModels models).findings
        (a.checkModels models').findings ∧
      (a.checkModels models).classesChecked = (a.checkModels models').classesChecked := by
  intro models models' a
  have hnew : (nameOnly EntityTestBase.defaultBase).YieldsTo (models.flatMap Model.classes) :=
    ⟨rfl, Or.inl (by decide)⟩
  have hagain : (nameOnly "\\App\\Day").YieldsTo (models.flatMap Model.classes) :=
    ⟨rfl, Or.inr (by decide)⟩
  have h : Insertion (ClassEntry.YieldsTo · (models.flatMap Model.classes))
      (models.flatMap Model.classes) (models'.flatMap Model.classes) :=
    .add hnew (.keep _ (.add hagain (.keep _ .nil)))
  exact ⟨h, checkModels_insertion a h⟩

end Analyzer

end EntityConventions
