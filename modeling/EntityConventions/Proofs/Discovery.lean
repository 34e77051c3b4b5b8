import EntityConventions.Project
import EntityConventions.Proofs.Checking

/-! # Discovered documents

The documents of a survey come in the strict order of their paths (`Project.pairwise_discover`):
they are sorted, and of neighbours with the same components only the first is kept.

`Project.failure?` says why the document at a path cannot be loaded, and `Project.loaded` lists
the documents that can.  Loading passes over failures (`loadAll_lenient`), or ends with the first
one if the survey is strict (`loadAll_strict`).  So a check of the discovered documents is a check
of those that load, and a strict one fails exactly if some document does not load
(`Project.check_of_discover`). -/

namespace EntityConventions

/-! ### The order of the documents -/

theorem Path.sameAs_iff (p q : Path) : p.sameAs q = true ↔ p.components = q.components :=
  beq_iff_eq

theorem Path.isLE_order_iff (p q : Path) :
    (p.order q).isLE = true ↔ p.components ≤ q.components := by
  rw [Ordering.isLE_iff_ne_gt]
  exact (Path.compares_order p q).ne_gt

namespace Project

/-- Dropping repeats makes an increasing list strictly increasing. -/
theorem pairwise_dropRepeatsOf {kept : Path} {paths : List Path}
    (h : (kept :: paths).Pairwise fun p q => p.components ≤ q.components) :
    (kept :: dropRepeatsOf kept paths).Pairwise fun p q => p.components < q.components := by
  induction paths generalizing kept with
  | nil => exact List.pairwise_singleton _ _
  | cons p rest ih =>
      obtain ⟨hkept, hrest⟩ := List.pairwise_cons.mp h
      rw [dropRepeatsOf]
      split
      · exact ih (h.sublist (.cons_cons kept (.cons p (.refl rest))))
      · rename_i hdiffer
        have hlt : kept.components < p.components :=
          lt_of_le_of_ne (hkept p List.mem_cons_self) fun heq =>
            hdiffer ((Path.sameAs_iff kept p).mpr heq)
        have ih := ih hrest
        refine List.pairwise_cons.mpr ⟨fun q hq => ?_, ih⟩
        -- What is kept later is not before `p`.
        rcases List.mem_cons.mp hq with rfl | hq
        · exact hlt
        · exact hlt.trans (List.rel_of_pairwise_cons ih hq)

/-- Arranged paths are strictly increasing. -/
theorem pairwise_arrange (paths : List Path) :
    (arrange paths).Pairwise fun p q => p.components < q.components := by
  have hsorted := (isStableSort_mergeSort Path.isLE_order_iff paths).sorted
  rw [arrange]
  cases hpaths : paths.mergeSort fun p q => (p.order q).isLE with
  | nil => exact .nil
  | cons p rest =>
      rw [hpaths] at hsorted
      exact pairwise_dropRepeatsOf hsorted

theorem dropRepeatsOf_of_pairwise {kept : Path} {paths : List Path}
    (h : (kept :: paths).Pairwise fun p q => p.components < q.components) :
    dropRepeatsOf kept paths = paths := by
  induction paths generalizing kept with
  | nil => rfl
  | cons p rest ih =>
      have hdiffer : ¬ kept.sameAs p = true := fun heq =>
        (List.rel_of_pairwise_cons h List.mem_cons_self).ne ((Path.sameAs_iff kept p).mp heq)
      rw [dropRepeatsOf, if_neg hdiffer, ih h.of_cons]

/-- Paths that are strictly increasing are left as they are. -/
theorem arrange_of_pairwise {paths : List Path}
    (h : paths.Pairwise fun p q => p.components < q.components) : arrange paths = paths := by
  have hsorted : paths.mergeSort (fun p q => (p.order q).isLE) = paths :=
    List.mergeSort_of_pairwise (h.imp fun hlt => (Path.isLE_order_iff _ _).mpr hlt.le)
  rw [arrange, hsorted]
  cases paths with
  | nil => rfl
  | cons p rest => rw [dropRepeats, dropRepeatsOf_of_pairwise h]

/-- The documents of a survey come in the strict order of their paths. -/
theorem pairwise_discover {p : Project} {s : Survey} {paths : List Path}
    (h : p.discover s = .ok paths) :
    paths.Pairwise fun p q => p.components < q.components := by
  unfold discover at h
  split at h
  · cases h
    exact List.pairwise_singleton _ _
  · cases hfound : s.includes.mapM fun pattern => Glob.walk p.tree (s.fullPattern pattern) with
    | error e =>
        rw [hfound] at h
        cases h
    | ok found =>
        rw [hfound] at h
        cases h
        exact pairwise_arrange _

end Project

/-! ### Loading -/

/-- In a strictly increasing list the first answer is the one before which there is none. -/
theorem findSome?_eq_some_iff_of_pairwise {α β κ : Type} [LinearOrder κ] {key : α → κ}
    {f : α → Option β} {l : List α} {b : β} (hl : l.Pairwise fun x y => key x < key y) :
    l.findSome? f = some b ↔
      ∃ a ∈ l, f a = some b ∧ ∀ x ∈ l, key x < key a → f x = none := by
  induction l with
  | nil => simp
  | cons a l ih =>
      obtain ⟨ha, hl⟩ := List.pairwise_cons.mp hl
      rw [List.findSome?_cons]
      cases hfa : f a with
      | none =>
          simp only [ih hl]
          constructor
          · rintro ⟨c, hc, hfc, hbefore⟩
            exact ⟨c, List.mem_cons_of_mem a hc, hfc,
              List.forall_mem_cons.mpr ⟨fun _ => hfa, hbefore⟩⟩
          · rintro ⟨c, hc, hfc, hbefore⟩
            rcases List.mem_cons.mp hc with rfl | hc
            · rw [hfa] at hfc
              cases hfc
            · exact ⟨c, hc, hfc, (List.forall_mem_cons.mp hbefore).2⟩
      | some b' =>
          constructor
          · rintro ⟨⟩
            refine ⟨a, List.mem_cons_self, hfa, List.forall_mem_cons.mpr ⟨fun hlt => ?_, ?_⟩⟩
            · exact absurd hlt (lt_irrefl _)
            · exact fun x hx hlt => absurd (ha x hx) hlt.asymm
          · rintro ⟨c, hc, hfc, hbefore⟩
            rcases List.mem_cons.mp hc with rfl | hc
            · exact hfa.symm.trans hfc
            · -- The head comes before `c` and has an answer.
              have hnone := hbefore a List.mem_cons_self (ha c hc)
              rw [hfa] at hnone
              cases hnone

namespace Project

/-- Why the document at a path cannot be loaded, if it cannot. -/
def failure? (p : Project) (path : Path) : Option ModelError :=
  match Model.load p.tree p.current path with
  | .ok _ => none
  | .error e => some e

/-- The documents at some paths that can be loaded, in the order of the paths. -/
def loaded (p : Project) (paths : List Path) : List Model :=
  paths.filterMap fun path => (Model.load p.tree p.current path).toOption

theorem loadAll_lenient (p : Project) (paths : List Path) :
    p.loadAll false paths = .ok (p.loaded paths) := by
  induction paths with
  | nil => rfl
  | cons path rest ih =>
      rw [loadAll, loaded, List.filterMap_cons]
      cases Model.load p.tree p.current path with
      | ok m =>
          simp only [ih]
          rfl
      | error e => exact ih

/-- A strict run through the paths ends with the first failure. -/
theorem loadAll_strict (p : Project) (paths : List Path) :
    p.loadAll true paths =
      match paths.findSome? p.failure? with
      | some e => .error e
      | none => .ok (p.loaded paths) := by
  induction paths with
  | nil => rfl
  | cons path rest ih =>
      rw [loadAll, loaded, List.filterMap_cons, List.findSome?_cons, failure?]
      cases Model.load p.tree p.current path with
      | ok m =>
          simp only [ih]
          cases rest.findSome? p.failure? <;> rfl
      | error e => rfl

theorem failure?_eq_some_iff {p : Project} {path : Path} {e : ModelError} :
    p.failure? path = some e ↔ Model.load p.tree p.current path = .error e := by
  unfold failure?
  cases Model.load p.tree p.current path <;> simp

theorem failure?_eq_none_iff {p : Project} {path : Path} :
    p.failure? path = none ↔ (Model.load p.tree p.current path).isOk = true := by
  unfold failure?
  cases Model.load p.tree p.current path <;> simp [Except.isOk, Except.toBool]

theorem length_loaded (p : Project) (paths : List Path) :
    (p.loaded paths).length =
      paths.countP fun path => (Model.load p.tree p.current path).isOk := by
  rw [loaded, List.length_filterMap_eq_countP]
  refine List.countP_congr fun path _ => ?_
  cases Model.load p.tree p.current path <;> simp [Except.isOk, Except.toBool, Except.toOption]

/-! ### Checking -/

theorem check_lenient {p : Project} {s : Survey} {paths : List Path}
    (h : p.discover s = .ok paths) :
    p.check { s with strict := false } = .ok (s.analyzer.checkModels (p.loaded paths)) := by
  have hdiscover : p.discover { s with strict := false } = .ok paths := h
  rw [check, hdiscover]
  simp only [loadAll_lenient]
  rfl

theorem check_strict {p : Project} {s : Survey} {paths : List Path}
    (h : p.discover s = .ok paths) :
    p.check { s with strict := true } =
      match paths.findSome? p.failure? with
      | some e => .error (.model e)
      | none => p.check { s with strict := false } := by
  have hdiscover : p.discover { s with strict := true } = .ok paths := h
  rw [check_lenient h, check, hdiscover]
  simp only [loadAll_strict]
  cases paths.findSome? p.failure? <;> rfl

theorem check_strict_eq_error_iff {p : Project} {s : Survey} {paths : List Path}
    (h : p.discover s = .ok paths) {e : CheckError} :
    p.check { s with strict := true } = .error e ↔
      ∃ reason, paths.findSome? p.failure? = some reason ∧ e = .model reason := by
  rw [check_strict h]
  cases paths.findSome? p.failure? with
  | none => simp [check_lenient h]
  | some reason => simp [eq_comm]

/-- **A document that does not load is passed over, or stops a strict check.**  A check that is not
strict reports on the documents that load, in the order in which they were discovered, and counts
them.  A strict check fails exactly if some document does not load, and then for the reason of the
first one in the order of paths; otherwise being strict makes no difference. -/
theorem check_of_discover (p : Project) (s : Survey) {paths : List Path}
    (h : p.discover s = .ok paths) :
    p.check { s with strict := false } = .ok (s.analyzer.checkModels (p.loaded paths)) ∧
      (s.analyzer.checkModels (p.loaded paths)).filesChecked =
        paths.countP (fun path => (Model.load p.tree p.current path).isOk) ∧
      ((∃ e, p.check { s with strict := true } = .error e) ↔
        ∃ path ∈ paths, ∃ e, Model.load p.tree p.current path = .error e) ∧
      (∀ e, p.check { s with strict := true } = .error e ↔
        ∃ path ∈ paths, ∃ reason, Model.load p.tree p.current path = .error reason ∧
          (∀ q ∈ paths, q.components < path.components →
            (Model.load p.tree p.current q).isOk = true) ∧ e = .model reason) ∧
      ((∀ path ∈ paths, (Model.load p.tree p.current path).isOk = true) →
        p.check { s with strict := true } = p.check { s with strict := false }) := by
  refine ⟨check_lenient h, p.length_loaded paths, ?_, ?_, ?_⟩
  · -- That there is an answer does not depend on which one is the first.
    have hany : (∃ reason, paths.findSome? p.failure? = some reason) ↔
        ∃ path ∈ paths, ∃ e, Model.load p.tree p.current path = .error e := by
      simp only [← failure?_eq_some_iff, ← Option.isSome_iff_exists, List.findSome?_isSome_iff]
    rw [← hany]
    constructor
    · rintro ⟨e, he⟩
      obtain ⟨reason, hreason, -⟩ := (check_strict_eq_error_iff h).mp he
      exact ⟨reason, hreason⟩
    · rintro ⟨reason, hreason⟩
      exact ⟨.model reason, (check_strict_eq_error_iff h).mpr ⟨reason, hreason, rfl⟩⟩
  · intro e
    rw [check_strict_eq_error_iff h]
    simp only [findSome?_eq_some_iff_of_pairwise (pairwise_discover h), failure?_eq_some_iff,
      failure?_eq_none_iff]
    constructor
    · rintro ⟨reason, ⟨path, hpath, hload, hbefore⟩, he⟩
      exact ⟨path, hpath, reason, hload, hbefore, he⟩
    · rintro ⟨path, hpath, reason, hload, hbefore, he⟩
      exact ⟨reason, ⟨path, hpath, hload, hbefore⟩, he⟩
  · intro hall
    have hnone : paths.findSome? p.failure? = none :=
      List.findSome?_eq_none_iff.mpr fun path hpath => failure?_eq_none_iff.mpr (hall path hpath)
    rw [check_strict h, hnone]

end Project

/-- A directory with three documents: no JSON, an empty document, and no text. -/
def mixedTree : FileTree :=
  ((FileTree.empty.addFile ["app", "a.model.json"] "nope".toUTF8).addFile
    ["app", "b.model.json"] "\x7b\x7d".toUTF8).addFile ["app", "c.model.json"] ⟨#[255]⟩

/-- A survey of the three documents by their names. -/
def mixedSurvey : Survey where
  root := ⟨"/app"⟩
  includes := ["a.model.json", "b.model.json", "c.model.json"]
  excludes := []
  rules := Rule.all
  config := .default
  classifier := .conventions
  strict := false

theorem discover_mixed : Project.discover ⟨mixedTree, ["app"]⟩ mixedSurvey =
    .ok [⟨"/app/a.model.json"⟩, ⟨"/app/b.model.json"⟩, ⟨"/app/c.model.json"⟩] := by
  have hfile : mixedTree.isFile ["app"] mixedSurvey.root = false := by decide +kernel
  have hwalk : (mixedSurvey.includes.mapM fun pattern =>
      Glob.walk mixedTree (mixedSurvey.fullPattern pattern)) =
        .ok [[⟨"/app/a.model.json"⟩], [⟨"/app/b.model.json"⟩], [⟨"/app/c.model.json"⟩]] := by
    decide +kernel
  have harrange := @Project.arrange_of_pairwise
    [⟨"/app/a.model.json"⟩, ⟨"/app/b.model.json"⟩, ⟨"/app/c.model.json"⟩] (by decide +kernel)
  rw [Project.discover, hfile, hwalk]
  exact congrArg Except.ok harrange

/-- Only the second document counts, and a strict check fails for the first one. -/
theorem Project.check_of_discover_mixed :
    Project.discover ⟨mixedTree, ["app"]⟩ mixedSurvey =
        .ok [⟨"/app/a.model.json"⟩, ⟨"/app/b.model.json"⟩, ⟨"/app/c.model.json"⟩] ∧
      Project.check ⟨mixedTree, ["app"]⟩ mixedSurvey =
        .ok (mixedSurvey.analyzer.checkModels [⟨[]⟩]) ∧
      Project.check ⟨mixedTree, ["app"]⟩ { mixedSurvey with strict := true } =
        .error (.model (.malformed ⟨"/app/a.model.json"⟩)) := by
  obtain ⟨hlenient, -, -, hstrict, -⟩ :=
    Project.check_of_discover ⟨mixedTree, ["app"]⟩ mixedSurvey discover_mixed
  refine ⟨discover_mixed, hlenient, (hstrict _).mpr ?_⟩
  exact ⟨⟨"/app/a.model.json"⟩, List.mem_cons_self, _, rfl, by decide +kernel, rfl⟩

end EntityConventions
