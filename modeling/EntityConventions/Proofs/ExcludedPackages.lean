import EntityConventions.Project
import EntityConventions.Proofs.Ancestors
import EntityConventions.Proofs.RecursivePatterns

/-! # Paths in excluded directories

The exclusions that hold by default are of one form, `**/name/**` for some directory.  Such a
pattern matches the paths that spell the name and a slash, at their beginning or right behind a
slash (`Path.Spells`), which are those with the name among the parts in front of the last slash
(`Path.spells_iff`).  In terms of components the name is one of those in front of the last one; or
it is the last one and the text goes on behind it, in a slash or in a slash and a dot
(`Path.mem_dropLast_parts_iff`).

All of the root's parts stand in a path below it, and what remains of a path has only parts of the
path.  So to look at what remains as well excludes nothing more
(`Survey.spells_of_spells_relative`).  What is excluded by default is put together in
`Survey.isExcluded_default_iff`. -/

namespace EntityConventions

namespace Path

/-- A path spells a name and a slash, at its beginning or right behind a slash. -/
def Spells (p : Path) (name : String) : Prop :=
  ∃ before after, p.text = before ++ name ++ "/" ++ after ∧
    (before = "" ∨ ∃ front, before = front ++ "/")

theorem parts_of_slash_not_mem {text : String} (h : '/' ∉ text.toList) :
    parts ⟨text⟩ = [text.toList] :=
  List.splitOn_eq_singleton h

theorem dropLast_parts_append (before after : String) :
    (parts ⟨before ++ "/" ++ after⟩).dropLast = parts ⟨before⟩ ++ (parts ⟨after⟩).dropLast := by
  rw [parts_append_slash, List.dropLast_append_of_ne_nil (parts_ne_nil _)]

/-- A path spells a name if the name is a part of it, but not the last one. -/
theorem spells_iff {name : String} (h : '/' ∉ name.toList) (p : Path) :
    p.Spells name ↔ name.toList ∈ p.parts.dropLast := by
  have hname := parts_of_slash_not_mem h
  constructor
  · rintro ⟨before, after, htext, hbefore⟩
    obtain rfl : p = ⟨before ++ name ++ "/" ++ after⟩ := by rw [← htext]
    rw [dropLast_parts_append]
    refine List.mem_append_left _ ?_
    rcases hbefore with rfl | ⟨front, rfl⟩
    · rw [String.empty_append, hname]
      exact List.mem_singleton_self _
    · rw [parts_append_slash, hname]
      exact List.mem_append_right _ (List.mem_singleton_self _)
  · intro hmem
    -- Behind the name is the last part at least, so that a slash follows the name.
    obtain ⟨front, behind, hparts⟩ := List.append_of_mem hmem
    obtain ⟨next, rest, hnext⟩ : ∃ next rest,
        behind ++ [p.parts.getLast p.parts_ne_nil] = next :: rest :=
      List.exists_cons_of_ne_nil (by simp)
    have hwhole : p.parts = front ++ name.toList :: next :: rest := by
      rw [← hnext, ← List.cons_append, ← List.append_assoc, ← hparts,
        List.dropLast_append_getLast]
    have htail : (unparts (name.toList :: next :: rest)).text =
        name ++ "/" ++ (unparts (next :: rest)).text := by
      rw [text_unparts_cons_cons, String.ofList_toList]
    rw [← p.unparts_parts, hwhole]
    by_cases hfront : front = []
    · refine ⟨"", (unparts (next :: rest)).text, ?_, .inl rfl⟩
      rw [hfront, List.nil_append, htail, String.empty_append]
    · refine ⟨(unparts front).text ++ "/", (unparts (next :: rest)).text, ?_, .inr ⟨_, rfl⟩⟩
      rw [unparts_append hfront (List.cons_ne_nil _ _), htail]
      simp only [String.append_assoc]

theorem component?_eq_name_iff {name : String} (hsilent : isSilent name.toList = false)
    (hparent : name.toList ≠ ['.', '.']) (part : List Char) :
    component? part = some (.name name) ↔ part = name.toList := by
  constructor
  · intro h
    unfold component? at h
    split at h
    · cases h
    · split at h
      · cases h
      · cases h
        exact String.toList_ofList.symm
  · rintro rfl
    rw [component?, if_neg (by simp [hsilent]), if_neg hparent, String.ofList_toList]

theorem name_mem_filterMap_component?_iff {name : String} (hsilent : isSilent name.toList = false)
    (hparent : name.toList ≠ ['.', '.']) (ps : List (List Char)) :
    .name name ∈ ps.filterMap component? ↔ name.toList ∈ ps := by
  rw [List.mem_filterMap]
  simp only [component?_eq_name_iff hsilent hparent, exists_eq_right]

theorem name_not_mem_leading (name : String) (first : List Char) (rest : List (List Char)) :
    .name name ∉ leading first rest := by
  rcases leading_cases first rest with h | ⟨c, h, ⟨-, -, rfl⟩ | ⟨-, rfl⟩⟩ <;> simp [h]

/-! ### Behind the last component -/

/-- A path goes on behind its last component: it ends in a slash, or in a slash and a dot. -/
def GoesOn (p : Path) : Prop :=
  ['/'] <:+ p.text.toList ∨ ['/', '.'] <:+ p.text.toList

instance : DecidablePred GoesOn :=
  fun p => inferInstanceAs (Decidable (['/'] <:+ p.text.toList ∨ ['/', '.'] <:+ p.text.toList))

/-- What goes on has a last part without a meaning, behind a slash. -/
theorem goesOn_iff {p : Path} {init : List (List Char)} {last : List Char}
    (hparts : p.parts = init ++ [last]) :
    p.GoesOn ↔ init ≠ [] ∧ isSilent last = true := by
  constructor
  · intro h
    obtain ⟨front, after, htext, hafter⟩ : ∃ front after : String,
        p.text = front ++ "/" ++ after ∧ (after = "" ∨ after = ".") := by
      rcases h with ⟨front, hfront⟩ | ⟨front, hfront⟩
      · refine ⟨String.ofList front, "", ?_, .inl rfl⟩
        simp [← String.toList_inj, ← hfront]
      · refine ⟨String.ofList front, ".", ?_, .inr rfl⟩
        simp [← String.toList_inj, ← hfront]
    obtain rfl : p = ⟨front ++ "/" ++ after⟩ := by rw [← htext]
    have hlast : parts ⟨after⟩ = [after.toList] := by
      rcases hafter with rfl | rfl <;> rfl
    rw [parts_append_slash, hlast] at hparts
    obtain ⟨rfl, hsilent⟩ := List.append_inj' hparts rfl
    obtain rfl := List.singleton_inj.mp hsilent
    exact ⟨parts_ne_nil _, by rcases hafter with rfl | rfl <;> rfl⟩
  · rintro ⟨hinit, hlast⟩
    have htext : p.text.toList = (unparts init).text.toList ++ '/' :: last := by
      rw [← p.unparts_parts, hparts, unparts_append hinit (List.cons_ne_nil _ _), unparts,
        unparts, List.intercalate_singleton]
      simp
    rw [GoesOn, htext]
    rcases isSilent_cases hlast with rfl | rfl
    · exact .inl (List.suffix_append _ _)
    · exact .inr (List.suffix_append _ _)

/-- A name is a part in front of the last one if it is a component in front of the last one, or if
it is the last component and the path goes on behind it. -/
theorem mem_dropLast_parts_iff {name : String} (hsilent : isSilent name.toList = false)
    (hparent : name.toList ≠ ['.', '.']) (p : Path) :
    name.toList ∈ p.parts.dropLast ↔
      .name name ∈ p.components.dropLast ∨
        p.components.getLast? = some (.name name) ∧ p.GoesOn := by
  obtain ⟨init, last, hparts⟩ : ∃ init last, p.parts = init ++ [last] :=
    ⟨_, _, (List.dropLast_append_getLast p.parts_ne_nil).symm⟩
  rw [hparts, List.dropLast_concat, goesOn_iff hparts]
  cases init with
  | nil =>
      -- A single part is at most one component.
      have hcomponents : p.components.dropLast = [] := by
        rw [components_of_parts hparts]
        rcases leading_cases last [] with h | ⟨c, h, ⟨-, hne, -⟩ | ⟨rfl, -⟩⟩
        · rw [h]
          cases hlast : component? last <;> simp [hlast]
        · exact absurd rfl hne
        · rw [h]
          rfl
      simp [hcomponents]
  | cons first init =>
      rw [List.cons_append] at hparts
      have hcomponents := components_of_parts hparts
      rw [← List.cons_append, List.filterMap_append, ← List.append_assoc] at hcomponents
      have hmem : name.toList ∈ first :: init ↔
          .name name ∈ leading first (init ++ [last]) ++ (first :: init).filterMap component? := by
        rw [List.mem_append, or_iff_right (name_not_mem_leading _ _ _),
          name_mem_filterMap_component?_iff hsilent hparent]
      rw [hmem, hcomponents]
      by_cases hlast : isSilent last = true
      · -- The last part adds no component.
        have hlist : ∀ cs : List Component,
            .name name ∈ cs ↔ .name name ∈ cs.dropLast ∨ cs.getLast? = some (.name name) := by
          intro cs
          rcases List.eq_nil_or_concat cs with rfl | ⟨init, c, rfl⟩ <;> simp [eq_comm]
        rw [List.filterMap_cons_none (component?_of_isSilent hlast), List.filterMap_nil,
          List.append_nil, hlist]
        simp [hlast]
      · obtain ⟨c, hc, -⟩ := component?_of_not_isSilent hlast
        rw [List.filterMap_cons_some hc, List.filterMap_nil, List.dropLast_concat]
        simp [hlast]

end Path

/-! ### Exclusions of directories -/

theorem Glob.isMatch_iff_spells {name : String} (h : IsPlain name.toList) (p : Path) :
    isMatch ("**/" ++ name ++ "/**") p.text = true ↔ p.Spells name :=
  isMatch_anywhere_iff h p.text

namespace Survey

section directories

variable {s : Survey} {names : List String}
  (hexcludes : s.excludes = names.map fun name => "**/" ++ name ++ "/**")
  (hnames : ∀ name ∈ names, Glob.IsPlain name.toList ∧ '/' ∉ name.toList)
include hexcludes hnames

theorem any_isMatch_iff_spells (path : Path) :
    (s.excludes.any fun pattern => Glob.isMatch pattern path.text) = true ↔
      ∃ name ∈ names, path.Spells name := by
  rw [hexcludes, List.any_map, List.any_eq_true]
  exact exists_congr fun name => and_congr_right fun hname =>
    Glob.isMatch_iff_spells (hnames name hname).1 path

omit hexcludes in
/-- What remains of a path below the root spells no name that the path does not spell. -/
theorem spells_of_spells_relative {name : String} (hname : name ∈ names) {path : Path}
    (h : ((Path.stripAncestor s.root path).getD path).Spells name) : path.Spells name := by
  have hslash := (hnames name hname).2
  rw [Path.spells_iff hslash] at h ⊢
  unfold Path.stripAncestor at h
  split at h
  · exact Path.mem_dropLast_parts_after h
  · exact h

theorem isExcluded_iff_spells (path : Path) :
    s.isExcluded path = true ↔ ∃ name ∈ names, path.Spells name := by
  rw [isExcluded, hexcludes, List.any_map, List.any_eq_true]
  refine exists_congr fun name => and_congr_right fun hname => ?_
  have hplain := (hnames name hname).1
  rw [Function.comp_apply, Bool.or_eq_true, Glob.isMatch_iff_spells hplain,
    Glob.isMatch_iff_spells hplain, or_iff_left_of_imp (spells_of_spells_relative hnames hname)]

/-- A path is excluded for a component in front of the last one; or for the last one, if the path
goes on behind it. -/
theorem isExcluded_iff_mem_components
    (hmeaning : ∀ name ∈ names, Path.isSilent name.toList = false ∧ name.toList ≠ ['.', '.'])
    (path : Path) :
    s.isExcluded path = true ↔ ∃ name ∈ names, .name name ∈ path.components.dropLast ∨
      path.components.getLast? = some (.name name) ∧ path.GoesOn := by
  rw [isExcluded_iff_spells hexcludes hnames]
  refine exists_congr fun name => and_congr_right fun hname => ?_
  obtain ⟨hsilent, hparent⟩ := hmeaning name hname
  rw [Path.spells_iff (hnames name hname).2, Path.mem_dropLast_parts_iff hsilent hparent]

end directories

/-! ### What is excluded by default -/

theorem defaultExcludes_eq_map : AnalyzerConfig.defaultExcludes =
    ["vendor", "node_modules"].map fun name => "**/" ++ name ++ "/**" :=
  rfl

theorem isPlain_of_mem_defaults : ∀ name ∈ ["vendor", "node_modules"],
    Glob.IsPlain name.toList ∧ '/' ∉ name.toList := by
  decide

/-- **What is excluded by default.**  A path is excluded if it spells `vendor/` or `node_modules/`
at its beginning or right behind a slash, whichever of its parts are those of the root.  What
remains of it below the root excludes nothing more.  So one of the names has to be a component of
the path, and not the last one unless the path goes on behind it in a slash or in a slash and a
dot. -/
theorem isExcluded_default_iff (s : Survey)
    (hdefault : s.excludes = AnalyzerConfig.defaultExcludes) (path : Path) :
    (s.isExcluded path = true ↔ ∃ name ∈ ["vendor", "node_modules"], ∃ before after,
      path.text = before ++ name ++ "/" ++ after ∧
        (before = "" ∨ ∃ front, before = front ++ "/")) ∧
    s.isExcluded path = s.excludes.any (fun pattern => Glob.isMatch pattern path.text) ∧
    (s.isExcluded path = true ↔ ∃ name ∈ ["vendor", "node_modules"],
      .name name ∈ path.components.dropLast ∨
        path.components.getLast? = some (.name name) ∧ path.GoesOn) := by
  have hexcludes := hdefault.trans defaultExcludes_eq_map
  refine ⟨?_, ?_, ?_⟩
  · exact isExcluded_iff_spells hexcludes isPlain_of_mem_defaults path
  · rw [Bool.eq_iff_iff, isExcluded_iff_spells hexcludes isPlain_of_mem_defaults,
      any_isMatch_iff_spells hexcludes isPlain_of_mem_defaults]
  · exact isExcluded_iff_mem_components hexcludes isPlain_of_mem_defaults (by decide) path

/-- A survey of a package: of all its paths none is left, and next to it one may be called so. -/
theorem isExcluded_default_iff_package :
    let s : Survey := ⟨⟨"/srv/vendor/app"⟩, AnalyzerConfig.defaultIncludes,
      AnalyzerConfig.defaultExcludes, [], .default, .conventions, false⟩
    s.excludes = AnalyzerConfig.defaultExcludes ∧
      s.isExcluded ⟨"/srv/vendor/app/Day.model.json"⟩ = true ∧
      Path.stripAncestor s.root ⟨"/srv/vendor/app/Day.model.json"⟩ = some ⟨"Day.model.json"⟩ ∧
      s.isExcluded ⟨"/srv/myvendor/vendored/vendor"⟩ = false := by
  intro s
  refine ⟨rfl, ?_, by decide +kernel, ?_⟩
  · exact (isExcluded_default_iff s rfl _).1.mpr ⟨"vendor", by decide, "/srv/",
      "app/Day.model.json", by decide, .inr ⟨"/srv", by decide⟩⟩
  · rw [Bool.eq_false_iff, ne_eq, (isExcluded_default_iff s rfl _).2.2]
    decide +kernel

/-- A directory of one of the names is excluded under a path that goes on behind the name, though
not under the path that ends in the name; all three paths have the same components, the name being
the last one. -/
theorem isExcluded_default_goesOn :
    let s : Survey := ⟨⟨"/app"⟩, AnalyzerConfig.defaultIncludes,
      AnalyzerConfig.defaultExcludes, [], .default, .conventions, false⟩
    (∀ path ∈ [Path.mk "/app/vendor", ⟨"/app/vendor/"⟩, ⟨"/app/vendor/."⟩],
        path.components = [.root, .name "app", .name "vendor"] ∧
          Path.stripAncestor s.root path = some ⟨"vendor"⟩) ∧
      s.isExcluded ⟨"/app/vendor"⟩ = false ∧
      s.isExcluded ⟨"/app/vendor/"⟩ = true ∧ s.isExcluded ⟨"/app/vendor/."⟩ = true := by
  intro s
  have hiff := fun path => isExcluded_iff_mem_components (s := s) defaultExcludes_eq_map
    isPlain_of_mem_defaults (by decide) path
  refine ⟨by decide +kernel, ?_, ?_, ?_⟩
  · rw [Bool.eq_false_iff, ne_eq, hiff]
    decide +kernel
  · rw [hiff]
    decide +kernel
  · rw [hiff]
    decide +kernel

end Survey

end EntityConventions
