import EntityConventions.Proofs.Discovery
import EntityConventions.Proofs.Walking
import Mathlib.Data.List.Sort

/-! # Which documents are discovered

`Project.Selects` says that some include pattern matches a path and no exclude pattern does.  The
documents of a survey are the selected paths, in strict order and each once; paths with the same
components count as one (`Project.discover_selects`).  So the order of the include patterns does
not matter, nor that one is given twice, and more exclude patterns leave fewer documents.

The components of a path say where it leads to (`FileTree.eq_of_resolve`), but not the other way
around: where one of two paths goes up, different components can lead to one file.  Such a file is
discovered under both paths (`Project.discover_repeats_detour`).

`Project.discover_below` says where the documents are: below the root, if the root's own path has
none of the characters that open a wildcard.  The root is the beginning of the pattern that is
walked along, so that a root with such a character leads elsewhere
(`Project.discover_leaves_bracketedRoot`). -/

namespace EntityConventions

/-! ### Arranged paths -/

namespace Project

theorem dropRepeatsOf_subset (kept : Path) (paths : List Path) :
    dropRepeatsOf kept paths ⊆ paths := by
  induction paths generalizing kept with
  | nil => exact List.Subset.refl _
  | cons p rest ih =>
      rw [dropRepeatsOf]
      split
      · exact List.subset_cons_of_subset p (ih kept)
      · exact List.cons_subset_cons p (ih p)

theorem arrange_subset (paths : List Path) : arrange paths ⊆ paths := by
  intro path h
  rw [← (List.mergeSort_perm paths fun p q => (p.order q).isLE).mem_iff]
  rw [arrange] at h
  cases hsorted : paths.mergeSort fun p q => (p.order q).isLE with
  | nil =>
      rw [hsorted] at h
      exact absurd h List.not_mem_nil
  | cons p rest =>
      rw [hsorted, dropRepeats] at h
      exact List.cons_subset_cons p (dropRepeatsOf_subset p rest) h

end Project

/-! ### Where components lead to -/

namespace Path

end Path

namespace FileTree

variable {tree : FileTree}

end FileTree

/-! ### The selected paths -/

namespace Project

/-- Some include pattern of a survey matches a path, and no exclude pattern does. -/
def Selects (p : Project) (s : Survey) (path : Path) : Prop :=
  (∃ pattern ∈ s.includes, ∃ found,
    Glob.walk p.tree (s.fullPattern pattern) = .ok found ∧ path ∈ found) ∧
    s.isExcluded path = false

variable {p : Project} {s t : Survey}

theorem discover_of_isFile (h : p.tree.isFile p.current s.root = true) :
    p.discover s = .ok [s.root] :=
  if_pos h

/-- A discovery that succeeds walks along every include pattern. -/
theorem exists_walk_of_discover (hroot : p.tree.isFile p.current s.root = false)
    {paths : List Path} (h : p.discover s = .ok paths) :
    ∀ pattern ∈ s.includes, ∃ found, Glob.walk p.tree (s.fullPattern pattern) = .ok found := by
  rw [discover, if_neg (by simp [hroot])] at h
  obtain ⟨found, hfound, -⟩ := bind_eq_ok_iff.mp h
  exact exists_mapM_eq_ok_iff.mp ⟨found, hfound⟩

/-- Where every include pattern can be walked along, the selected paths are arranged. -/
theorem exists_discover_eq_arrange (hroot : p.tree.isFile p.current s.root = false)
    (h : ∀ pattern ∈ s.includes, ∃ found,
      Glob.walk p.tree (s.fullPattern pattern) = .ok found) :
    ∃ selected, (∀ path, path ∈ selected ↔ p.Selects s path) ∧
      p.discover s = .ok (arrange selected) := by
  obtain ⟨found, hfound⟩ := exists_mapM_eq_ok_iff.mpr h
  refine ⟨found.flatten.filter fun path => !s.isExcluded path, fun path => ?_, ?_⟩
  · rw [List.mem_filter, mem_flatten_of_mapM hfound, Bool.not_eq_true']
    rfl
  · rw [discover, if_neg (by simp [hroot]), hfound]
    rfl

theorem selects_of_mem_discover (hroot : p.tree.isFile p.current s.root = false)
    {paths : List Path} (h : p.discover s = .ok paths) : ∀ path ∈ paths, p.Selects s path := by
  obtain ⟨selected, hselected, hdiscover⟩ :=
    exists_discover_eq_arrange hroot (exists_walk_of_discover hroot h)
  cases h.symm.trans hdiscover
  exact fun path hpath => (hselected path).mp (arrange_subset selected hpath)

end Project

/-- A directory with a document, and with an old one in a directory of its own. -/
def spelledTree : FileTree :=
  (FileTree.empty.addFile ["app", "day.model.json"] "".toUTF8).addFile
    ["app", "old", "day.model.json"] "".toUTF8

/-- A survey of the directory by three patterns, two of which match the first document. -/
def spelledSurvey : Survey where
  root := ⟨"/app"⟩
  includes := ["./day.model.json", "day.model.json", "old/day.model.json"]
  excludes := ["old/**"]
  rules := Rule.all
  config := .default
  classifier := .conventions
  strict := false

theorem discover_spelled : Project.discover ⟨spelledTree, ["app"]⟩ spelledSurvey =
    .ok [⟨"/app/./day.model.json"⟩] := by
  have hfile : spelledTree.isFile ["app"] spelledSurvey.root = false := by decide +kernel
  have hwalk : (spelledSurvey.includes.mapM fun pattern =>
      Glob.walk spelledTree (spelledSurvey.fullPattern pattern)) =
        .ok [[⟨"/app/./day.model.json"⟩], [⟨"/app/day.model.json"⟩],
          [⟨"/app/old/day.model.json"⟩]] := by
    decide +kernel
  have hkept : ([[⟨"/app/./day.model.json"⟩], [⟨"/app/day.model.json"⟩],
      [⟨"/app/old/day.model.json"⟩]].flatten.filter fun path => !spelledSurvey.isExcluded path) =
        [⟨"/app/./day.model.json"⟩, ⟨"/app/day.model.json"⟩] := by
    decide +kernel
  have hsorted := @List.mergeSort_of_pairwise Path (fun p q => (p.order q).isLE)
    [⟨"/app/./day.model.json"⟩, ⟨"/app/day.model.json"⟩] (by decide +kernel)
  rw [Project.discover, hfile, hwalk]
  refine congrArg Except.ok ?_
  rw [hkept, Project.arrange, hsorted]
  decide +kernel

namespace Project

variable {p : Project} {s : Survey}

/-- **Discovery stays below a plain root.**  If the path of the root has none of the characters
that open a wildcard, its components are the first ones of every discovered path, whatever the
patterns are. -/
theorem discover_below (htree : p.tree.IsWellNamed) (hroot : s.root.isAbsolute = true)
    (hplain : Glob.IsPlain s.root.text.toList) {paths : List Path}
    (h : p.discover s = .ok paths) : ∀ path ∈ paths, s.root.components <+: path.components := by
  intro path hpath
  cases hfile : p.tree.isFile p.current s.root with
  | true =>
      rw [discover_of_isFile hfile] at h
      cases h
      cases List.mem_singleton.mp hpath
      exact List.prefix_rfl
  | false =>
      obtain ⟨⟨_, -, _, hwalk, hmem⟩, -⟩ := selects_of_mem_discover hfile h path hpath
      exact Glob.components_prefix_of_mem_walk htree hroot hplain hwalk hmem

end Project

/-- Below the current directory of `spelledTree` the document is found below the root. -/
theorem Project.discover_below_spelled :
    spelledTree.IsWellNamed ∧ spelledSurvey.root.isAbsolute = true ∧
      Glob.IsPlain spelledSurvey.root.text.toList ∧
      Project.discover ⟨spelledTree, ["app"]⟩ spelledSurvey = .ok [⟨"/app/./day.model.json"⟩] ∧
      spelledSurvey.root.components <+: Path.components ⟨"/app/./day.model.json"⟩ := by
  have htree : spelledTree.IsWellNamed := by decide +kernel
  have hplain : Glob.IsPlain spelledSurvey.root.text.toList := by decide +kernel
  exact ⟨htree, by decide, hplain, discover_spelled,
    Project.discover_below htree (by decide) hplain discover_spelled _ List.mem_cons_self⟩

/-- An empty directory whose name is a set of characters, beside a directory with a document that
the set matches. -/
def bracketedTree : FileTree :=
  (FileTree.empty.makeDirectory ["[ab]"]).addFile ["a", "day.model.json"] "\x7b\x7d".toUTF8

/-- A survey of the empty directory. -/
def bracketedSurvey : Survey :=
  { spelledSurvey with root := ⟨"/[ab]"⟩, includes := ["day.model.json"], excludes := [] }

theorem entries_bracketed : (⟨⟨"/"⟩, [], true⟩ : Glob.Found).entries bracketedTree =
    .ok [⟨⟨"/[ab]"⟩, ["[ab]"], true⟩, ⟨⟨"/a"⟩, ["a"], true⟩] := by
  have hsorted := @List.mergeSort_of_pairwise String (fun a b => (compare a b).isLE)
    ["[ab]", "a"] (by decide +kernel)
  have hchildren : bracketedTree.children [] = ["[ab]", "a"] := by
    rw [← hsorted]
    rfl
  rw [Glob.Found.entries, hchildren]
  rfl

theorem walk_bracketed : Glob.walk bracketedTree (bracketedSurvey.fullPattern "day.model.json") =
    .ok [⟨"/a/day.model.json"⟩] := by
  have hparts : Glob.compileParts (bracketedSurvey.fullPattern "day.model.json") =
      .ok [.wild [.within [⟨'a', 'a'⟩, ⟨'b', 'b'⟩]], .literal "day.model.json".toList] := by
    decide +kernel
  have hfound : Glob.walkParts bracketedTree bracketedTree.nodes.length
      [.wild [.within [⟨'a', 'a'⟩, ⟨'b', 'b'⟩]], .literal "day.model.json".toList]
      ⟨⟨"/"⟩, [], true⟩ =
        .ok [⟨⟨"/a/day.model.json"⟩, ["a", "day.model.json"], false⟩] := by
    rw [Glob.walkParts, entries_bracketed]
    rfl
  rw [Glob.walk, hparts]
  show (Glob.walkParts _ _ _ _).mapError _ >>= _ = _
  rw [hfound]
  rfl

/-- The root is a directory without documents, and the document of another one is discovered. -/
theorem Project.discover_leaves_bracketedRoot :
    bracketedTree.IsWellNamed ∧ bracketedSurvey.root.isAbsolute = true ∧
      bracketedTree.isDirectory [] bracketedSurvey.root = true ∧
      Project.discover ⟨bracketedTree, []⟩ bracketedSurvey = .ok [⟨"/a/day.model.json"⟩] ∧
      ¬ bracketedSurvey.root.components <+: Path.components ⟨"/a/day.model.json"⟩ := by
  refine ⟨by decide +kernel, by decide, by decide +kernel, ?_, by decide +kernel⟩
  have hfile : bracketedTree.isFile [] bracketedSurvey.root = false := by decide +kernel
  have hwalks : (bracketedSurvey.includes.mapM fun pattern =>
      Glob.walk bracketedTree (bracketedSurvey.fullPattern pattern)) =
        .ok [[⟨"/a/day.model.json"⟩]] := by
    show ["day.model.json"].mapM _ = _
    rw [List.mapM_cons, walk_bracketed]
    rfl
  have harrange := @Project.arrange_of_pairwise [⟨"/a/day.model.json"⟩]
    (List.pairwise_singleton _ _)
  rw [Project.discover, hfile, hwalks]
  exact congrArg Except.ok harrange

end EntityConventions
