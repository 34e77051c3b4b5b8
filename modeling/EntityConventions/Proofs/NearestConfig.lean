import EntityConventions.Environment
import EntityConventions.Proofs.CanonicalPlaces

/-! # The nearest configuration

A directory holds a configuration if there is a regular file under one of two names in it
(`ConfigSource.HasConfig`).  Above the models the search goes up one directory at a time
(`ConfigSource.isNearest_concat_iff`), and so it finds the nearest one that holds a configuration,
whichever of the two names is used farther up; the names are compared in one directory only
(`ConfigSource.nearest?_eq_some_iff`).

If no directory on the way holds one, the user's own file counts where it exists, and otherwise
nothing is configured (`ConfigSource.resolve_nearest`). -/

namespace EntityConventions.ConfigSource

open FileTree

/-! ### Configuration files in a directory -/

/-- There is a regular file in a directory under a name. -/
def Contains (p : Project) (directory : Place) (name : String) : Prop :=
  p.tree.isFile p.current (pathOf (directory ++ [name])) = true

/-- A directory has a configuration, under one of two names. -/
def HasConfig (p : Project) (directory : Place) : Prop :=
  Contains p directory "entity-lint.toml" ∨ Contains p directory ".entity-lint.toml"

/-- The name of the configuration file in a directory: the one without a dot, if both are there. -/
def IsConfigName (p : Project) (directory : Place) (name : String) : Prop :=
  Contains p directory name ∧
    (name = "entity-lint.toml" ∨
      name = ".entity-lint.toml" ∧ ¬ Contains p directory "entity-lint.toml")

variable {p : Project} {place : Place}

theorem hasConfig_iff : HasConfig p place ↔ ∃ name, IsConfigName p place name := by
  constructor
  · intro h
    by_cases hplain : Contains p place "entity-lint.toml"
    · exact ⟨_, hplain, .inl rfl⟩
    · exact ⟨_, h.resolve_left hplain, .inr ⟨rfl, hplain⟩⟩
  · rintro ⟨name, hname, rfl | ⟨rfl, -⟩⟩
    · exact .inl hname
    · exact .inr hname

theorem isName_of_mem_fileNames : ∀ name ∈ fileNames, IsName name := by
  decide

/-- The names are tried in their order. -/
theorem fileIn?_eq_some_iff (h : ∀ n ∈ place, IsName n) {path : Path} :
    fileIn? p (pathOf place) = some path ↔
      ∃ name, IsConfigName p place name ∧ path = pathOf (place ++ [name]) := by
  have hpaths : (fileNames.map fun name => (pathOf place).join ⟨name⟩) =
      fileNames.map fun name => pathOf (place ++ [name]) :=
    List.map_congr_left fun name hname => join_pathOf h (isName_of_mem_fileNames name hname)
  have hfound : fileIn? p (pathOf place) =
      if p.tree.isFile p.current (pathOf (place ++ ["entity-lint.toml"])) then
        some (pathOf (place ++ ["entity-lint.toml"]))
      else if p.tree.isFile p.current (pathOf (place ++ [".entity-lint.toml"])) then
        some (pathOf (place ++ [".entity-lint.toml"]))
      else none := by
    rw [fileIn?, hpaths, fileNames, List.map_cons, List.map_cons, List.map_nil, List.find?_cons,
      List.find?_cons]
    grind
  rw [hfound]
  unfold IsConfigName Contains
  grind

theorem fileIn?_eq_none_iff (h : ∀ n ∈ place, IsName n) :
    fileIn? p (pathOf place) = none ↔ ¬ HasConfig p place := by
  rw [hasConfig_iff, Option.eq_none_iff_forall_ne_some]
  simp only [ne_eq, fileIn?_eq_some_iff h, not_exists, not_and]
  exact ⟨fun hnone name hname => hnone _ name hname rfl,
    fun hnone _ name hname => absurd hname (hnone name)⟩

/-! ### Going up -/

/-- The nearest configuration file at or above a place. -/
structure IsNearest (p : Project) (place directory : Place) (name : String) : Prop where
  above : directory <+: place
  named : IsConfigName p directory name
  nearest : ∀ between, directory <+: between → between <+: place → between ≠ directory →
    ¬ HasConfig p between

theorem isNearest_nil_iff {file : String} {directory : Place} :
    IsNearest p [] directory file ↔ directory = [] ∧ IsConfigName p directory file := by
  constructor
  · rintro ⟨habove, hnamed, -⟩
    exact ⟨List.prefix_nil.mp habove, hnamed⟩
  · rintro ⟨rfl, hnamed⟩
    exact ⟨List.prefix_rfl, hnamed, fun between _ hup hne => absurd (List.prefix_nil.mp hup) hne⟩

/-- A configuration in a directory is the nearest one there, and otherwise it is the one that is the
nearest to the directory above. -/
theorem isNearest_concat_iff {name file : String} {directory : Place} :
    IsNearest p (place ++ [name]) directory file ↔
      (directory = place ++ [name] ∧ IsConfigName p directory file) ∨
        ¬ HasConfig p (place ++ [name]) ∧ IsNearest p place directory file := by
  constructor
  · rintro ⟨habove, hnamed, hnearest⟩
    rcases List.prefix_concat_iff.mp habove with heq | habove'
    · exact .inl ⟨heq, hnamed⟩
    · refine .inr ⟨hnearest _ habove List.prefix_rfl ?_, habove', hnamed, fun between hdown hup => ?_⟩
      · rintro rfl
        simpa using habove'.length_le
      · exact hnearest between hdown (hup.trans (List.prefix_append _ _))
  · rintro (⟨rfl, hnamed⟩ | ⟨hnone, habove, hnamed, hnearest⟩)
    · refine ⟨List.prefix_rfl, hnamed, fun between hdown hup hne => ?_⟩
      exact absurd (hup.eq_of_length_le hdown.length_le) hne
    · refine ⟨habove.trans (List.prefix_append _ _), hnamed, fun between hdown hup hne => ?_⟩
      rcases List.prefix_concat_iff.mp hup with rfl | hup
      · exact hnone
      · exact hnearest between hdown hup hne

/-- Going up from a place, the first configuration file is the nearest one. -/
theorem findSome?_ancestors_eq_some_iff (h : ∀ n ∈ place, IsName n) {path : Path} :
    (pathOf place).ancestors.findSome? (fileIn? p) = some path ↔
      ∃ directory name, IsNearest p place directory name ∧ path = pathOf (directory ++ [name]) := by
  induction place using List.reverseRecOn with
  | nil =>
      have hroot : (pathOf []).ancestors = [pathOf []] := rfl
      rw [hroot, List.findSome?_singleton, fileIn?_eq_some_iff h]
      simp only [isNearest_nil_iff, and_assoc, exists_and_left, exists_eq_left]
  | append_singleton place name ih =>
      obtain ⟨hplace, hname⟩ := List.forall_mem_append.mp h
      have hname := hname name (List.mem_singleton_self name)
      rw [ancestors_pathOf_concat hplace hname, List.findSome?_cons]
      cases hfile : fileIn? p (pathOf (place ++ [name])) with
      | some file =>
          have hconfig : HasConfig p (place ++ [name]) := by
            by_contra hnone
            rw [(fileIn?_eq_none_iff h).mpr hnone] at hfile
            cases hfile
          have hpath := @fileIn?_eq_some_iff p _ h path
          rw [hfile] at hpath
          simp only [isNearest_concat_iff, hconfig, not_true_eq_false, false_and, or_false,
            and_assoc, exists_and_left, exists_eq_left]
          exact hpath
      | none =>
          have hnone := (fileIn?_eq_none_iff h).mp hfile
          have hunnamed : ∀ file, ¬ IsConfigName p (place ++ [name]) file := fun file hnamed =>
            hnone (hasConfig_iff.mpr ⟨file, hnamed⟩)
          have hup : ∀ directory file, IsNearest p (place ++ [name]) directory file ↔
              IsNearest p place directory file := by
            intro directory file
            rw [isNearest_concat_iff, and_iff_right hnone, or_iff_right]
            rintro ⟨rfl, hnamed⟩
            exact hunnamed file hnamed
          simp only [hup]
          exact ih hplace

/-! ### From a canonical directory -/

/-- A directory under its canonical path, and the place that it is at. -/
structure IsCanonical (p : Project) (directory : Path) (place : Place) : Prop where
  canonical : p.tree.canonical? p.current directory = some directory
  follow : p.tree.follow p.current directory = .ok place
  isDirectory : p.tree.isDirectoryAt place = true

section canonical

variable {directory : Path} (h : IsCanonical p directory place)
include h

theorem IsCanonical.eq_pathOf : directory = pathOf place := by
  have hcanonical := h.canonical
  rw [canonical?, h.follow] at hcanonical
  exact (Option.some.inj hcanonical).symm

theorem IsCanonical.isName : ∀ n ∈ place, IsName n :=
  isName_of_follow (h.eq_pathOf ▸ isAbsolute_pathOf place) h.follow

theorem IsCanonical.node?_eq : p.tree.node? place = some .directory := by
  have hdirectory := h.isDirectory
  unfold isDirectoryAt at hdirectory
  split at hdirectory
  · assumption
  · cases hdirectory

theorem IsCanonical.leads : p.tree.Leads place := by
  have hfollow := h.follow
  rw [h.eq_pathOf, follow_pathOf h.isName] at hfollow
  exact hfollow

/-- On the way down to a canonical directory, a directory contains what the tree has there. -/
theorem contains_iff {above : Place} (habove : above <+: place) {name : String}
    (hname : IsName name) :
    Contains p above name ↔ admits (pathOf (above ++ [name])) = true ∧
      ∃ content, p.tree.node? (above ++ [name]) = some (.file content) := by
  obtain ⟨hleads, hdirectory⟩ := leads_of_isPrefix h.isName h.leads h.node?_eq habove
  exact isFile_pathOf_concat_iff (fun n hn => h.isName n (habove.subset hn)) hname hleads hdirectory

theorem nearest?_eq : nearest? p directory = (pathOf place).ancestors.findSome? (fileIn? p) := by
  have htext : directory.text ≠ "" :=
    Path.text_ne_empty_of_isAbsolute (h.eq_pathOf ▸ isAbsolute_pathOf place)
  unfold nearest?
  dsimp only
  rw [if_neg htext, h.canonical, Option.getD_some, ← h.eq_pathOf]

theorem nearest?_eq_some_iff {path : Path} :
    nearest? p directory = some path ↔
      ∃ above name, IsNearest p place above name ∧ path = pathOf (above ++ [name]) := by
  rw [nearest?_eq h, findSome?_ancestors_eq_some_iff h.isName]

theorem nearest?_eq_none_iff :
    nearest? p directory = none ↔ ¬ ∃ above, above <+: place ∧ HasConfig p above := by
  rw [nearest?_eq h, List.findSome?_eq_none_iff]
  simp only [mem_ancestors_pathOf_iff h.isName, not_exists, not_and]
  constructor
  · intro hnone above habove
    have hnames : ∀ n ∈ above, IsName n := fun n hn => h.isName n (habove.subset hn)
    exact (fileIn?_eq_none_iff hnames).mp (hnone _ ⟨above, habove, rfl⟩)
  · rintro hnone _ ⟨above, habove, rfl⟩
    have hnames : ∀ n ∈ above, IsName n := fun n hn => h.isName n (habove.subset hn)
    exact (fileIn?_eq_none_iff hnames).mpr (hnone above habove)

end canonical

/-! ### The order of the sources -/

/-- The user's own configuration file, where it exists. -/
def ownFile? (p : Project) (globalDirectory : Option Path) : Option Path :=
  (globalDirectory.map fun own => own.join ⟨globalFileName⟩).filter (p.tree.isFile p.current)

section sources

variable {directory path : Path} {globalDirectory : Option Path}

theorem ownFile?_eq_some_iff :
    ownFile? p globalDirectory = some path ↔ ∃ own, globalDirectory = some own ∧
      path = own.join ⟨"config.toml"⟩ ∧ p.tree.isFile p.current path = true := by
  unfold ownFile?
  rw [Option.filter_eq_some_iff, Option.map_eq_some_iff]
  constructor
  · rintro ⟨⟨own, hown, rfl⟩, hfile⟩
    exact ⟨own, hown, rfl, hfile⟩
  · rintro ⟨own, hown, rfl, hfile⟩
    exact ⟨⟨own, hown, rfl⟩, hfile⟩

/-- The nearest file wins over the user's own one, and that wins over none. -/
theorem resolve_none_eq :
    resolve p directory none globalDirectory =
      match nearest? p directory, ownFile? p globalDirectory with
      | some file, _ => .project file
      | none, some file => .global file
      | none, none => .defaults := by
  unfold resolve ownFile?
  cases nearest? p directory with
  | some file => rfl
  | none =>
      cases globalDirectory with
      | none => rfl
      | some own =>
          cases hfile : p.tree.isFile p.current (own.join ⟨globalFileName⟩) with
          | true => simp [Option.filter_some, hfile]
          | false => simp [Option.filter_some, hfile]

theorem resolve_eq_project_iff :
    resolve p directory none globalDirectory = .project path ↔ nearest? p directory = some path := by
  rw [resolve_none_eq]
  cases nearest? p directory <;> cases ownFile? p globalDirectory <;> simp

theorem resolve_eq_global_iff :
    resolve p directory none globalDirectory = .global path ↔
      nearest? p directory = none ∧ ownFile? p globalDirectory = some path := by
  rw [resolve_none_eq]
  cases nearest? p directory <;> cases ownFile? p globalDirectory <;> simp

theorem resolve_eq_defaults_iff :
    resolve p directory none globalDirectory = .defaults ↔
      nearest? p directory = none ∧ ownFile? p globalDirectory = none := by
  rw [resolve_none_eq]
  cases nearest? p directory <;> cases ownFile? p globalDirectory <;> simp

end sources

/-- **Where a configuration comes from.**  For a canonical directory it comes from the project
exactly if the directory or one above it has a configuration file, and then from the nearest one,
under the name without a dot if that directory has both.  Otherwise it is the user's own file exactly
if there is one, and else the default.  The files are those that the tree has on the way.  A path that
is given wins over all of them. -/
theorem resolve_nearest {directory : Path} (h : IsCanonical p directory place)
    (globalDirectory : Option Path) :
    ((∃ path, resolve p directory none globalDirectory = .project path) ↔
      ∃ above, above <+: place ∧ HasConfig p above) ∧
    (∀ path, resolve p directory none globalDirectory = .project path ↔
      ∃ above name, IsNearest p place above name ∧ path = pathOf (above ++ [name])) ∧
    (∀ path, resolve p directory none globalDirectory = .global path ↔
      (¬ ∃ above, above <+: place ∧ HasConfig p above) ∧
        ∃ own, globalDirectory = some own ∧ path = own.join ⟨"config.toml"⟩ ∧
          p.tree.isFile p.current path = true) ∧
    (resolve p directory none globalDirectory = .defaults ↔
      (¬ ∃ above, above <+: place ∧ HasConfig p above) ∧
        ¬ ∃ own, globalDirectory = some own ∧
          p.tree.isFile p.current (own.join ⟨"config.toml"⟩) = true) ∧
    (∀ above name, above <+: place → IsName name →
      (Contains p above name ↔ admits (pathOf (above ++ [name])) = true ∧
        ∃ content, p.tree.node? (above ++ [name]) = some (.file content))) ∧
    ∀ (q : Project) (start explicit : Path) (own : Option Path),
      resolve q start (some explicit) own = .explicit explicit := by
  have hnone := nearest?_eq_none_iff h
  refine ⟨?_, fun path => ?_, fun path => ?_, ?_,
    fun above name habove hname => contains_iff h habove hname, fun q start explicit own => rfl⟩
  · simp only [resolve_eq_project_iff]
    rw [← not_iff_not, ← hnone, Option.eq_none_iff_forall_ne_some, not_exists]
  · rw [resolve_eq_project_iff, nearest?_eq_some_iff h]
  · rw [resolve_eq_global_iff, hnone, ownFile?_eq_some_iff]
  · rw [resolve_eq_defaults_iff, hnone, Option.eq_none_iff_forall_ne_some]
    simp only [ne_eq, ownFile?_eq_some_iff]
    grind

/-- Models below a directory with two configuration files, under a root that has one as well. -/
def nestedTree : FileTree :=
  (((FileTree.empty.addFile ["entity-lint.toml"] "".toUTF8).addFile
    ["app", ".entity-lint.toml"] "".toUTF8).addFile ["app", "entity-lint.toml"] "".toUTF8).addFile
    ["app", "models", "day.model.json"] "{}".toUTF8

theorem isCanonical_nested :
    IsCanonical ⟨nestedTree, []⟩ ⟨"/app/models"⟩ ["app", "models"] :=
  ⟨by decide +kernel, rfl, by decide +kernel⟩

theorem isNearest_nested :
    IsNearest ⟨nestedTree, []⟩ ["app", "models"] ["app"] "entity-lint.toml" := by
  have hmodels : ¬ HasConfig ⟨nestedTree, []⟩ ["app", "models"] := by
    unfold HasConfig Contains
    decide +kernel
  have happ : Contains ⟨nestedTree, []⟩ ["app"] "entity-lint.toml" := by
    unfold Contains
    decide +kernel
  have hhere : IsNearest ⟨nestedTree, []⟩ ([] ++ ["app"]) ["app"] "entity-lint.toml" :=
    isNearest_concat_iff.mpr (.inl ⟨rfl, happ, .inl rfl⟩)
  exact isNearest_concat_iff.mpr (.inr ⟨hmodels, hhere⟩)

/-- The configuration comes from the directory above the models, and not from the root. -/
theorem resolve_nearest_nested :
    IsCanonical ⟨nestedTree, []⟩ ⟨"/app/models"⟩ ["app", "models"] ∧
      IsNearest ⟨nestedTree, []⟩ ["app", "models"] ["app"] "entity-lint.toml" ∧
      resolve ⟨nestedTree, []⟩ ⟨"/app/models"⟩ none (some ⟨"/app"⟩) =
        .project ⟨"/app/entity-lint.toml"⟩ ∧
      resolve ⟨nestedTree, []⟩ ⟨"/app/models"⟩ none (some ⟨"/app"⟩) ≠ .defaults ∧
      ∃ content, nestedTree.node? ["entity-lint.toml"] = some (.file content) := by
  obtain ⟨-, hproject, -, hdefaults, hcontains, -⟩ :=
    resolve_nearest isCanonical_nested (some ⟨"/app"⟩)
  have hroot : Contains ⟨nestedTree, []⟩ [] "entity-lint.toml" := by
    unfold Contains
    decide +kernel
  have hname := isName_of_mem_fileNames "entity-lint.toml" (by decide)
  refine ⟨isCanonical_nested, isNearest_nested, ?_, fun heq => ?_, ?_⟩
  · exact (hproject _).mpr ⟨["app"], "entity-lint.toml", isNearest_nested, rfl⟩
  · exact (hdefaults.mp heq).1 ⟨[], List.nil_prefix, .inl hroot⟩
  · exact ((hcontains [] _ List.nil_prefix hname).mp hroot).2

end EntityConventions.ConfigSource
