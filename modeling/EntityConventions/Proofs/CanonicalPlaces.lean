import EntityConventions.Proofs.Selection
import EntityConventions.Proofs.Spellings
import Mathlib.Data.List.Induction

/-! # Places and their paths

The names on the way to a place are names of files (`FileTree.IsName`): they are followed as they
stand, and nothing else is, since silent parts and `..` leave no name behind
(`FileTree.isName_of_follow`).

The path of a place with such names spells each of them between two slashes.  So the paths above it
are those of the places above it (`FileTree.ancestors_pathOf_concat`), a name that is joined goes one
place down (`FileTree.join_pathOf`), and the path leads to the place if there are directories all
the way (`FileTree.leads_concat_iff`). -/

namespace EntityConventions

namespace FileTree

/-! ### Names of files -/

/-- What can be a name in a directory: a text that a part of a path spells and that means neither the
directory itself nor the one above, and that is not too long. -/
structure IsName (name : String) : Prop where
  slash : '/' ∉ name.toList
  nul : '\x00' ∉ name.toList
  silent : ¬ Path.isSilent name.toList = true
  up : name.toList ≠ ['.', '.']
  size : name.utf8ByteSize ≤ nameLimit

instance (name : String) : Decidable (IsName name) :=
  decidable_of_iff ('/' ∉ name.toList ∧ '\x00' ∉ name.toList ∧ ¬ Path.isSilent name.toList = true ∧
      name.toList ≠ ['.', '.'] ∧ name.utf8ByteSize ≤ nameLimit)
    ⟨fun ⟨slash, nul, silent, up, size⟩ => ⟨slash, nul, silent, up, size⟩,
      fun ⟨slash, nul, silent, up, size⟩ => ⟨slash, nul, silent, up, size⟩⟩

theorem IsName.component?_eq {name : String} (h : IsName name) :
    Path.component? name.toList = some (.name name) := by
  rw [Path.component?, if_neg h.silent, if_neg h.up, String.ofList_toList]

variable {tree : FileTree} {current place : Place} {name : String}

/-- A name leads from a directory to what is in it under the name. -/
theorem step_iff (h : IsName name) {place' : Place} :
    tree.step place name.toList = .ok place' ↔
      tree.node? place = some .directory ∧ (tree.node? (place ++ [name])).isSome = true ∧
        place' = place ++ [name] := by
  constructor
  · intro hstep
    obtain ⟨hdirectory, ⟨hsilent, -⟩ | ⟨hup, -⟩ | ⟨-, -, -, hnode, hplace⟩⟩ := step_cases hstep
    · exact absurd hsilent h.silent
    · exact absurd hup h.up
    · rw [String.ofList_toList] at hnode hplace
      exact ⟨hdirectory, hnode, hplace⟩
  · rintro ⟨hdirectory, hnode, rfl⟩
    unfold step
    simp only [hdirectory, String.ofList_toList, if_neg h.silent, if_neg h.up,
      if_neg (Nat.not_lt.mpr h.size), if_pos hnode]

/-- A step keeps to names of files. -/
theorem isName_of_step {part : List Char} (hpart : ∀ c ∈ part, c ≠ '\x00' ∧ c ≠ '/')
    {place' : Place} (h : tree.step place part = .ok place') (hplace : ∀ n ∈ place, IsName n) :
    ∀ n ∈ place', IsName n := by
  obtain ⟨-, ⟨-, rfl⟩ | ⟨-, rfl⟩ | ⟨hsilent, hup, hsize, -, rfl⟩⟩ := step_cases h
  · exact hplace
  · exact fun n hn => hplace n (List.dropLast_subset place hn)
  · rw [← String.toList_ofList (l := part)] at hpart hsilent hup
    rw [List.forall_mem_append, List.forall_mem_singleton]
    exact ⟨hplace, fun hc => (hpart _ hc).2 rfl, fun hc => (hpart _ hc).1 rfl, hsilent, hup, hsize⟩

theorem isName_of_foldlM_step {parts : List (List Char)}
    (hparts : ∀ part ∈ parts, ∀ c ∈ part, c ≠ '\x00' ∧ c ≠ '/') {place' : Place}
    (h : parts.foldlM tree.step place = .ok place') (hplace : ∀ n ∈ place, IsName n) :
    ∀ n ∈ place', IsName n := by
  induction parts generalizing place with
  | nil =>
      cases h
      exact hplace
  | cons part parts ih =>
      obtain ⟨hpart, hparts⟩ := List.forall_mem_cons.mp hparts
      rw [List.foldlM_cons] at h
      obtain ⟨between, hbetween, h⟩ := bind_eq_ok_iff.mp h
      exact ih hparts h (isName_of_step hpart hbetween hplace)

/-- What an absolute path leads to has only names of files on the way. -/
theorem isName_of_follow {p : Path} (hp : p.isAbsolute = true)
    (h : tree.follow current p = .ok place) : ∀ name ∈ place, IsName name := by
  unfold follow at h
  split at h
  · cases h
  · rename_i hnul
    split at h
    · cases h
    · refine isName_of_foldlM_step (fun part hpart c hc => ?_) h
        fun _ hname => absurd hname List.not_mem_nil
      obtain ⟨hmem, hslash⟩ := Path.mem_of_mem_splitOn hpart c hc
      refine ⟨?_, hslash⟩
      rintro rfl
      exact hnul (List.contains_iff_mem.mpr hmem)

/-! ### The path of a place -/

/-- The path of a place below the root has an empty part and then the names. -/
theorem pathOf_eq_unparts (h : place ≠ []) :
    pathOf place = Path.unparts ([] :: place.map String.toList) := by
  obtain ⟨name, names, rfl⟩ := List.exists_cons_of_ne_nil h
  have htext : ("/" ++ "/".intercalate (name :: names)).toList =
      ['/'].intercalate ([] :: (name :: names).map String.toList) := by
    rw [String.toList_append, String.toList_intercalate, List.map_cons,
      List.intercalate_cons_cons]
    rfl
  rw [pathOf, Path.unparts, ← htext, String.ofList_toList]

theorem isAbsolute_pathOf (place : Place) : (pathOf place).isAbsolute = true := by
  rw [Path.isAbsolute_iff, pathOf, String.toList_append]
  exact ⟨_, rfl⟩

section names

variable (h : ∀ name ∈ place, IsName name)
include h

theorem parts_pathOf (hplace : place ≠ []) :
    (pathOf place).parts = [] :: place.map String.toList := by
  rw [pathOf_eq_unparts hplace]
  refine Path.parts_unparts_of_slash_not_mem ?_ (List.cons_ne_nil _ _)
  rw [List.forall_mem_cons, List.forall_mem_map]
  exact ⟨List.not_mem_nil, fun name hname => (h name hname).slash⟩

theorem components_pathOf : (pathOf place).components = .root :: place.map .name := by
  rw [Path.components_of_isAbsolute (isAbsolute_pathOf place)]
  by_cases hplace : place = []
  · rw [hplace]
    rfl
  · rw [parts_pathOf h hplace, List.filterMap_cons_none Path.component?_nil, List.filterMap_map]
    refine congrArg _ ?_
    rw [← List.filterMap_eq_map]
    exact List.filterMap_congr fun name hname => (h name hname).component?_eq

/-- Every name stands for one component. -/
theorem takeComponents_map_toList (n : Nat) :
    Path.takeComponents n (place.map String.toList) = (place.take n).map String.toList := by
  induction place generalizing n with
  | nil =>
      rw [List.take_nil]
      cases n <;> rfl
  | cons name names ih =>
      obtain ⟨hname, hnames⟩ := List.forall_mem_cons.mp h
      cases n with
      | zero => rfl
      | succ n =>
          rw [List.map_cons, Path.takeComponents, if_neg hname.silent, ih hnames, List.take_succ_cons,
            List.map_cons]

/-- The first components of the path of a place make the path of a place above it. -/
theorem upTo_pathOf {n : Nat} (hn : n ≤ place.length) :
    Path.unpartsUpTo (n + 1) (pathOf place).parts = pathOf (place.take n) := by
  by_cases hplace : place = []
  · subst hplace
    obtain rfl := Nat.le_zero.mp hn
    rfl
  · have hroot : Path.leading [] (place.map String.toList) = [.root] :=
      if_pos ⟨rfl, by simpa using hplace⟩
    cases n with
    | zero => simp only [parts_pathOf h hplace, Path.unpartsUpTo, hroot]; rfl
    | succ n =>
        have htake : place.take (n + 1) ≠ [] := by
          simpa using hplace
        simp only [parts_pathOf h hplace, Path.unpartsUpTo, hroot]
        rw [pathOf_eq_unparts htake, ← takeComponents_map_toList h]

/-- The paths above a place are those of the places above it. -/
theorem ancestors_pathOf :
    (pathOf place).ancestors =
      (List.range (place.length + 1)).reverse.map fun n => pathOf (place.take n) := by
  have hcomponents : Path.ofParts (pathOf place).parts = .root :: place.map .name :=
    components_pathOf h
  have hlength : (Path.ofParts (pathOf place).parts).length = place.length + 1 := by
    rw [hcomponents, List.length_cons, List.length_map]
  -- The list ends with the empty path in front of the root, which is left out.
  have habove : ((List.range (place.length + 1)).reverse.map
        (Path.unpartsUpTo · (pathOf place).parts)).dropLast =
      (List.range place.length).reverse.map fun n => pathOf (place.take n) := by
    rw [List.range_succ_eq_map, List.reverse_cons, List.map_append, List.map_singleton,
      List.dropLast_concat, ← List.map_reverse, List.map_map]
    refine List.map_congr_left fun n hn => ?_
    rw [List.mem_reverse, List.mem_range] at hn
    exact upTo_pathOf h hn.le
  have hall : ((List.range (place.length + 1)).reverse.map fun n => pathOf (place.take n)) =
      pathOf place :: (List.range place.length).reverse.map fun n => pathOf (place.take n) := by
    rw [List.range_succ, List.reverse_concat, List.map_cons, List.take_length]
  unfold Path.ancestors
  dsimp only
  rw [hlength, hcomponents, hall, ← habove]

end names

theorem mem_ancestors_pathOf_iff (h : ∀ n ∈ place, IsName n) {p : Path} :
    p ∈ (pathOf place).ancestors ↔ ∃ above, above <+: place ∧ p = pathOf above := by
  rw [ancestors_pathOf h]
  simp only [List.mem_map, List.mem_reverse, List.mem_range]
  constructor
  · rintro ⟨n, -, rfl⟩
    exact ⟨place.take n, List.take_prefix n place, rfl⟩
  · rintro ⟨above, habove, rfl⟩
    refine ⟨above.length, Nat.lt_succ_of_le habove.length_le, ?_⟩
    rw [← List.prefix_iff_eq_take.mp habove]

theorem isName_concat (h : ∀ n ∈ place, IsName n) (hname : IsName name) :
    ∀ n ∈ place ++ [name], IsName n := by
  rw [List.forall_mem_append, List.forall_mem_singleton]
  exact ⟨h, hname⟩

/-- Above something in a directory there are the directory and what is above that. -/
theorem ancestors_pathOf_concat (h : ∀ n ∈ place, IsName n) (hname : IsName name) :
    (pathOf (place ++ [name])).ancestors =
      pathOf (place ++ [name]) :: (pathOf place).ancestors := by
  have hnames := isName_concat h hname
  have htake : ∀ n ∈ (List.range (place.length + 1)).reverse,
      pathOf ((place ++ [name]).take n) = pathOf (place.take n) := by
    intro n hn
    rw [List.mem_reverse, List.mem_range] at hn
    rw [List.take_append_of_le_length (Nat.le_of_lt_succ hn)]
  have hlength : (place ++ [name]).length = place.length + 1 := List.length_append
  rw [ancestors_pathOf hnames, ancestors_pathOf h, hlength, List.range_succ, List.reverse_concat,
    List.map_cons, List.map_congr_left htake, ← hlength, List.take_length]

/-- To join a name is to go one place down. -/
theorem join_pathOf (h : ∀ n ∈ place, IsName n) (hname : IsName name) :
    (pathOf place).join ⟨name⟩ = pathOf (place ++ [name]) := by
  have hrelative : Path.isAbsolute ⟨name⟩ = false := by
    simpa using Glob.isAbsolute_ofList_eq_false hname.slash
  have hne : place ++ [name] ≠ [] := by simp
  by_cases hplace : place = []
  · subst hplace
    rw [Path.join, if_neg (by simp [hrelative])]
    rfl
  · have hpath : pathOf (place ++ [name]) = ⟨(pathOf place).text ++ "/" ++ name⟩ := by
      rw [pathOf_eq_unparts hne, List.map_append, List.map_singleton, ← List.cons_append,
        Path.unparts_append (List.cons_ne_nil _ _) (List.cons_ne_nil _ _),
        ← pathOf_eq_unparts hplace, Path.unparts, List.intercalate_singleton, String.ofList_toList]
    rw [hpath]
    rcases Path.text_join (Path.text_ne_empty_of_isAbsolute (isAbsolute_pathOf place)) hrelative with
      ⟨front, hfront, -⟩ | hjoin
    · -- The last part of the path is a name, and so it is not empty.
      have hlast := congrArg List.getLast? (Path.parts_of_text_eq hfront)
      have hnames : place.map String.toList ≠ [] := by simpa using hplace
      rw [parts_pathOf h hplace, List.getLast?_concat, List.getLast?_cons_of_ne_nil hnames] at hlast
      obtain ⟨n, hn, hempty⟩ := List.mem_map.mp (List.mem_of_getLast? hlast)
      exact absurd (hempty ▸ rfl) (h n hn).silent
    · exact hjoin

/-! ### Following the path of a place -/

/-- The names of a place lead to it, from the root on. -/
def Leads (tree : FileTree) (place : Place) : Prop :=
  (place.map String.toList).foldlM tree.step [] = .ok place

/-- The last name of a place is followed behind the others. -/
theorem foldlM_step_concat :
    ((place ++ [name]).map String.toList).foldlM tree.step [] =
      (place.map String.toList).foldlM tree.step [] >>= fun above => tree.step above name.toList := by
  rw [List.map_append, List.foldlM_append, List.map_singleton]
  simp only [List.foldlM_cons, List.foldlM_nil, bind_pure]

/-- Names lead to something in a directory if they lead to the directory. -/
theorem leads_concat_iff (hname : IsName name) :
    Leads tree (place ++ [name]) ↔ Leads tree place ∧ tree.node? place = some .directory ∧
      (tree.node? (place ++ [name])).isSome = true := by
  rw [Leads, foldlM_step_concat, bind_eq_ok_iff]
  simp only [step_iff hname, List.append_cancel_right_eq]
  constructor
  · rintro ⟨_, hplace, hdirectory, hnode, rfl⟩
    exact ⟨hplace, hdirectory, hnode⟩
  · rintro ⟨hplace, hdirectory, hnode⟩
    exact ⟨place, hplace, hdirectory, hnode, rfl⟩

/-- If names lead to a directory, the names above it lead to directories as well. -/
theorem leads_of_isPrefix (h : ∀ n ∈ place, IsName n) (hplace : Leads tree place)
    (hdirectory : tree.node? place = some .directory) {above : Place} (habove : above <+: place) :
    Leads tree above ∧ tree.node? above = some .directory := by
  induction place using List.reverseRecOn with
  | nil =>
      rw [List.prefix_nil.mp habove]
      exact ⟨hplace, hdirectory⟩
  | append_singleton place name ih =>
      rcases List.prefix_concat_iff.mp habove with rfl | habove
      · exact ⟨hplace, hdirectory⟩
      · obtain ⟨hnames, hname⟩ := List.forall_mem_append.mp h
        obtain ⟨hplace, hdirectory, -⟩ :=
          (leads_concat_iff (hname name (List.mem_singleton_self name))).mp hplace
        exact ih hnames hplace hdirectory habove

theorem nul_not_mem_pathOf (h : ∀ n ∈ place, IsName n) : '\x00' ∉ (pathOf place).text.toList := by
  by_cases hplace : place = []
  · rw [hplace]
    decide
  · rw [pathOf_eq_unparts hplace]
    intro hnul
    rcases Path.mem_text_unparts hnul with hslash | ⟨part, hpart, hnul⟩
    · cases hslash
    · rcases List.mem_cons.mp hpart with rfl | hpart
      · exact List.not_mem_nil hnul
      · obtain ⟨n, hn, rfl⟩ := List.mem_map.mp hpart
        exact (h n hn).nul hnul

/-- The path of a place is followed name by name. -/
theorem follow_pathOf (h : ∀ n ∈ place, IsName n) :
    tree.follow current (pathOf place) = (place.map String.toList).foldlM tree.step [] := by
  have hnul : (pathOf place).text.toList.contains '\x00' = false := by
    simpa using nul_not_mem_pathOf h
  have htext := Path.text_ne_empty_of_isAbsolute (isAbsolute_pathOf place)
  have hroot : tree.step [] [] = .ok [] := rfl
  unfold follow
  rw [hnul, if_neg Bool.false_ne_true, if_neg (by simpa using htext),
    if_pos (isAbsolute_pathOf place)]
  by_cases hplace : place = []
  · rw [hplace]
    rfl
  · rw [parts_pathOf h hplace, List.foldlM_cons, hroot]
    rfl

/-- In a directory that its path leads to, a path with one more name leads to what is there under
the name, unless it is too long. -/
theorem find?_pathOf_concat (h : ∀ n ∈ place, IsName n) (hname : IsName name)
    (hplace : Leads tree place) (hdirectory : tree.node? place = some .directory) :
    tree.find? current (pathOf (place ++ [name])) =
      if admits (pathOf (place ++ [name])) then tree.node? (place ++ [name]) else none := by
  have hfollow : tree.follow current (pathOf (place ++ [name])) = tree.step place name.toList := by
    rw [follow_pathOf (isName_concat h hname), foldlM_step_concat,
      show (place.map String.toList).foldlM tree.step [] = .ok place from hplace]
    rfl
  rw [find?, hfollow]
  congr 1
  cases hstep : tree.step place name.toList with
  | ok place' =>
      obtain ⟨-, -, rfl⟩ := (step_iff hname).mp hstep
      rfl
  | error e =>
      by_contra hnode
      have hsome := Option.isSome_iff_ne_none.mpr fun hnone => hnode hnone.symm
      rw [(step_iff hname).mpr ⟨hdirectory, hsome, rfl⟩] at hstep
      cases hstep

/-- What a directory holds under a name is a regular file exactly if its path leads to one. -/
theorem isFile_pathOf_concat_iff (h : ∀ n ∈ place, IsName n) (hname : IsName name)
    (hplace : Leads tree place) (hdirectory : tree.node? place = some .directory) :
    tree.isFile current (pathOf (place ++ [name])) = true ↔
      admits (pathOf (place ++ [name])) = true ∧
        ∃ content, tree.node? (place ++ [name]) = some (.file content) := by
  rw [isFile, find?_pathOf_concat h hname hplace hdirectory]
  cases hadmits : admits (pathOf (place ++ [name])) with
  | false => simp
  | true =>
      cases hnode : tree.node? (place ++ [name]) with
      | none => simp
      | some node => cases node <;> simp

end FileTree

end EntityConventions
