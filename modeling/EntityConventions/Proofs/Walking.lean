import EntityConventions.Glob.Walk
import EntityConventions.Proofs.Paths
import Mathlib.Data.List.Forall2
import Mathlib.Logic.Relation

/-! # Where a walk leads

A walk goes on by a part that it follows as it stands, or to an entry of a directory
(`Glob.Found.Step`).  Everything it finds is reached in such steps (`Glob.reaches_walk`), so what
every step keeps holds of whatever is found: paths stay absolute, and, where no name of the tree
holds a slash, the components of a path stay the first ones of all paths that go on from it
(`Glob.components_prefix_reaches`).

A part without wildcards is followed as it stands (`Glob.compileParts_plain`).  So a pattern that
begins with plain parts leads to paths that begin with their components
(`Glob.components_prefix_of_mem_walk`). -/

namespace EntityConventions

/-! ### Computations that may fail -/

section outcomes

variable {ε α β : Type}

theorem bind_eq_ok_iff {x : Except ε α} {f : α → Except ε β} {b : β} :
    x >>= f = .ok b ↔ ∃ a, x = .ok a ∧ f a = .ok b := by
  cases x with
  | error e => simp [bind, Except.bind]
  | ok a => simp [bind, Except.bind]

theorem mapError_eq_ok_iff {ε' : Type} {x : Except ε α} {f : ε → ε'} {a : α} :
    x.mapError f = .ok a ↔ x = .ok a := by
  cases x <;> simp [Except.mapError]

theorem mapM_eq_ok_iff {f : α → Except ε β} {l : List α} {bs : List β} :
    l.mapM f = .ok bs ↔ List.Forall₂ (fun a b => f a = .ok b) l bs := by
  induction l generalizing bs with
  | nil => simp [pure, Except.pure, eq_comm]
  | cons a l ih =>
      simp only [List.mapM_cons, bind_eq_ok_iff, List.forall₂_cons_left_iff, ih]
      simp only [pure, Except.pure, Except.ok.injEq]
      grind

/-- Computing with all elements succeeds if it does with each. -/
theorem exists_mapM_eq_ok_iff {f : α → Except ε β} {l : List α} :
    (∃ bs, l.mapM f = .ok bs) ↔ ∀ a ∈ l, ∃ b, f a = .ok b := by
  simp only [mapM_eq_ok_iff]
  induction l with
  | nil => simp
  | cons a l ih =>
      rw [List.forall_mem_cons, ← ih]
      simp only [List.forall₂_cons_left_iff]
      grind

theorem mem_flatten_of_mapM {f : α → Except ε (List β)} {l : List α} {bss : List (List β)}
    (h : l.mapM f = .ok bss) {b : β} :
    b ∈ bss.flatten ↔ ∃ a ∈ l, ∃ bs, f a = .ok bs ∧ b ∈ bs := by
  rw [mapM_eq_ok_iff] at h
  induction h with
  | nil => simp
  | cons hab _ ih => simp [ih, hab]

end outcomes

namespace Glob

/-! ### Steps -/

/-- One step of a walk: along a part as it stands, or to an entry of a directory. -/
inductive Found.Step (tree : FileTree) : Found → Found → Prop
  | follow {f g : Found} {part : List Char} : f.follow? tree part = some g → Step tree f g
  | child {f : Found} {name : String} :
      name ∈ tree.children f.place → Step tree f (f.child tree name)

/-- Any number of steps of a walk. -/
abbrev Found.Reaches (tree : FileTree) : Found → Found → Prop :=
  Relation.ReflTransGen (Found.Step tree)

variable {tree : FileTree}

theorem step_of_mem_entries {f g : Found} {entries : List Found}
    (h : f.entries tree = .ok entries) (hg : g ∈ entries) : Found.Step tree f g := by
  unfold Found.entries at h
  split at h
  · cases h
    exact absurd hg List.not_mem_nil
  · split at h
    · cases h
      obtain ⟨name, hname, rfl⟩ := List.mem_map.mp hg
      exact .child hname
    · cases h

/-- What is found below an entry comes from something that the entry reaches. -/
theorem reaches_descend {next : Found → Except FileError (List Found)} {height : Nat}
    {f g : Found} {found : List Found} (h : descend tree next height f = .ok found)
    (hg : g ∈ found) :
    ∃ f', Found.Reaches tree f f' ∧ ∃ here, next f' = .ok here ∧ g ∈ here := by
  induction height generalizing f found with
  | zero => exact ⟨f, .refl, found, h, hg⟩
  | succ height ih =>
      rw [descend] at h
      obtain ⟨here, hhere, h⟩ := bind_eq_ok_iff.mp h
      obtain ⟨entries, hentries, h⟩ := bind_eq_ok_iff.mp h
      obtain ⟨below, hbelow, h⟩ := bind_eq_ok_iff.mp h
      cases h
      rcases List.mem_append.mp hg with hg | hg
      · exact ⟨f, .refl, here, hhere, hg⟩
      · obtain ⟨e, he, found', hfound', hg⟩ := (mem_flatten_of_mapM hbelow).mp hg
        obtain ⟨f', hreach, hnext⟩ := ih hfound' hg
        exact ⟨f', .head (step_of_mem_entries hentries he) hreach, hnext⟩

/-- A walk finds what it reaches, and so does the part of a walk below `**`. -/
theorem reaches_walk (height : Nat) (parts : List Part) :
    (∀ {f g : Found} {found : List Found}, walkParts tree height parts f = .ok found →
        g ∈ found → Found.Reaches tree f g) ∧
      ∀ {f g : Found} {name : String} {found : List Found},
        walkParts.belowAnyDepth tree height parts f name = .ok found →
        g ∈ found → Found.Reaches tree f g := by
  induction parts with
  | nil =>
      constructor
      · intro f g found h hg
        rw [walkParts] at h
        cases h
        rw [List.mem_singleton.mp hg]
      · intro f g name found h hg
        rw [walkParts.belowAnyDepth] at h
        cases h
        split at hg
        · rw [List.mem_singleton.mp hg]
        · exact absurd hg List.not_mem_nil
  | cons part parts ih =>
      obtain ⟨ihwalk, ihbelow⟩ := ih
      constructor
      · intro f g found h hg
        cases part with
        | literal name =>
            rw [walkParts] at h
            split at h
            · rename_i next hnext
              exact .head (.follow hnext) (ihwalk h hg)
            · cases h
              exact absurd hg List.not_mem_nil
        | wild ts =>
            rw [walkParts] at h
            obtain ⟨entries, hentries, h⟩ := bind_eq_ok_iff.mp h
            obtain ⟨below, hbelow, h⟩ := bind_eq_ok_iff.mp h
            cases h
            obtain ⟨next, hnext, found', hfound', hg⟩ := (mem_flatten_of_mapM hbelow).mp hg
            refine .head ?_ (ihwalk hfound' hg)
            rcases List.mem_append.mp hnext with hdots | hentry
            · obtain ⟨dots, -, hfollow⟩ := List.mem_filterMap.mp hdots
              exact .follow hfollow
            · exact step_of_mem_entries hentries (List.mem_of_mem_filter hentry)
        | anyDepth =>
            rw [walkParts] at h
            obtain ⟨entries, hentries, h⟩ := bind_eq_ok_iff.mp h
            obtain ⟨below, hbelow, h⟩ := bind_eq_ok_iff.mp h
            cases h
            obtain ⟨entry, hentry, found', hfound', hg⟩ := (mem_flatten_of_mapM hbelow).mp hg
            obtain ⟨f', hreach, here, hhere, hg⟩ := reaches_descend hfound' hg
            exact .head (step_of_mem_entries hentries hentry)
              (hreach.trans (ihbelow hhere hg))
      · intro f g name found h hg
        by_cases hpart : part = .anyDepth
        · rw [hpart, walkParts.belowAnyDepth] at h
          exact ihbelow h hg
        · rw [walkParts.belowAnyDepth] at h
          · split at h
            · exact ihwalk h hg
            · cases h
              exact absurd hg List.not_mem_nil
          · exact hpart

end Glob

/-! ### Names without slashes -/

namespace FileTree

/-- No name in the tree holds a slash. -/
def IsWellNamed (tree : FileTree) : Prop :=
  ∀ node ∈ tree.nodes, ∀ name ∈ node.1, '/' ∉ name.toList

instance (tree : FileTree) : Decidable tree.IsWellNamed :=
  inferInstanceAs (Decidable (∀ node ∈ tree.nodes, ∀ name ∈ node.1, '/' ∉ name.toList))

theorem mem_of_nameIn {directory place : Place} {name : String}
    (h : nameIn directory place = some name) : name ∈ place := by
  fun_induction nameIn directory place with
  | case1 name' =>
      cases h
      exact List.mem_singleton_self _
  | case2 _ _ _ ih => exact List.mem_cons_of_mem _ (ih h)
  | case3 => cases h
  | case4 => cases h

variable {tree : FileTree}

theorem slash_not_mem_of_mem_children (htree : tree.IsWellNamed) {place : Place} {name : String}
    (h : name ∈ tree.children place) : '/' ∉ name.toList := by
  rw [children, List.mem_mergeSort, List.mem_filterMap] at h
  obtain ⟨node, hnode, hname⟩ := h
  exact htree node hnode name (mem_of_nameIn hname)

theorem slash_not_mem_of_isSome_node? (htree : tree.IsWellNamed) {place : Place} {name : String}
    (h : (tree.node? (place ++ [name])).isSome = true) : '/' ∉ name.toList := by
  rw [node?, if_neg (by simp)] at h
  obtain ⟨node, hnode⟩ := Option.isSome_iff_exists.mp h
  obtain ⟨before, behind, hnodes, -⟩ := List.lookup_eq_some_iff.mp hnode
  exact htree (place ++ [name], node) (by simp [hnodes]) name (by simp)

/-- One part of a path is followed from a directory: a silent part stays there, two dots go up, and
any other part goes down to what has its name. -/
theorem step_cases {place place' : Place} {part : List Char}
    (h : tree.step place part = .ok place') :
    tree.node? place = some .directory ∧
      (Path.isSilent part = true ∧ place' = place ∨
        part = ['.', '.'] ∧ place' = place.dropLast ∨
        ¬ Path.isSilent part = true ∧ part ≠ ['.', '.'] ∧
          (String.ofList part).utf8ByteSize ≤ nameLimit ∧
          (tree.node? (place ++ [String.ofList part])).isSome = true ∧
          place' = place ++ [String.ofList part]) := by
  unfold step at h
  split at h
  · cases h
  · cases h
  · rename_i hdirectory
    refine ⟨hdirectory, ?_⟩
    split at h
    · rename_i hsilent
      cases h
      exact .inl ⟨hsilent, rfl⟩
    · rename_i hsilent
      split at h
      · rename_i hup
        cases h
        exact .inr (.inl ⟨hup, rfl⟩)
      · rename_i hup
        dsimp only at h
        split at h
        · cases h
        · rename_i hsize
          split at h
          · rename_i hnode
            cases h
            exact .inr (.inr ⟨hsilent, hup, Nat.le_of_not_lt hsize, hnode, rfl⟩)
          · cases h

/-- A part that can be followed holds no slash. -/
theorem slash_not_mem_of_step (htree : tree.IsWellNamed) {place place' : Place} {part : List Char}
    (h : tree.step place part = .ok place') : '/' ∉ part := by
  obtain ⟨-, ⟨hsilent, -⟩ | ⟨rfl, -⟩ | ⟨-, -, -, hnode, -⟩⟩ := step_cases h
  · simp only [Path.isSilent, Bool.or_eq_true, beq_iff_eq] at hsilent
    rcases hsilent with rfl | rfl <;> simp
  · simp
  · simpa using slash_not_mem_of_isSome_node? htree hnode

end FileTree

namespace Glob

/-! ### Components on the way -/

theorem isAbsolute_ofList_eq_false {part : List Char} (h : '/' ∉ part) :
    Path.isAbsolute ⟨String.ofList part⟩ = false := by
  rw [Bool.eq_false_iff, ne_eq, Path.isAbsolute_iff]
  rintro ⟨cs, hcs⟩
  have hpart : part = '/' :: cs := String.toList_ofList.symm.trans hcs
  exact h (hpart ▸ List.mem_cons_self)

theorem components_join_ofList {p : Path} (hp : p.isAbsolute = true) {part : List Char}
    (h : '/' ∉ part) :
    (p.join ⟨String.ofList part⟩).components =
      p.components ++ [part].filterMap Path.component? := by
  rw [Path.components_join (Path.text_ne_empty_of_isAbsolute hp) (isAbsolute_ofList_eq_false h),
    Path.parts, String.toList_ofList, List.splitOn_eq_singleton h]

theorem path_follow? {f g : Found} {part : List Char} (h : f.follow? tree part = some g) :
    g.path = f.path.join ⟨String.ofList part⟩ ∧ ∃ place, tree.step f.place part = .ok place := by
  simp only [Found.follow?, Option.ite_none_right_eq_some] at h
  obtain ⟨-, h⟩ := h
  cases hplace : tree.step f.place part with
  | error e =>
      rw [hplace] at h
      cases h
  | ok place =>
      rw [hplace] at h
      cases h
      exact ⟨rfl, place, rfl⟩

theorem isAbsolute_step {f g : Found} (h : Found.Step tree f g) (hf : f.path.isAbsolute = true) :
    g.path.isAbsolute = true := by
  cases h with
  | follow hfollow =>
      rw [(path_follow? hfollow).1]
      exact Path.isAbsolute_join hf
  | child _ => exact Path.isAbsolute_join hf

theorem isAbsolute_reaches {f g : Found} (h : Found.Reaches tree f g)
    (hf : f.path.isAbsolute = true) : g.path.isAbsolute = true := by
  induction h with
  | refl => exact hf
  | tail _ hstep ih => exact isAbsolute_step hstep ih

/-- A step goes on from the components that are there. -/
theorem components_prefix_step (htree : tree.IsWellNamed) {f g : Found}
    (h : Found.Step tree f g) (hf : f.path.isAbsolute = true) :
    f.path.components <+: g.path.components := by
  cases h with
  | follow hfollow =>
      obtain ⟨hpath, place, hplace⟩ := path_follow? hfollow
      have hslash := FileTree.slash_not_mem_of_step htree hplace
      rw [hpath]
      exact Path.components_prefix_join hf (isAbsolute_ofList_eq_false hslash)
  | @child name hname =>
      have hslash := FileTree.slash_not_mem_of_mem_children htree hname
      have hname : Path.isAbsolute ⟨name⟩ = false := by
        simpa using isAbsolute_ofList_eq_false hslash
      exact Path.components_prefix_join hf hname

/-- A walk goes on from the components that it starts with. -/
theorem components_prefix_reaches (htree : tree.IsWellNamed) {f g : Found}
    (h : Found.Reaches tree f g) (hf : f.path.isAbsolute = true) :
    f.path.components <+: g.path.components := by
  induction h with
  | refl => exact List.prefix_rfl
  | tail hreach hstep ih =>
      exact ih.trans (components_prefix_step htree hstep (isAbsolute_reaches hreach hf))

/-! ### Plain parts -/

/-- Whether a text has none of the characters that open a wildcard. -/
def IsPlain (cs : List Char) : Prop :=
  ∀ c ∈ cs, c ≠ '*' ∧ c ≠ '?' ∧ c ≠ '['

instance (cs : List Char) : Decidable (IsPlain cs) :=
  List.decidableBAll (fun c => c ≠ '*' ∧ c ≠ '?' ∧ c ≠ '[') cs

/-- Plain characters stand for themselves, whatever follows them. -/
theorem tokens_append_of_isPlain {cs : List Char} (h : IsPlain cs) (fuel position : Nat)
    (before : Option Char) (rest : List Char) :
    tokens (cs.length + fuel) position before (cs ++ rest) =
      (tokens fuel (position + cs.length) (cs.getLast?.or before) rest).map (cs.map .char ++ ·) := by
  induction cs generalizing position before with
  | nil =>
      simp only [List.length_nil, Nat.zero_add, List.nil_append, Nat.add_zero, List.getLast?_nil,
        Option.none_or, List.map_nil]
      cases tokens fuel position before rest <;> rfl
  | cons c cs ih =>
      obtain ⟨⟨hstar, hmark, hbracket⟩, hcs⟩ := List.forall_mem_cons.mp h
      have hlast : (c :: cs).getLast?.or before = cs.getLast?.or (some c) := by
        cases hcs : cs.getLast? <;> simp [List.getLast?_cons, hcs]
      have hlength : (c :: cs).length + fuel = cs.length + fuel + 1 := by
        rw [List.length_cons]
        omega
      have hposition : position + (c :: cs).length = position + 1 + cs.length := by
        rw [List.length_cons]
        omega
      rw [hlength, List.cons_append, tokens, ih hcs, hlast, hposition]
      · cases tokens fuel (position + 1 + cs.length) (cs.getLast?.or (some c)) rest <;> rfl
      · exact fun heq => hstar heq
      · exact fun heq => hmark heq
      · exact fun heq => hbracket heq

theorem tokens_of_isPlain {cs : List Char} (h : IsPlain cs) {fuel : Nat} (hfuel : cs.length ≤ fuel)
    (position : Nat) (before : Option Char) :
    tokens fuel position before cs = .ok (cs.map .char) := by
  obtain ⟨more, rfl⟩ := Nat.exists_eq_add_of_le hfuel
  have htokens := tokens_append_of_isPlain h more position before []
  rw [List.append_nil] at htokens
  rw [htokens]
  cases more <;> simp [tokens, Except.map]

theorem plain?_map_char (cs : List Char) : Part.plain? (cs.map .char) = some cs := by
  induction cs with
  | nil => rfl
  | cons c cs ih => rw [List.map_cons, Part.plain?, ih, Option.map_some]

/-- A plain text compiles to a part that is followed as it stands. -/
theorem compile_of_isPlain {cs : List Char} (h : IsPlain cs) :
    compile (String.ofList cs) = .ok (cs.map .char) ∧
      Part.ofTokens (cs.map .char) = .literal cs := by
  constructor
  · rw [compile, String.toList_ofList]
    exact tokens_of_isPlain h (Nat.le_succ _) 0 none
  · rw [Part.ofTokens, plain?_map_char]

theorem isPlain_of_mem_splitOn {cs part : List Char} (h : IsPlain cs)
    (hpart : part ∈ cs.splitOn '/') : IsPlain part :=
  fun c hc => h c (Path.mem_of_mem_splitOn hpart c hc).1

theorem compileParts_plain {cs : List Char} (h : IsPlain cs) :
    ((cs.splitOn '/').mapM fun text => do
      return Part.ofTokens (← compile (String.ofList text))) =
        .ok ((cs.splitOn '/').map .literal) := by
  rw [mapM_eq_ok_iff, List.forall₂_map_right_iff, List.forall₂_same]
  intro part hpart
  obtain ⟨hcompile, hliteral⟩ := compile_of_isPlain (isPlain_of_mem_splitOn h hpart)
  rw [hcompile, ← hliteral]
  rfl

/-- A pattern below a plain directory begins with the directory's own parts. -/
theorem compileParts_below {cs below : List Char} (h : IsPlain cs) {pattern : String}
    (hpattern : pattern.toList = '/' :: (cs ++ '/' :: below))
    {parts : List Part} (hparts : compileParts pattern = .ok parts) :
    ∃ rest, parts = (cs.splitOn '/').map .literal ++ rest := by
  have hbelow := List.splitOn_ne_nil '/' below
  obtain ⟨texts, htexts⟩ : ∃ texts, partTexts pattern = cs.splitOn '/' ++ texts := by
    unfold partTexts
    rw [hpattern, List.drop_one, List.tail_cons, List.splitOn_append_cons_self]
    dsimp only
    split
    · exact ⟨_, List.dropLast_append_of_ne_nil hbelow⟩
    · exact ⟨_, rfl⟩
  unfold compileParts at hparts
  obtain ⟨tokens, -, hparts⟩ := bind_eq_ok_iff.mp hparts
  rw [htexts, List.mapM_append, compileParts_plain h] at hparts
  obtain ⟨literals, hliterals, hparts⟩ := bind_eq_ok_iff.mp hparts
  obtain ⟨rest, -, hparts⟩ := bind_eq_ok_iff.mp hparts
  cases hliterals
  cases hparts
  exact ⟨rest, rfl⟩

/-- Plain parts in front lead to one place, if to any, and add their components. -/
theorem walkParts_literals {height : Nat} {names : List (List Char)}
    (hnames : ∀ name ∈ names, '/' ∉ name) {parts : List Part} {f g : Found} {found : List Found}
    (hf : f.path.isAbsolute = true)
    (h : walkParts tree height (names.map .literal ++ parts) f = .ok found) (hg : g ∈ found) :
    ∃ f', f'.path.isAbsolute = true ∧
      f'.path.components = f.path.components ++ names.filterMap Path.component? ∧
      walkParts tree height parts f' = .ok found := by
  induction names generalizing f with
  | nil => exact ⟨f, hf, by simp, h⟩
  | cons name names ih =>
      obtain ⟨hname, hnames⟩ := List.forall_mem_cons.mp hnames
      rw [List.map_cons, List.cons_append, walkParts] at h
      split at h
      · rename_i next hnext
        have habsolute := isAbsolute_step (.follow hnext) hf
        obtain ⟨f', hf', hcomponents, hwalk⟩ := ih hnames habsolute h
        refine ⟨f', hf', ?_, hwalk⟩
        rw [hcomponents, (path_follow? hnext).1, components_join_ofList hf hname,
          List.append_assoc, ← List.filterMap_append, List.singleton_append]
      · cases h
        exact absurd hg List.not_mem_nil

/-- What a pattern finds. -/
theorem exists_of_mem_walk {pattern : String} {paths : List Path}
    (h : walk tree pattern = .ok paths) {path : Path} (hpath : path ∈ paths) :
    ∃ parts, compileParts pattern = .ok parts ∧
      ∃ found, walkParts tree tree.nodes.length parts ⟨⟨"/"⟩, [], true⟩ = .ok found ∧
        ∃ g ∈ found, g.path = path := by
  unfold walk at h
  obtain ⟨parts, hparts, h⟩ := bind_eq_ok_iff.mp h
  obtain ⟨found, hfound, h⟩ := bind_eq_ok_iff.mp h
  cases h
  obtain ⟨g, hg, rfl⟩ := List.mem_map.mp hpath
  refine ⟨parts, mapError_eq_ok_iff.mp hparts, found, mapError_eq_ok_iff.mp hfound, g, ?_, rfl⟩
  -- A slash at the end only leaves out what is no directory.
  split at hg
  · exact List.mem_of_mem_filter hg
  · exact hg

/-- A pattern below a plain directory leads to paths below the directory. -/
theorem components_prefix_of_mem_walk (htree : tree.IsWellNamed) {root : Path}
    (hroot : root.isAbsolute = true) (hplain : IsPlain root.text.toList) {pattern : String}
    {paths : List Path} (h : walk tree (root.text ++ "/" ++ pattern) = .ok paths) {path : Path}
    (hpath : path ∈ paths) : root.components <+: path.components := by
  obtain ⟨cs, hcs⟩ := Path.isAbsolute_iff.mp hroot
  have hcomponents : root.components =
      Path.components ⟨"/"⟩ ++ (cs.splitOn '/').filterMap Path.component? := by
    rw [Path.components_of_isAbsolute hroot, Path.parts, hcs, Path.splitOn_slash_cons]
    rfl
  obtain ⟨parts, hparts, found, hfound, g, hg, rfl⟩ := exists_of_mem_walk h hpath
  have hcs' : IsPlain cs := fun c hc => hplain c (hcs ▸ List.mem_cons_of_mem _ hc)
  have hpattern : (root.text ++ "/" ++ pattern).toList = '/' :: (cs ++ '/' :: pattern.toList) := by
    simp [String.toList_append, hcs]
  obtain ⟨rest, rfl⟩ := compileParts_below hcs' hpattern hparts
  obtain ⟨f', hf', hbelow, hwalk⟩ := walkParts_literals
    (fun _ hpart => Path.slash_not_mem_of_mem_splitOn hpart) rfl hfound hg
  rw [hcomponents, ← hbelow]
  exact components_prefix_reaches htree ((reaches_walk _ rest).1 hwalk hg) hf'

end Glob

end EntityConventions
