import EntityConventions.Path
import Mathlib.Data.List.Basic

/-! # Parts and components of paths

The components of an absolute path are the root and the components of its parts
(`Path.components_of_isAbsolute`).  Joining adds the components of what is joined
(`Path.components_join`), so that the components of a directory are the first ones of every path
below it.  What remains of a path behind some of its components is spelled with its characters
(`Path.mem_text_after`). -/

namespace EntityConventions.Path

/-! ### Parts -/

theorem splitOn_slash_cons (cs : List Char) :
    ('/' :: cs).splitOn '/' = [] :: cs.splitOn '/' :=
  List.splitOn_append_cons_self [] cs

/-- The parts of a text are made of its characters, the separators left out. -/
theorem mem_of_mem_splitOn {separator : Char} {cs part : List Char}
    (h : part ∈ cs.splitOn separator) : ∀ c ∈ part, c ∈ cs ∧ c ≠ separator := by
  induction cs generalizing part with
  | nil =>
      rw [List.splitOn_nil, List.mem_singleton] at h
      simp [h]
  | cons c cs ih =>
      have hrest : ∀ part ∈ cs.splitOn separator, ∀ d ∈ part, d ∈ c :: cs ∧ d ≠ separator :=
        fun part hpart d hd => (ih hpart d hd).imp_left (List.mem_cons_of_mem c)
      by_cases hc : c = separator
      · have hsplit : (c :: cs).splitOn separator = [] :: cs.splitOn separator := by
          rw [hc]
          exact List.splitOn_append_cons_self [] cs
        rw [hsplit] at h
        rcases List.mem_cons.mp h with rfl | h
        · exact fun d hd => absurd hd List.not_mem_nil
        · exact hrest part h
      · -- The first part of the rest grows by the character in front.
        have hsplit : (c :: cs).splitOn separator =
            (cs.splitOn separator).modifyHead (List.cons c) := by
          rw [List.splitOn, List.splitOnP_cons_eq_if_modifyHead, if_neg (by simpa using hc)]
          rfl
        rw [hsplit] at h
        cases hcs : cs.splitOn separator with
        | nil => exact absurd hcs (List.splitOn_ne_nil separator cs)
        | cons first rest =>
            rw [hcs] at h hrest
            rcases List.mem_cons.mp h with rfl | h
            · exact List.forall_mem_cons.mpr
                ⟨⟨List.mem_cons_self, hc⟩, hrest first List.mem_cons_self⟩
            · exact hrest part (List.mem_cons_of_mem first h)

theorem slash_not_mem_of_mem_splitOn {cs part : List Char} (h : part ∈ cs.splitOn '/') :
    '/' ∉ part :=
  fun hslash => (mem_of_mem_splitOn h '/' hslash).2 rfl

theorem parts_ne_nil (p : Path) : p.parts ≠ [] :=
  List.splitOn_ne_nil '/' p.text.toList

theorem unparts_parts (p : Path) : unparts p.parts = p := by
  rw [unparts, parts, List.intercalate_splitOn, String.ofList_toList]

/-- Parts without slashes are those of the path that they make. -/
theorem parts_unparts_of_slash_not_mem {ps : List (List Char)} (h : ∀ part ∈ ps, '/' ∉ part)
    (hps : ps ≠ []) : (unparts ps).parts = ps := by
  rw [parts, unparts, String.toList_ofList, List.splitOn_intercalate '/' h hps]

theorem parts_append_slash (before after : String) :
    parts ⟨before ++ "/" ++ after⟩ = parts ⟨before⟩ ++ parts ⟨after⟩ := by
  simp only [parts, String.toList_append]
  rw [List.append_assoc, show "/".toList = ['/'] from rfl, List.singleton_append,
    List.splitOn_append_cons_self]

/-- A slash at the end leaves an empty part behind it. -/
theorem parts_of_text_eq {p : Path} {front : String} (h : p.text = front ++ "/") :
    p.parts = parts ⟨front⟩ ++ [[]] := by
  have htrailed := parts_append_slash front ""
  rw [String.append_empty, ← h] at htrailed
  exact htrailed

/-! ### Components -/

theorem component?_nil : component? [] = none := rfl

theorem isAbsolute_iff {p : Path} : p.isAbsolute = true ↔ ∃ cs, p.text.toList = '/' :: cs := by
  rw [isAbsolute, beq_iff_eq, List.head?_eq_some_iff]

theorem components_of_isAbsolute {p : Path} (h : p.isAbsolute = true) :
    p.components = .root :: p.parts.filterMap component? := by
  obtain ⟨cs, hcs⟩ := isAbsolute_iff.mp h
  have hleading : leading [] (cs.splitOn '/') = [.root] :=
    if_pos ⟨rfl, List.splitOn_ne_nil '/' cs⟩
  rw [components, parts, hcs, splitOn_slash_cons, ofParts, hleading]
  rfl

/-- What a first part says depends on the others only where it is empty. -/
theorem leading_congr {first : List Char} {rest rest' : List (List Char)}
    (h : first = [] → (rest = [] ↔ rest' = [])) : leading first rest = leading first rest' := by
  unfold leading
  by_cases hfirst : first = []
  · simp only [hfirst, ne_eq, h hfirst]
  · simp only [hfirst, false_and]

/-! ### Joining -/

theorem isAbsolute_join {p q : Path} (hp : p.isAbsolute = true) :
    (p.join q).isAbsolute = true := by
  obtain ⟨cs, hcs⟩ := isAbsolute_iff.mp hp
  unfold join
  split
  · assumption
  · cases hlast : p.text.toList.getLast? with
    | none => simp [hcs] at hlast
    | some c =>
        simp only
        split <;> simp [isAbsolute, String.toList_append, hcs]

theorem text_ne_empty_of_isAbsolute {p : Path} (h : p.isAbsolute = true) : p.text ≠ "" := by
  obtain ⟨cs, hcs⟩ := isAbsolute_iff.mp h
  intro htext
  rw [htext] at hcs
  exact List.cons_ne_nil _ _ hcs.symm

/-- A path that is not empty ends in a slash or gets one, and what is joined follows. -/
theorem text_join {p q : Path} (hp : p.text ≠ "") (hq : q.isAbsolute = false) :
    (∃ front, p.text = front ++ "/" ∧ p.join q = ⟨front ++ "/" ++ q.text⟩) ∨
      p.join q = ⟨p.text ++ "/" ++ q.text⟩ := by
  rw [join, if_neg (by simp [hq])]
  cases hlast : p.text.toList.getLast? with
  | none =>
      rw [List.getLast?_eq_none_iff, String.toList_eq_nil_iff] at hlast
      exact absurd hlast hp
  | some c =>
      simp only
      split
      · rename_i hc
        obtain ⟨front, hfront⟩ := List.getLast?_eq_some_iff.mp hlast
        have htext : p.text = String.ofList front ++ "/" := by
          rw [← String.toList_inj, hfront, hc, String.toList_append, String.toList_ofList]
          rfl
        exact .inl ⟨String.ofList front, htext, by rw [← htext]⟩
      · exact .inr rfl

/-- Joining adds the components of what is joined. -/
theorem components_join {p q : Path} (hp : p.text ≠ "") (hq : q.isAbsolute = false) :
    (p.join q).components = p.components ++ q.parts.filterMap component? := by
  have hq' := q.parts_ne_nil
  rcases text_join hp hq with ⟨front, hfront, hjoin⟩ | hjoin
  · -- The last part of the directory is empty, and the parts that are added take its place.
    obtain ⟨first, more, hparts⟩ := List.exists_cons_of_ne_nil (parts_ne_nil ⟨front⟩)
    have hdirectory : p.parts = first :: (more ++ [[]]) := by
      rw [parts_of_text_eq hfront, hparts, List.cons_append]
    have hleading : leading first (more ++ q.parts) = leading first (more ++ [[]]) :=
      leading_congr fun _ => by simp [hq']
    rw [hjoin, components, components, parts_append_slash, hparts, hdirectory, List.cons_append,
      ofParts, ofParts, hleading, ← List.cons_append, ← List.cons_append, List.filterMap_append,
      List.filterMap_append, List.filterMap_cons_none component?_nil, List.filterMap_nil,
      List.append_nil, List.append_assoc]
  · obtain ⟨first, rest, hparts⟩ := List.exists_cons_of_ne_nil p.parts_ne_nil
    have hleading : leading first (rest ++ q.parts) = leading first rest := by
      refine leading_congr fun hfirst => ?_
      have hrest : rest ≠ [] := by
        rintro rfl
        have hempty := p.unparts_parts
        rw [hparts, hfirst] at hempty
        exact hp (congrArg Path.text hempty).symm
      simp [hq', hrest]
    rw [hjoin, components, components, parts_append_slash, hparts, List.cons_append, ofParts,
      ofParts, hleading, ← List.cons_append, List.filterMap_append, List.append_assoc]

/-- The components of a directory are the first ones of what is below it. -/
theorem components_prefix_join {p q : Path} (hp : p.isAbsolute = true)
    (hq : q.isAbsolute = false) : p.components <+: (p.join q).components :=
  ⟨_, (components_join (text_ne_empty_of_isAbsolute hp) hq).symm⟩

/-! ### Characters -/

theorem mem_text_unparts {ps : List (List Char)} {c : Char} (h : c ∈ (unparts ps).text.toList) :
    c = '/' ∨ ∃ part ∈ ps, c ∈ part := by
  simp only [unparts, String.toList_ofList] at h
  induction ps with
  | nil => exact absurd h List.not_mem_nil
  | cons part ps ih =>
      cases ps with
      | nil =>
          rw [List.intercalate_singleton] at h
          exact Or.inr ⟨part, List.mem_cons_self, h⟩
      | cons next ps =>
          rw [List.intercalate_cons_cons, List.mem_append, List.mem_append, List.mem_singleton] at h
          rcases h with (h | rfl) | h
          · exact Or.inr ⟨part, List.mem_cons_self, h⟩
          · exact Or.inl rfl
          · rcases ih h with rfl | ⟨other, hother, hc⟩
            · exact Or.inl rfl
            · exact Or.inr ⟨other, List.mem_cons_of_mem part hother, hc⟩

theorem dropComponents_suffix (n : Nat) (ps : List (List Char)) : dropComponents n ps <:+ ps := by
  fun_induction dropComponents n ps with
  | case1 => exact List.suffix_rfl
  | case2 part rest _ ih => exact ih.trans (List.suffix_cons part rest)
  | case3 => exact List.suffix_rfl
  | case4 n part rest _ ih => exact ih.trans (List.suffix_cons part rest)
  | case5 n part rest _ ih => exact ih.trans (List.suffix_cons part rest)

theorem trimParts_subset (ps : List (List Char)) : trimParts ps ⊆ ps := by
  intro part hpart
  rw [trimParts, List.mem_reverse] at hpart
  exact List.mem_reverse.mp ((List.dropWhile_suffix isSilent).subset hpart)

/-- The path behind some components is spelled with the characters of the whole path. -/
theorem mem_text_after {n : Nat} {p : Path} {c : Char} (h : c ∈ (p.after n).text.toList) :
    c = '/' ∨ c ∈ p.text.toList := by
  have hspelled : ∀ {ps : List (List Char)}, ps ⊆ p.parts → c ∈ (unparts ps).text.toList →
      c = '/' ∨ c ∈ p.text.toList := by
    intro ps hps hc
    refine (mem_text_unparts hc).imp_right ?_
    rintro ⟨part, hpart, hc⟩
    exact (mem_of_mem_splitOn (hps hpart) c hc).1
  unfold after at h
  split at h
  · exact absurd h List.not_mem_nil
  · rename_i first rest hparts
    rw [hparts] at hspelled
    have hdropped : ∀ m, trimParts (dropComponents m (first :: rest)) ⊆ first :: rest := fun m =>
      List.Subset.trans (trimParts_subset _) (dropComponents_suffix m _).subset
    have hbehind : first :: trimParts rest ⊆ first :: rest :=
      List.cons_subset_cons first (trimParts_subset rest)
    split at h
    · exact hspelled (hdropped _) h
    · split at h
      · exact Or.inl (List.mem_singleton.mp h)
      · exact hspelled hbehind h
    · exact hspelled hbehind h
    · exact hspelled (hdropped _) h

end EntityConventions.Path
