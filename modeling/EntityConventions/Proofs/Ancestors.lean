import EntityConventions.Proofs.Spellings
import Mathlib.Data.List.TakeWhile

/-! # What remains of a path below an ancestor

`Path.after` drops the parts that stand for some components, and the silent parts around what is
left.  So what remains begins with a part that carries a meaning, unless nothing is dropped
(`Path.after_cases`).

The components of what remains are the remaining components (`Path.components_after`).  Joined to
the ancestor again it gives the components of the whole path, however ancestor and path are spelled
(`Path.components_join_after`).  The parts in front of its last slash are some of those of the
whole path (`Path.mem_dropLast_parts_after`). -/

namespace EntityConventions.Path

/-! ### Parts that are dropped -/

theorem filterMap_dropComponents (n : Nat) (ps : List (List Char)) :
    (dropComponents n ps).filterMap component? = (ps.filterMap component?).drop n := by
  fun_induction dropComponents n ps with
  | case1 n => simp
  | case2 part rest hsilent ih => rw [ih, List.filterMap_cons_none (component?_of_isSilent hsilent)]
  | case3 part rest hsilent => rfl
  | case4 n part rest hsilent ih =>
      rw [ih, List.filterMap_cons_none (component?_of_isSilent hsilent)]
  | case5 n part rest hsilent ih =>
      obtain ⟨c, hc, -⟩ := component?_of_not_isSilent hsilent
      rw [ih, List.filterMap_cons_some hc, List.drop_succ_cons]

/-- What is left behind the dropped parts begins with one that carries a meaning. -/
theorem not_isSilent_of_head?_dropComponents {n : Nat} {ps : List (List Char)} {first : List Char}
    (h : (dropComponents n ps).head? = some first) : ¬ isSilent first = true := by
  fun_induction dropComponents n ps with
  | case1 n => cases h
  | case2 part rest hsilent ih => exact ih h
  | case3 part rest hsilent =>
      cases h
      exact hsilent
  | case4 n part rest hsilent ih => exact ih h
  | case5 n part rest hsilent ih => exact ih h

/-- The parts that are trimmed off are silent ones at the end. -/
theorem exists_eq_trimParts_append (ps : List (List Char)) :
    ∃ back, ps = trimParts ps ++ back ∧ ∀ part ∈ back, isSilent part = true := by
  refine ⟨(ps.reverse.takeWhile isSilent).reverse, ?_, fun part hpart => ?_⟩
  · rw [trimParts, ← List.reverse_append, List.takeWhile_append_dropWhile, List.reverse_reverse]
  · exact List.mem_takeWhile_imp (List.mem_reverse.mp hpart)

theorem trimParts_isPrefix (ps : List (List Char)) : trimParts ps <+: ps := by
  obtain ⟨back, hps, -⟩ := exists_eq_trimParts_append ps
  exact ⟨back, hps.symm⟩

theorem filterMap_trimParts (ps : List (List Char)) :
    (trimParts ps).filterMap component? = ps.filterMap component? := by
  obtain ⟨back, hps, hback⟩ := exists_eq_trimParts_append ps
  have hnone : back.filterMap component? = [] :=
    List.filterMap_eq_nil_iff.mpr fun part hpart => component?_of_isSilent (hback part hpart)
  conv_rhs => rw [hps]
  rw [List.filterMap_append, hnone, List.append_nil]

/-! ### Paths with some of the parts of another path -/

section infixes

variable {p : Path} {kept : List (List Char)} (h : kept <:+: p.parts)
include h

theorem parts_unparts (hkept : kept ≠ []) : (unparts kept).parts = kept :=
  parts_unparts_of_slash_not_mem
    (fun _ hpart => slash_not_mem_of_mem_splitOn (h.subset hpart)) hkept

/-- Parts of which the first one carries a meaning make a path that starts with it. -/
theorem components_unparts (hfirst : ∀ first, kept.head? = some first → ¬ isSilent first = true) :
    (unparts kept).isAbsolute = false ∧ (unparts kept).components = kept.filterMap component? ∧
      (unparts kept).parts.filterMap component? = kept.filterMap component? := by
  cases kept with
  | nil => exact ⟨rfl, rfl, rfl⟩
  | cons first rest =>
      have hsilent := hfirst first rfl
      have hparts := parts_unparts h (List.cons_ne_nil first rest)
      have hempty : first ≠ [] := by
        rintro rfl
        exact hsilent rfl
      have hdot : first ≠ ['.'] := by
        rintro rfl
        exact hsilent rfl
      have hleading : leading first rest = [] := by
        rw [leading, if_neg fun hroot => hempty hroot.1, if_neg hdot]
      refine ⟨?_, ?_, by rw [hparts]⟩
      · -- An absolute path has an empty first part.
        rw [Bool.eq_false_iff, ne_eq, isAbsolute_iff]
        rintro ⟨cs, hcs⟩
        rw [parts, hcs, splitOn_slash_cons] at hparts
        exact hempty (List.cons.inj hparts).1.symm
      · rw [components, hparts, ofParts, hleading, List.nil_append]

end infixes

/-! ### What remains of a path -/

/-- The parts of a path behind those of some components, without the silent ones around them. -/
def remaining (n : Nat) (p : Path) : List (List Char) :=
  trimParts (dropComponents n p.parts)

theorem remaining_isInfix (n : Nat) (p : Path) : remaining n p <:+: p.parts :=
  (trimParts_isPrefix _).isInfix.trans (dropComponents_suffix n p.parts).isInfix

theorem components_unparts_remaining (n : Nat) (p : Path) :
    (unparts (remaining n p)).isAbsolute = false ∧
      (unparts (remaining n p)).components = (p.parts.filterMap component?).drop n ∧
      (unparts (remaining n p)).parts.filterMap component? =
        (p.parts.filterMap component?).drop n := by
  have hkept : (remaining n p).filterMap component? = (p.parts.filterMap component?).drop n := by
    rw [remaining, filterMap_trimParts, filterMap_dropComponents]
  rw [← hkept]
  refine components_unparts (remaining_isInfix n p) fun first hfirst => ?_
  obtain ⟨back, hback⟩ := trimParts_isPrefix (dropComponents n p.parts)
  have hdropped : (dropComponents n p.parts).head? = some first := by
    rw [← hback, List.head?_append, show (trimParts _).head? = some first from hfirst,
      Option.some_or]
  exact not_isSilent_of_head?_dropComponents hdropped

theorem leading_cases (first : List Char) (rest : List (List Char)) :
    leading first rest = [] ∨ ∃ c, leading first rest = [c] ∧
      (first = [] ∧ rest ≠ [] ∧ c = .root ∨ first = ['.'] ∧ c = .current) := by
  unfold leading
  split
  · rename_i hroot
    exact .inr ⟨.root, rfl, .inl ⟨hroot.1, hroot.2, rfl⟩⟩
  · split
    · rename_i hdot
      exact .inr ⟨.current, rfl, .inr ⟨hdot, rfl⟩⟩
    · exact .inl rfl

theorem components_of_parts {p : Path} {first : List Char} {rest : List (List Char)}
    (hparts : p.parts = first :: rest) :
    p.components = leading first rest ++ (first :: rest).filterMap component? := by
  rw [components, hparts, ofParts]

/-- What remains of a path: some of its parts, the first of which carries a meaning; or the whole
path without the silent parts at its end, if nothing is dropped. -/
theorem after_cases (n : Nat) (p : Path) :
    (∃ m, p.after n = unparts (remaining m p) ∧
      p.components.drop n = (p.parts.filterMap component?).drop m) ∨
    n = 0 ∧ ∃ first rest, p.parts = first :: rest ∧
      (first = [] ∧ rest ≠ [] ∧ trimParts rest = [] ∧ p.after n = ⟨"/"⟩ ∨
        leading first (trimParts rest) = leading first rest ∧
          p.after n = unparts (first :: trimParts rest)) := by
  obtain ⟨first, rest, hparts⟩ := List.exists_cons_of_ne_nil p.parts_ne_nil
  have hcomponents := components_of_parts hparts
  rw [← hparts] at hcomponents
  rcases leading_cases first rest with hleading | ⟨c, hleading, hfirst⟩
  · refine .inl ⟨n, ?_, by rw [hcomponents, hleading, List.nil_append]⟩
    simp only [after, remaining, hparts, hleading]
  · cases n with
    | zero =>
        refine .inr ⟨rfl, first, rest, hparts, ?_⟩
        rcases hfirst with ⟨rfl, hrest, rfl⟩ | ⟨rfl, rfl⟩
        · have hafter : p.after 0 =
              if trimParts rest = [] then ⟨"/"⟩ else unparts ([] :: trimParts rest) := by
            simp only [after, hparts, hleading]
          rw [hafter]
          split
          · rename_i htrim
            exact .inl ⟨rfl, hrest, htrim, rfl⟩
          · rename_i htrim
            exact .inr ⟨leading_congr fun _ => iff_of_false htrim hrest, rfl⟩
        · refine .inr ⟨leading_congr nofun, ?_⟩
          simp only [after, hparts, hleading]
    | succ n =>
        refine .inl ⟨n, ?_, ?_⟩
        · simp only [after, remaining, hparts, hleading]
        · rw [hcomponents, hleading, List.singleton_append, List.drop_succ_cons]

theorem cons_trimParts_isInfix {p : Path} {first : List Char} {rest : List (List Char)}
    (hparts : p.parts = first :: rest) : first :: trimParts rest <:+: p.parts := by
  rw [hparts]
  exact ((List.prefix_cons_inj first).mpr (trimParts_isPrefix rest)).isInfix

/-- The components of what remains of a path are the remaining ones. -/
theorem components_after (n : Nat) (p : Path) : (p.after n).components = p.components.drop n := by
  rcases after_cases n p with ⟨m, hafter, hdrop⟩ | ⟨rfl, first, rest, hparts, hwhole⟩
  · rw [hafter, hdrop, (components_unparts_remaining m p).2.1]
  · have htrimmed : (first :: trimParts rest).filterMap component? =
        (first :: rest).filterMap component? := by
      simp only [List.filterMap_cons, filterMap_trimParts]
    rw [List.drop_zero, components_of_parts hparts, ← htrimmed]
    rcases hwhole with ⟨rfl, hrest, htrim, hafter⟩ | ⟨hleading, hafter⟩
    · rw [hafter, htrim, leading, if_pos ⟨rfl, hrest⟩]
      rfl
    · rw [hafter, components, parts_unparts (cons_trimParts_isInfix hparts) (List.cons_ne_nil _ _),
        ofParts, hleading]

/-- What remains behind some components is not absolute, and no dot in front of it has a meaning. -/
theorem components_after_succ (n : Nat) (p : Path) :
    (p.after (n + 1)).isAbsolute = false ∧
      (p.after (n + 1)).parts.filterMap component? = p.components.drop (n + 1) := by
  rcases after_cases (n + 1) p with ⟨m, hafter, hdrop⟩ | ⟨hzero, -⟩
  · obtain ⟨habsolute, -, hparts⟩ := components_unparts_remaining m p
    rw [hafter, hdrop]
    exact ⟨habsolute, hparts⟩
  · exact absurd hzero (Nat.succ_ne_zero n)

/-! ### Going down and up again -/

/-- Only the empty path has no components. -/
theorem components_eq_nil_iff {p : Path} : p.components = [] ↔ p.text = "" := by
  constructor
  · intro h
    obtain ⟨first, rest, hparts⟩ := List.exists_cons_of_ne_nil p.parts_ne_nil
    rw [components_of_parts hparts, List.append_eq_nil_iff] at h
    obtain ⟨hleading, hnone⟩ := h
    have hfirst : isSilent first = true := by
      by_contra hsilent
      obtain ⟨c, hc, -⟩ := component?_of_not_isSilent hsilent
      rw [List.filterMap_cons_some hc] at hnone
      exact List.cons_ne_nil _ _ hnone
    rcases isSilent_cases hfirst with rfl | rfl
    · have hrest : rest = [] := by
        by_contra hrest
        rw [leading, if_pos ⟨rfl, hrest⟩] at hleading
        exact List.cons_ne_nil _ _ hleading
      rw [← p.unparts_parts, hparts, hrest]
      rfl
    · exact absurd hleading (List.cons_ne_nil _ _)
  · intro h
    rw [components, parts, h]
    rfl

theorem join_of_text_eq_empty {p : Path} (h : p.text = "") (q : Path) : p.join q = q := by
  rw [join, h]
  exact ite_self q

/-- What remains of a path below an ancestor, joined to the ancestor, gives its components again. -/
theorem components_join_after {ancestor p : Path} (h : ancestor.components <+: p.components) :
    (ancestor.join (p.after ancestor.components.length)).components = p.components := by
  have hp := List.prefix_iff_eq_append.mp h
  cases hlength : ancestor.components.length with
  | zero =>
      have htext := components_eq_nil_iff.mp (List.eq_nil_of_length_eq_zero hlength)
      rw [join_of_text_eq_empty htext, components_after, List.drop_zero]
  | succ n =>
      have htext : ancestor.text ≠ "" := by
        intro htext
        rw [components_eq_nil_iff.mpr htext] at hlength
        exact absurd hlength (Nat.succ_ne_zero n).symm
      obtain ⟨habsolute, hparts⟩ := components_after_succ n p
      rw [components_join htext habsolute, hparts, ← hlength, hp]

/-! ### In front of the last slash -/

theorem dropLast_subset_of_isInfix {α : Type} {l l' : List α} (h : l <:+: l') :
    l.dropLast ⊆ l'.dropLast := by
  obtain ⟨front, back, rfl⟩ := h
  by_cases hl : l = []
  · rw [hl]
    exact List.nil_subset _
  · rw [List.append_assoc, List.dropLast_append_of_ne_nil (by simp [hl])]
    refine List.subset_append_of_subset_right front ?_
    cases back with
    | nil => rw [List.append_nil]; exact List.Subset.refl _
    | cons b back =>
        rw [List.dropLast_append_of_ne_nil (List.cons_ne_nil b back)]
        exact List.subset_append_of_subset_left _ (List.dropLast_subset l)

/-- The parts in front of the last slash of what remains are some of those of the path. -/
theorem mem_dropLast_parts_after {n : Nat} {p : Path} {part : List Char}
    (h : part ∈ (p.after n).parts.dropLast) : part ∈ p.parts.dropLast := by
  rcases after_cases n p with ⟨m, hafter, -⟩ | ⟨-, first, rest, hparts, hwhole⟩
  · by_cases hnil : remaining m p = []
    · rw [hafter, hnil] at h
      exact absurd h List.not_mem_nil
    · rw [hafter, parts_unparts (remaining_isInfix m p) hnil] at h
      exact dropLast_subset_of_isInfix (remaining_isInfix m p) h
  · rcases hwhole with ⟨rfl, hrest, -, hafter⟩ | ⟨-, hafter⟩
    · rw [hafter] at h
      rw [List.mem_singleton.mp h, hparts, List.dropLast_cons_of_ne_nil hrest]
      exact List.mem_cons_self
    · have hinfix := cons_trimParts_isInfix hparts
      rw [hafter, parts_unparts hinfix (List.cons_ne_nil _ _)] at h
      exact dropLast_subset_of_isInfix hinfix h

end EntityConventions.Path
