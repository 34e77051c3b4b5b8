import EntityConventions.Report
import Mathlib.Data.List.Lex
import Mathlib.Data.List.Sort
import Mathlib.Data.Prod.Lex
import Mathlib.Data.String.Basic
import Mathlib.Order.Compare

/-! # The order of findings

`Finding.key` is what findings are ordered by: the components of the file, the line and the code,
compared lexicographically in the linear order of each.  `Finding.precedes` decides that order
(`precedes_iff`), so it is a total preorder whose ties are the findings with equal keys.

`IsStableSort key l s` says what a stable sort returns without saying how.  Sorting a report gives
such a list (`isStableSort_sorted`).  A stable sort is determined by what each key selects from the
list that was sorted (`IsStableSort.eq_of_withKey_eq`), however these selections are interleaved
there.  Elements may be left out, or replaced by others with their keys, before or after sorting
(`IsStableSort.filter`, `IsStableSort.map`). -/

namespace EntityConventions

/-! ### Stable sorts -/

section stable

variable {α κ : Type} [LinearOrder κ]

/-- The elements with a given key. -/
def withKey (key : α → κ) (k : κ) (l : List α) : List α :=
  l.filter fun a => key a = k

theorem mem_withKey {key : α → κ} {k : κ} {l : List α} {a : α} :
    a ∈ withKey key k l ↔ a ∈ l ∧ key a = k := by
  simp [withKey]

theorem withKey_flatMap {β : Type} {key : α → κ} {k : κ} (l : List β) (g : β → List α) :
    withKey key k (l.flatMap g) = l.flatMap fun b => withKey key k (g b) :=
  List.filter_flatMap

theorem withKey_map {β : Type} {key : α → κ} {k : κ} (f : β → α) (l : List β) :
    withKey key k (l.map f) = (withKey (key ∘ f) k l).map f :=
  List.filter_map

theorem withKey_filter {key : α → κ} {k : κ} (p : α → Bool) (l : List α) :
    withKey key k (l.filter p) = (withKey key k l).filter p :=
  List.filter_comm _ _ _

/-- `s` has the elements of `l` in the order of their keys; elements with one key stand in `s` as
they stand in `l`. -/
structure IsStableSort (key : α → κ) (l s : List α) : Prop where
  perm : s.Perm l
  sorted : s.Pairwise fun a b => key a ≤ key b
  stable : ∀ k, withKey key k s = withKey key k l

/-- Two ordered lists are equal if every key selects the same from both. -/
theorem eq_of_sorted_of_withKey_eq {key : α → κ} :
    ∀ {s t : List α}, s.Pairwise (fun a b => key a ≤ key b) →
      t.Pairwise (fun a b => key a ≤ key b) →
      (∀ k, withKey key k s = withKey key k t) → s = t
  | [], [], _, _, _ => rfl
  | [], b :: t, _, _, h => by
      have hb : b ∈ withKey key (key b) [] := by
        rw [h]
        exact mem_withKey.mpr ⟨List.mem_cons_self, rfl⟩
      exact absurd (mem_withKey.mp hb).1 List.not_mem_nil
  | a :: s, [], _, _, h => by
      have ha : a ∈ withKey key (key a) [] := by
        rw [← h]
        exact mem_withKey.mpr ⟨List.mem_cons_self, rfl⟩
      exact absurd (mem_withKey.mp ha).1 List.not_mem_nil
  | a :: s, b :: t, hs, ht, h => by
      -- The heads have one key, because each of them occurs in the other list.
      have ha : a ∈ withKey key (key a) (b :: t) := by
        rw [← h]
        exact mem_withKey.mpr ⟨List.mem_cons_self, rfl⟩
      have hb : b ∈ withKey key (key b) (a :: s) := by
        rw [h]
        exact mem_withKey.mpr ⟨List.mem_cons_self, rfl⟩
      have hba : key b ≤ key a := by
        rcases List.mem_cons.mp (mem_withKey.mp ha).1 with rfl | hm
        · exact le_rfl
        · exact List.rel_of_pairwise_cons ht hm
      have hab : key a ≤ key b := by
        rcases List.mem_cons.mp (mem_withKey.mp hb).1 with rfl | hm
        · exact le_rfl
        · exact List.rel_of_pairwise_cons hs hm
      have hkey : key a = key b := le_antisymm hab hba
      have hhead := h (key a)
      simp only [withKey, List.filter_cons, hkey, decide_true, if_true, List.cons.injEq] at hhead
      obtain ⟨rfl, -⟩ := hhead
      have hrest : ∀ k, withKey key k s = withKey key k t := by
        intro k
        have hk := h k
        simp only [withKey, List.filter_cons] at hk
        split at hk
        · exact List.tail_eq_of_cons_eq hk
        · exact hk
      rw [eq_of_sorted_of_withKey_eq hs.of_cons ht.of_cons hrest]

namespace IsStableSort

variable {key : α → κ} {l l' s s' : List α}

/-- A stable sort depends only on what each key selects from the list. -/
theorem eq_of_withKey_eq (h : IsStableSort key l s) (h' : IsStableSort key l' s')
    (hl : ∀ k, withKey key k l = withKey key k l') : s = s' := by
  apply eq_of_sorted_of_withKey_eq h.sorted h'.sorted
  intro k
  rw [h.stable, h'.stable, hl]

/-- Leaving elements out before or after a stable sort is the same. -/
theorem filter (h : IsStableSort key l s) (p : α → Bool) :
    IsStableSort key (l.filter p) (s.filter p) where
  perm := h.perm.filter p
  sorted := h.sorted.filter p
  stable k := by
    rw [withKey_filter, h.stable, ← withKey_filter]

/-- Replacing elements before or after a stable sort is the same, if their keys stay. -/
theorem map {β : Type} {f : β → α} {l s : List β} (h : IsStableSort (key ∘ f) l s) :
    IsStableSort key (l.map f) (s.map f) where
  perm := h.perm.map f
  sorted := List.pairwise_map.mpr h.sorted
  stable k := by
    rw [withKey_map, h.stable, ← withKey_map]

/-- The keys of a sorted list depend only on the elements, not on their order. -/
theorem map_key_eq_of_perm (h : IsStableSort key l s) (h' : IsStableSort key l' s')
    (hl : l.Perm l') : s.map key = s'.map key := by
  have hperm : (s.map key).Perm (s'.map key) :=
    ((h.perm.trans hl).trans h'.perm.symm).map key
  exact hperm.eq_of_pairwise' (List.pairwise_map.mpr h.sorted) (List.pairwise_map.mpr h'.sorted)

end IsStableSort

/-- Merge sort is a stable sort by any key that its comparison decides. -/
theorem isStableSort_mergeSort {key : α → κ} {le : α → α → Bool}
    (hle : ∀ a b, le a b = true ↔ key a ≤ key b) (l : List α) :
    IsStableSort key l (l.mergeSort le) := by
  have trans : ∀ a b c, le a b = true → le b c = true → le a c = true := by
    intro a b c hab hbc
    rw [hle] at hab hbc ⊢
    exact hab.trans hbc
  have total : ∀ a b, (le a b || le b a) = true := by
    intro a b
    rw [Bool.or_eq_true, hle, hle]
    exact le_total _ _
  have perm : (l.mergeSort le).Perm l := List.mergeSort_perm l le
  refine ⟨perm, ?_, fun k => ?_⟩
  · exact (List.pairwise_mergeSort trans total l).imp fun h => (hle _ _).mp h
  · -- What a key selects from `l` is ordered, so sorting keeps it as a sublist.
    have hselected : (withKey key k l).Pairwise fun a b => le a b = true := by
      apply List.pairwise_of_forall_mem_list
      intro a ha b hb
      rw [hle, (mem_withKey.mp ha).2, (mem_withKey.mp hb).2]
    have hsub := List.sublist_mergeSort trans total hselected List.filter_sublist
    have hsub' := hsub.filter fun a => decide (key a = k)
    rw [withKey, List.filter_filter] at hsub'
    simp only [Bool.and_self] at hsub'
    exact (hsub'.eq_of_length (perm.filter _).length_eq.symm).symm

end stable

/-! ### Comparisons that decide an order -/

theorem compares_then {α β : Type} [LinearOrder α] [LinearOrder β] {o₁ o₂ : Ordering}
    {a a' : α} {b b' : β} (h₁ : o₁.Compares a a') (h₂ : o₂.Compares b b') :
    (o₁.then o₂).Compares (toLex (a, b)) (toLex (a', b')) := by
  cases o₁ with
  | lt => exact Prod.Lex.toLex_lt_toLex.mpr (Or.inl h₁)
  | gt => exact Prod.Lex.toLex_lt_toLex.mpr (Or.inl h₁)
  | eq =>
      have ha : a = a' := h₁
      subst ha
      cases o₂ with
      | lt => exact Prod.Lex.toLex_lt_toLex.mpr (Or.inr ⟨rfl, h₂⟩)
      | gt => exact Prod.Lex.toLex_lt_toLex.mpr (Or.inr ⟨rfl, h₂⟩)
      | eq =>
          have hb : b = b' := h₂
          subst hb
          rfl

theorem compares_compare {α : Type} [LinearOrder α] (a b : α) : (compare a b).Compares a b :=
  (compare_iff a b).mp rfl

theorem compares_compareLex {α : Type} [LinearOrder α] {cmp : α → α → Ordering}
    (h : ∀ a b, (cmp a b).Compares a b) :
    ∀ l m : List α, (List.compareLex cmp l m).Compares l m
  | [], [] => by
      rw [List.compareLex_nil_nil]
      rfl
  | [], b :: m => by
      rw [List.compareLex_nil_cons]
      exact List.Lex.nil
  | a :: l, [] => by
      rw [List.compareLex_cons_nil]
      exact List.Lex.nil
  | a :: l, b :: m => by
      rw [List.compareLex_cons_cons]
      have hab := h a b
      cases ho : cmp a b with
      | lt =>
          rw [ho] at hab
          exact List.Lex.rel hab
      | gt =>
          rw [ho] at hab
          exact List.Lex.rel hab
      | eq =>
          rw [ho] at hab
          have he : a = b := hab
          subst he
          have hlm := compares_compareLex h l m
          cases hm : List.compareLex cmp l m with
          | lt =>
              rw [hm] at hlm
              exact List.Lex.cons hlm
          | gt =>
              rw [hm] at hlm
              exact List.Lex.cons hlm
          | eq =>
              rw [hm] at hlm
              exact congrArg (List.cons a) hlm

/-! ### Components, paths and findings -/

/-- A component by its kind and its text. -/
def Component.key (c : Component) : Nat ×ₗ String :=
  toLex (c.rank, c.text)

theorem Component.key_injective : Function.Injective Component.key := by
  intro a b h
  simp only [Component.key, EmbeddingLike.apply_eq_iff_eq, Prod.mk.injEq] at h
  cases a <;> cases b <;> simp_all [Component.rank, Component.text]

/-- The root first, then `.`, then `..`, then names. -/
instance : LinearOrder Component :=
  LinearOrder.lift' Component.key Component.key_injective

theorem Component.compares_order (a b : Component) : (a.order b).Compares a b := by
  have h : (a.order b).Compares a.key b.key :=
    compares_then (compares_compare _ _) (compares_compare _ _)
  cases ho : a.order b with
  | lt =>
      rw [ho] at h
      exact h
  | gt =>
      rw [ho] at h
      exact h
  | eq =>
      rw [ho] at h
      exact Component.key_injective h

theorem Path.compares_order (p q : Path) : (p.order q).Compares p.components q.components :=
  compares_compareLex Component.compares_order _ _

/-- What findings are ordered by: the components of the file, the line and the code. -/
abbrev Finding.Key : Type := List Component ×ₗ Nat ×ₗ String

/-- The key of a finding. -/
def Finding.key (f : Finding) : Finding.Key :=
  toLex (f.file.components, toLex (f.line, f.code))

/-- The code in a key. -/
def Finding.Key.code (k : Finding.Key) : String :=
  (ofLex (ofLex k).2).2

theorem Finding.code_key (f : Finding) : f.key.code = f.code := rfl

/-- Findings are compared by their keys. -/
theorem Finding.precedes_iff (f g : Finding) : f.precedes g = true ↔ f.key ≤ g.key := by
  have h : (f.order g).Compares f.key g.key :=
    compares_then (Path.compares_order _ _)
      (compares_then (compares_compare _ _) (compares_compare _ _))
  rw [Finding.precedes, Ordering.isLE_iff_ne_gt]
  exact h.ne_gt

/-- A sorted report is stably sorted by file, line and code. -/
theorem Report.isStableSort_sorted (r : Report) :
    IsStableSort Finding.key r.findings r.sorted.findings :=
  isStableSort_mergeSort Finding.precedes_iff r.findings

end EntityConventions
