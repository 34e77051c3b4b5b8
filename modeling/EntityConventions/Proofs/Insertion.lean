import EntityConventions.Proofs.Sorting

/-! # Insertions

`Insertion P l m` says that `m` is `l` with elements that satisfy `P` inserted at any places.  It
tells more than `List.Sublist`: what was kept and what was inserted have equal elements apart.

A stable sort turns an insertion into an insertion (`IsStableSort.insertion`).  The proof marks
the elements of `m` that are kept and sorts them together with their marks. -/

namespace EntityConventions

variable {α β : Type} {P : α → Prop} {l m : List α}

/-- `m` is `l` with elements that satisfy `P` inserted at any places. -/
inductive Insertion (P : α → Prop) : List α → List α → Prop
  | nil : Insertion P [] []
  | keep {l m : List α} (a : α) (h : Insertion P l m) : Insertion P (a :: l) (a :: m)
  | add {l m : List α} {a : α} (ha : P a) (h : Insertion P l m) : Insertion P l (a :: m)

namespace Insertion

theorem refl : ∀ l : List α, Insertion P l l
  | [] => .nil
  | a :: l => .keep a (refl l)

theorem of_forall : ∀ {m : List α}, (∀ a ∈ m, P a) → Insertion P [] m
  | [], _ => .nil
  | _ :: _, h => .add (h _ List.mem_cons_self) (of_forall fun _ ha => h _ (List.mem_cons_of_mem _ ha))

theorem sublist (h : Insertion P l m) : l.Sublist m := by
  induction h with
  | nil => exact .slnil
  | keep a _ ih => exact ih.cons_cons a
  | add _ _ ih => exact ih.cons _

theorem append {l' m' : List α} (h : Insertion P l m) (h' : Insertion P l' m') :
    Insertion P (l ++ l') (m ++ m') := by
  induction h with
  | nil => exact h'
  | keep a _ ih => exact .keep a ih
  | add ha _ ih => exact .add ha ih

/-- Elements that are replaced by lists, the inserted ones by nothing but inserted elements. -/
theorem flatMap {Q : β → Prop} {g g' : α → List β} (h : Insertion P l m)
    (hkept : ∀ a, Insertion Q (g a) (g' a)) (hadded : ∀ a, P a → ∀ b ∈ g' a, Q b) :
    Insertion Q (l.flatMap g) (m.flatMap g') := by
  induction h with
  | nil => exact .nil
  | keep a _ ih => exact (hkept a).append ih
  | add ha _ ih => exact (of_forall (hadded _ ha)).append ih

/-- Elements of two lists that are replaced side by side. -/
theorem flatMap_forall₂ {γ : Type} {Q : β → Prop} {g : α → List β} {g' : γ → List β}
    {m : List γ} (h : List.Forall₂ (fun a c => Insertion Q (g a) (g' c)) l m) :
    Insertion Q (l.flatMap g) (m.flatMap g') := by
  induction h with
  | nil => exact .nil
  | cons h _ ih => exact h.append ih

/-- What is known of the inserted elements may be replaced, in view of where they are inserted. -/
theorem imp_of_mem {Q : α → Prop} (h : Insertion P l m) (hPQ : ∀ a ∈ m, P a → Q a) :
    Insertion Q l m := by
  induction h with
  | nil => exact .nil
  | keep a _ ih => exact .keep a (ih fun b hb => hPQ b (List.mem_cons_of_mem a hb))
  | @add _ _ a ha _ ih =>
      exact .add (hPQ a List.mem_cons_self ha) (ih fun b hb => hPQ b (List.mem_cons_of_mem a hb))

/-- Inserted elements are not seen by a test that they fail. -/
theorem filter_eq {p : α → Bool} (h : Insertion P l m) (hp : ∀ a, P a → p a = false) :
    m.filter p = l.filter p := by
  induction h with
  | nil => rfl
  | keep a _ ih => rw [List.filter_cons, List.filter_cons, ih]
  | add ha _ ih => rw [List.filter_cons_of_neg (by simp [hp _ ha]), ih]

theorem find?_eq {p : α → Bool} (h : Insertion P l m) (hp : ∀ a, P a → p a = false) :
    m.find? p = l.find? p := by
  rw [← List.head?_filter, h.filter_eq hp, List.head?_filter]

theorem countP_eq {p : α → Bool} (h : Insertion P l m) (hp : ∀ a, P a → p a = false) :
    m.countP p = l.countP p := by
  rw [List.countP_eq_length_filter, h.filter_eq hp, List.countP_eq_length_filter]

/-! ### Marks -/

/-- The marked elements of a list, and all of them, form an insertion. -/
theorem of_marked {t : List (α × Bool)} (h : ∀ c ∈ t, c.2 = false → P c.1) :
    Insertion P ((t.filter Prod.snd).map Prod.fst) (t.map Prod.fst) := by
  induction t with
  | nil => exact .nil
  | cons c t ih =>
      obtain ⟨a, kept⟩ := c
      have ih := ih fun c hc => h c (List.mem_cons_of_mem _ hc)
      cases kept with
      | true => exact .keep a ih
      | false => exact .add (h (a, false) List.mem_cons_self rfl) ih

theorem exists_marked (h : Insertion P l m) : ∃ t : List (α × Bool),
    (t.filter Prod.snd).map Prod.fst = l ∧ t.map Prod.fst = m ∧ ∀ c ∈ t, c.2 = false → P c.1 := by
  induction h with
  | nil => exact ⟨[], rfl, rfl, nofun⟩
  | keep a _ ih =>
      obtain ⟨t, rfl, rfl, ht⟩ := ih
      exact ⟨(a, true) :: t, rfl, rfl, List.forall_mem_cons.mpr ⟨nofun, ht⟩⟩
  | @add _ _ a ha _ ih =>
      obtain ⟨t, rfl, rfl, ht⟩ := ih
      exact ⟨(a, false) :: t, rfl, rfl, List.forall_mem_cons.mpr ⟨fun _ => ha, ht⟩⟩

end Insertion

/-- Sorting keeps insertions. -/
theorem IsStableSort.insertion {κ : Type} [LinearOrder κ] {key : α → κ} {s t : List α}
    (hs : IsStableSort key l s) (ht : IsStableSort key m t) (h : Insertion P l m) :
    Insertion P s t := by
  obtain ⟨marked, hl, hm, hP⟩ := h.exists_marked
  obtain ⟨sorted, hsorted⟩ : ∃ sorted, IsStableSort (key ∘ Prod.fst) marked sorted :=
    ⟨marked.mergeSort fun c d => key c.1 ≤ key d.1,
      isStableSort_mergeSort (fun _ _ => decide_eq_true_iff) marked⟩
  have hs' : s = (sorted.filter Prod.snd).map Prod.fst :=
    hs.eq_of_withKey_eq (hsorted.filter Prod.snd).map fun k => by rw [hl]
  have ht' : t = sorted.map Prod.fst :=
    ht.eq_of_withKey_eq hsorted.map fun k => by rw [hm]
  rw [hs', ht']
  exact .of_marked fun c hc => hP c (hsorted.perm.mem_iff.mp hc)

end EntityConventions
