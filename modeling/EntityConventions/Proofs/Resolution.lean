import EntityConventions.ClassIndex
import Mathlib.Data.Finset.Card

/-! # The class that a name resolves to

The history of an index is a list of entries that it is made from and a list of classes that are
inserted afterwards.  `ClassIndex.chosen?` says which of the entries stands for a name: the first
with a declaration, or else the first of all.  Gathering entries one by one keeps, for each name,
the entry chosen among those seen so far (`lookup_foldl_absorb`), so an index of documents finds
the chosen entries (`get?_ofModels`).

`ClassIndex.Holds` is what stays true of an index while names come in: it holds each name once, and
each class under the name of that class.  One insertion keeps it (`Holds.insert`); accounting for
an entry keeps it as well, because that is to insert its class or to leave the index alone
(`holds_absorb`).  Both together give the state of an index after any history
(`get?_foldl_insert_ofModels`). -/

namespace EntityConventions

/-- The name of a class without leading separators. -/
def Reflection.key (r : Reflection) : String :=
  Name.stripLeading r.name

namespace ClassEntry

/-- The name of an entry's class without leading separators. -/
def key (e : ClassEntry) : String :=
  e.reflection.key

/-- Whether an entry has a declaration. -/
def isDeclared (e : ClassEntry) : Bool :=
  e.declaration?.isSome

end ClassEntry

namespace ClassIndex

/-! ### Tables -/

section table

variable {α β : Type} {key : String} {a : α}

theorem lookup_cons (k : String) (c : String × α) (l : List (String × α)) :
    (c :: l).lookup k = if k = c.1 then some c.2 else l.lookup k := by
  rw [List.lookup_cons]
  by_cases hk : k = c.1
  · simp [hk]
  · rw [beq_false_of_ne hk, if_neg hk]

theorem lookup_put (k : String) (l : List (String × α)) :
    (put key a l).lookup k = if k = key then some a else l.lookup k := by
  induction l with
  | nil => rw [put, lookup_cons]
  | cons c l ih =>
      rw [put, lookup_cons]
      by_cases hc : c.1 = key
      · rw [if_pos hc, lookup_cons, hc]
        by_cases hk : k = key
        · rw [if_pos hk, if_pos hk]
        · rw [if_neg hk, if_neg hk, if_neg hk]
      · rw [if_neg hc, lookup_cons, ih]
        by_cases hk : k = c.1
        · have hne : k ≠ key := fun h => hc (hk.symm.trans h)
          rw [if_pos hk, if_pos hk, if_neg hne]
        · rw [if_neg hk, if_neg hk]

theorem mem_keys_of_lookup_eq_some {k : String} {l : List (String × α)} (h : l.lookup k = some a) :
    k ∈ l.map Prod.fst := by
  induction l with
  | nil => cases h
  | cons c l ih =>
      rw [lookup_cons] at h
      by_cases hk : k = c.1
      · exact hk ▸ List.mem_cons_self
      · rw [if_neg hk] at h
        exact List.mem_cons_of_mem _ (ih h)

theorem mem_put {c : String × α} {l : List (String × α)} (h : c ∈ put key a l) :
    c = (key, a) ∨ c ∈ l := by
  induction l with
  | nil => exact Or.inl (List.mem_singleton.mp h)
  | cons b l ih =>
      rw [put] at h
      split at h
      · rcases List.mem_cons.mp h with h | h
        · exact Or.inl h
        · exact Or.inr (List.mem_cons_of_mem _ h)
      · rcases List.mem_cons.mp h with h | h
        · exact Or.inr (h ▸ List.mem_cons_self)
        · exact (ih h).imp_right (List.mem_cons_of_mem _)

theorem mem_keys_put (k : String) (l : List (String × α)) :
    k ∈ (put key a l).map Prod.fst ↔ k = key ∨ k ∈ l.map Prod.fst := by
  induction l with
  | nil => simp [put]
  | cons c l ih =>
      rw [put]
      by_cases hc : c.1 = key
      · simp [hc]
      · rw [if_neg hc, List.map_cons, List.mem_cons, ih, List.map_cons, List.mem_cons]
        exact or_left_comm

theorem nodup_keys_put {l : List (String × α)} (h : (l.map Prod.fst).Nodup) :
    ((put key a l).map Prod.fst).Nodup := by
  induction l with
  | nil => simp [put]
  | cons c l ih =>
      rw [List.map_cons, List.nodup_cons] at h
      rw [put]
      by_cases hc : c.1 = key
      · rw [if_pos hc, List.map_cons, List.nodup_cons]
        exact ⟨hc ▸ h.1, h.2⟩
      · rw [if_neg hc, List.map_cons, List.nodup_cons, mem_keys_put]
        exact ⟨fun hm => hm.elim hc h.1, ih h.2⟩

theorem map_put (g : α → β) (l : List (String × α)) :
    (put key a l).map (fun c => (c.1, g c.2)) = put key (g a) (l.map fun c => (c.1, g c.2)) := by
  induction l with
  | nil => rfl
  | cons c l ih =>
      rw [List.map_cons, put, put]
      split
      · rfl
      · rw [List.map_cons, ih]

theorem lookup_map (g : α → β) (k : String) (l : List (String × α)) :
    (l.map fun c => (c.1, g c.2)).lookup k = (l.lookup k).map g := by
  induction l with
  | nil => rfl
  | cons c l ih =>
      rw [List.map_cons, lookup_cons, lookup_cons, ih]
      split <;> rfl

end table

/-! ### The chosen entries -/

/-- The entry that stands for a name among some entries: the first with a declaration, or else the
first of all. -/
def chosen? (entries : List ClassEntry) (key : String) : Option ClassEntry :=
  (entries.find? fun e => e.key == key && e.isDeclared).or
    (entries.find? fun e => e.key == key)

theorem chosen?_concat_of_ne {entries : List ClassEntry} {e : ClassEntry} {key : String}
    (h : e.key ≠ key) : chosen? (entries ++ [e]) key = chosen? entries key := by
  simp [chosen?, List.find?_append, h]

theorem chosen?_concat_of_eq_none {entries : List ClassEntry} {e : ClassEntry}
    (h : chosen? entries e.key = none) : chosen? (entries ++ [e]) e.key = some e := by
  obtain ⟨hdeclared, hnamed⟩ := Option.or_eq_none_iff.mp h
  rw [chosen?, List.find?_append, List.find?_append, hdeclared, hnamed]
  cases hdecl : e.isDeclared <;> simp [hdecl]

/-- A later entry is chosen only if it is the first with a declaration. -/
theorem chosen?_concat_of_eq_some {entries : List ClassEntry} {e c : ClassEntry}
    (h : chosen? entries e.key = some c) :
    chosen? (entries ++ [e]) e.key = some (if e.isDeclared && !c.isDeclared then e else c) := by
  rw [chosen?] at h ⊢
  rw [List.find?_append, List.find?_append]
  cases hdeclared : entries.find? fun x => x.key == e.key && x.isDeclared with
  | some d =>
      have hd := List.find?_some hdeclared
      rw [hdeclared, Option.some_or, Option.some.injEq] at h
      rw [Bool.and_eq_true] at hd
      simp [← h, hd.2]
  | none =>
      rw [hdeclared, Option.none_or] at h
      have hc : c.isDeclared = false := by
        have hnone := List.find?_eq_none.mp hdeclared c (List.mem_of_find?_eq_some h)
        have hkey := List.find?_some h
        rw [hkey, Bool.true_and] at hnone
        simpa using hnone
      rw [h]
      cases hdecl : e.isDeclared <;> simp [hc, hdecl]

/-! ### Gathering entries -/

theorem absorb_of_lookup_eq_none {known : List (String × Bool × Reflection)} {e : ClassEntry}
    (h : known.lookup e.key = none) :
    absorb known e = put e.key (e.isDeclared, e.reflection) known := by
  have h : known.lookup (Name.stripLeading e.reflection.name) = none := h
  simp only [absorb, h]
  rfl

theorem absorb_of_lookup_eq_some {known : List (String × Bool × Reflection)} {e : ClassEntry}
    {declared : Bool} {r : Reflection} (h : known.lookup e.key = some (declared, r)) :
    absorb known e =
      if e.isDeclared && !declared then put e.key (e.isDeclared, e.reflection) known else known := by
  have h : known.lookup (Name.stripLeading e.reflection.name) = some (declared, r) := h
  cases declared <;> simp [absorb, h, ClassEntry.isDeclared, ClassEntry.key, Reflection.key]

/-- One more entry: what is known under a name stays what the chosen entry says. -/
theorem lookup_absorb {known : List (String × Bool × Reflection)} {entries : List ClassEntry}
    (h : ∀ key, known.lookup key = (chosen? entries key).map fun c => (c.isDeclared, c.reflection))
    (e : ClassEntry) (key : String) :
    (absorb known e).lookup key =
      (chosen? (entries ++ [e]) key).map fun c => (c.isDeclared, c.reflection) := by
  by_cases hkey : e.key = key
  · subst hkey
    cases hc : chosen? entries e.key with
    | none =>
        have hknown : known.lookup e.key = none := by rw [h, hc]; rfl
        rw [absorb_of_lookup_eq_none hknown, chosen?_concat_of_eq_none hc, lookup_put, if_pos rfl]
        rfl
    | some c =>
        have hknown : known.lookup e.key = some (c.isDeclared, c.reflection) := by rw [h, hc]; rfl
        rw [absorb_of_lookup_eq_some hknown, chosen?_concat_of_eq_some hc]
        split
        · rw [lookup_put, if_pos rfl]
          rfl
        · exact hknown
  · -- Another name is neither added nor replaced.
    have hother : (absorb known e).lookup key = known.lookup key := by
      cases hknown : known.lookup e.key with
      | none => rw [absorb_of_lookup_eq_none hknown, lookup_put, if_neg (Ne.symm hkey)]
      | some c =>
          obtain ⟨declared, r⟩ := c
          rw [absorb_of_lookup_eq_some hknown]
          split
          · rw [lookup_put, if_neg (Ne.symm hkey)]
          · rfl
    rw [hother, chosen?_concat_of_ne hkey, h]

/-- What is known after some entries is what the chosen ones say. -/
theorem lookup_foldl_absorb (entries : List ClassEntry) (key : String) :
    (entries.foldl absorb []).lookup key =
      (chosen? entries key).map fun c => (c.isDeclared, c.reflection) := by
  induction entries using List.reverseRecOn generalizing key with
  | nil => rfl
  | append_singleton entries e ih =>
      rw [List.foldl_append]
      exact lookup_absorb ih e key

/-- Documents resolve a name to the class of the chosen entry. -/
theorem get?_ofModels (models : List Model) (name : String) :
    (ofModels models).get? name =
      (chosen? (models.flatMap Model.classes) (Name.stripLeading name)).map
        ClassEntry.reflection := by
  rw [get?, ofModels, lookup_map Prod.snd, lookup_foldl_absorb, Option.map_map]
  rfl

/-! ### What an index holds -/

/-- An index holds the given names, each once, and every class under its own name. -/
structure Holds (index : ClassIndex) (names : List String) : Prop where
  nodup : (index.classes.map Prod.fst).Nodup
  mem_iff : ∀ k, k ∈ index.classes.map Prod.fst ↔ k ∈ names
  own : ∀ c ∈ index.classes, c.2.key = c.1

theorem holds_empty : empty.Holds [] where
  nodup := List.nodup_nil
  mem_iff _ := Iff.rfl
  own _ h := absurd h List.not_mem_nil

namespace Holds

variable {index : ClassIndex} {names : List String}

theorem insert (h : index.Holds names) (r : Reflection) :
    (index.insert r).Holds (names ++ [r.key]) where
  nodup := nodup_keys_put h.nodup
  mem_iff k := by
    rw [ClassIndex.insert, mem_keys_put, h.mem_iff, List.mem_append, List.mem_singleton, or_comm]
    rfl
  own c hc := by
    rcases mem_put hc with rfl | hc
    · rfl
    · exact h.own c hc

/-- A name that is held already may come in again. -/
theorem again (h : index.Holds names) {key : String} (hkey : key ∈ names) :
    index.Holds (names ++ [key]) where
  nodup := h.nodup
  mem_iff k := by
    rw [h.mem_iff, List.mem_append, List.mem_singleton]
    exact ⟨Or.inl, fun hk => hk.elim id fun hk => hk ▸ hkey⟩
  own := h.own

theorem size_eq (h : index.Holds names) : index.size = names.toFinset.card := by
  have hnames : (index.classes.map Prod.fst).toFinset = names.toFinset := by
    ext k
    rw [List.mem_toFinset, List.mem_toFinset, h.mem_iff]
  rw [← hnames, List.toFinset_card_of_nodup h.nodup, List.length_map]
  rfl

end Holds

/-- The index of what is known. -/
def ofKnown (known : List (String × Bool × Reflection)) : ClassIndex :=
  ⟨known.map fun k => (k.1, k.2.2)⟩

theorem ofKnown_put (known : List (String × Bool × Reflection)) (e : ClassEntry) :
    ofKnown (put e.key (e.isDeclared, e.reflection) known) =
      (ofKnown known).insert e.reflection := by
  rw [ofKnown, map_put Prod.snd]
  rfl

theorem holds_absorb {known : List (String × Bool × Reflection)} {names : List String}
    (h : (ofKnown known).Holds names) (e : ClassEntry) :
    (ofKnown (absorb known e)).Holds (names ++ [e.key]) := by
  cases hknown : known.lookup e.key with
  | none =>
      rw [absorb_of_lookup_eq_none hknown, ofKnown_put]
      exact h.insert e.reflection
  | some c =>
      obtain ⟨declared, r⟩ := c
      rw [absorb_of_lookup_eq_some hknown]
      split
      · rw [ofKnown_put]
        exact h.insert e.reflection
      · apply h.again
        rw [← h.mem_iff, ofKnown, List.map_map]
        exact mem_keys_of_lookup_eq_some hknown

theorem holds_ofModels (models : List Model) :
    (ofModels models).Holds ((models.flatMap Model.classes).map ClassEntry.key) := by
  show (ofKnown _).Holds _
  induction models.flatMap Model.classes using List.reverseRecOn with
  | nil => exact holds_empty
  | append_singleton entries e ih =>
      rw [List.foldl_append, List.map_append]
      exact holds_absorb ih e

/-! ### Any history -/

theorem get?_insert (index : ClassIndex) (r : Reflection) (name : String) :
    (index.insert r).get? name =
      if r.key = Name.stripLeading name then some r else index.get? name := by
  rw [get?, insert, lookup_put]
  simp only [eq_comm]
  rfl

theorem get?_foldl_insert (index : ClassIndex) (rs : List Reflection) (name : String) :
    (rs.foldl insert index).get? name =
      (rs.reverse.find? fun r => r.key == Name.stripLeading name).or (index.get? name) := by
  induction rs using List.reverseRecOn with
  | nil => rfl
  | append_singleton rs r ih =>
      rw [List.foldl_append, List.reverse_append]
      show (ClassIndex.insert _ r).get? name = (List.find? _ (r :: rs.reverse)).or _
      rw [get?_insert, ih]
      by_cases h : r.key = Name.stripLeading name
      · rw [if_pos h, List.find?_cons_of_pos (by simpa using h), Option.some_or]
      · rw [if_neg h, List.find?_cons_of_neg (by simpa using h)]

theorem holds_foldl_insert {index : ClassIndex} {names : List String} (h : index.Holds names)
    (rs : List Reflection) : (rs.foldl insert index).Holds (names ++ rs.map Reflection.key) := by
  induction rs generalizing index names with
  | nil => simpa using h
  | cons r rs ih => simpa using ih (h.insert r)

/-- **What a name resolves to after any history.**  It is the class of that name that was inserted
last, or else the one of the first entry with a declaration, or else the one of the first entry.
The index counts the different names seen, and keeps every class under its own name. -/
theorem get?_foldl_insert_ofModels (models : List Model) (rs : List Reflection) :
    let entries := models.flatMap Model.classes
    let index := rs.foldl insert (ofModels models)
    (∀ name, index.get? name =
      (rs.reverse.find? fun r => r.key == Name.stripLeading name).or
        (((entries.find? fun e => e.key == Name.stripLeading name && e.isDeclared).or
          (entries.find? fun e => e.key == Name.stripLeading name)).map ClassEntry.reflection)) ∧
    index.size = (entries.map ClassEntry.key ++ rs.map Reflection.key).toFinset.card ∧
    ∀ c ∈ index.classes, c.2.key = c.1 := by
  intro entries index
  have holds : index.Holds (entries.map ClassEntry.key ++ rs.map Reflection.key) :=
    holds_foldl_insert (holds_ofModels models) rs
  refine ⟨fun name => ?_, holds.size_eq, holds.own⟩
  rw [get?_foldl_insert, get?_ofModels]
  rfl

end ClassIndex

end EntityConventions
