import EntityConventions.Json.Record
import Mathlib.Data.List.Basic
import Mathlib.Data.List.Forall2
import Mathlib.Data.List.Nodup

/-! # Decoders of JSON values

What the decoders take: `listOf_eq_some_iff` and `mapM_eq_some_iff` for lists, and the statements
`of_required`, `of_optional`, `of_nullable` and `of_listOf`, by which everything that is read has a
property if each decoder of a part grants it.

A decoder confines a value (`Confines`) if it reads the value only where there is room for all of
it.  A decoder of a record cannot do so for every value, because it passes over the members that it
does not know; it does for an object that has no others (`Record.depth_ofMembers_le`). -/

namespace EntityConventions.Json

/-! ### Nesting -/

theorem depth_le_depthItems {items : List Json} {j : Json} (h : j ∈ items) :
    j.depth ≤ depthItems items := by
  induction items with
  | nil => exact absurd h List.not_mem_nil
  | cons k items ih =>
      rw [depthItems]
      rcases List.mem_cons.mp h with rfl | h
      · exact Nat.le_max_left _ _
      · exact Nat.le_trans (ih h) (Nat.le_max_right _ _)

theorem depthItems_le {items : List Json} {n : Nat} (h : ∀ j ∈ items, j.depth ≤ n) :
    depthItems items ≤ n := by
  induction items with
  | nil => exact Nat.zero_le n
  | cons k items ih =>
      rw [depthItems]
      exact Nat.max_le.mpr ⟨h k List.mem_cons_self, ih fun j hj => h j (List.mem_cons_of_mem k hj)⟩

theorem depthMembers_eq (members : List (Option String × Json)) :
    depthMembers members = depthItems (members.map Prod.snd) := by
  induction members with
  | nil => rfl
  | cons m members ih =>
      obtain ⟨name, j⟩ := m
      rw [depthMembers, ih]
      rfl

theorem depth_array (items : List Json) : (array items).depth = depthItems items + 1 := rfl

theorem depth_ofMembers (members : List (String × Json)) :
    (ofMembers members).depth = depthItems (members.map Prod.snd) + 1 := by
  rw [ofMembers, depth, depthMembers_eq, List.map_map]
  rfl

/-! ### Looking up -/

theorem lookup_eq_some_iff {α : Type} {l : List (String × α)} (hl : (l.map Prod.fst).Nodup)
    {name : String} {a : α} : l.lookup name = some a ↔ (name, a) ∈ l := by
  induction l with
  | nil => simp
  | cons p l ih =>
      obtain ⟨key, b⟩ := p
      rw [List.map_cons, List.nodup_cons] at hl
      rw [List.lookup_cons, List.mem_cons]
      by_cases hk : name = key
      · subst hk
        have habsent : (name, a) ∉ l := fun h => hl.1 (List.mem_map.mpr ⟨_, h, rfl⟩)
        simp [habsent, eq_comm]
      · rw [beq_false_of_ne hk]
        simp [hk, ih hl.2]

theorem lookup_eq_none_iff {α : Type} {l : List (String × α)} {name : String} :
    l.lookup name = none ↔ name ∉ l.map Prod.fst := by
  rw [List.lookup_eq_none_iff, List.mem_map, not_exists]
  refine forall_congr' fun p => ?_
  rw [not_and, bne_iff_ne]
  exact imp_congr_right fun _ => ne_comm

/-! ### Decoding -/

theorem enter_eq_some_iff {room room' : Nat} : enter room = some room' ↔ room = room' + 1 := by
  cases room <;> simp [enter]

theorem mapM_eq_some_iff {α β : Type} {decode : α → Option β} {items : List α} {as : List β} :
    items.mapM decode = some as ↔ List.Forall₂ (fun j a => decode j = some a) items as := by
  induction items generalizing as with
  | nil => simp [eq_comm]
  | cons j items ih =>
      simp only [List.mapM_cons, Option.bind_eq_bind, Option.bind_eq_some_iff, Option.pure_def,
        Option.some.injEq, List.forall₂_cons_left_iff, ih]
      grind

theorem listOf_eq_some_iff {α : Type} {decode : Nat → Json → Option α} {room : Nat} {j : Json}
    {as : List α} : listOf decode room j = some as ↔ ∃ room', room = room' + 1 ∧
      ∃ items, j = .array items ∧
        List.Forall₂ (fun j a => decode room' j = some a) items as := by
  constructor
  · intro h
    unfold listOf at h
    split at h
    · exact ⟨_, rfl, _, rfl, mapM_eq_some_iff.mp h⟩
    · exact absurd h (by simp)
  · rintro ⟨room', rfl, items, rfl, h⟩
    exact mapM_eq_some_iff.mpr h

theorem nullable_eq_some {α : Type} {decode : Json → Option α} {j : Json} {a : α}
    (hnull : decode .null = none) (h : decode j = some a) : nullable decode j = some (some a) := by
  cases j with
  | null =>
      rw [hnull] at h
      exact absurd h (by simp)
  | _ => simp [nullable, h]

theorem nat64?_ofNat {n : Nat} (h : n < 18446744073709551616) : (ofNat n).nat64? = some n := by
  simp [nat64?, ofNat, int?, Numeral.int?, h]

theorem int64?_ofInt {i : Int} (h : -9223372036854775808 ≤ i ∧ i < 9223372036854775808) :
    (ofInt i).int64? = some i := by
  have hint : (ofInt i).int? = some i := by
    cases i with
    | ofNat n =>
        have hsign : decide (Int.ofNat n < 0) = false := decide_eq_false (by simp)
        rw [ofInt, hsign]
        rfl
    | negSucc n =>
        have hsign : decide (Int.negSucc n < 0) = true := decide_eq_true (Int.negSucc_lt_zero n)
        rw [ofInt, hsign]
        rfl
  simp [int64?, hint, h]

/-! ### What is read -/

section Read

variable {α : Type} {P : α → Prop} {r : Record} {name : String} {a d : α}
variable {decode : Json → Option α}

theorem Record.of_required (h : r.required name decode = some a)
    (hdecode : ∀ j a, decode j = some a → P a) : P a := by
  obtain ⟨j, -, hj⟩ := Option.bind_eq_some_iff.mp h
  exact hdecode j a hj

theorem Record.of_optional (h : r.optional name d decode = some a) (hd : P d)
    (hdecode : ∀ j a, decode j = some a → P a) : P a := by
  unfold Record.optional at h
  split at h
  · cases h
    exact hd
  · exact hdecode _ a h

theorem of_nullable {j : Json} {a? : Option α} (h : nullable decode j = some a?)
    (hdecode : ∀ j a, decode j = some a → P a) : ∀ a ∈ a?, P a := by
  intro a ha
  unfold nullable at h
  split at h
  · cases h
    exact absurd ha (by simp)
  · obtain ⟨b, hb, rfl⟩ := Option.map_eq_some_iff.mp h
    cases ha
    exact hdecode _ _ hb

theorem Record.of_optional_nullable {a? : Option α}
    (h : r.optional name none (nullable decode) = some a?)
    (hdecode : ∀ j a, decode j = some a → P a) : ∀ a ∈ a?, P a :=
  @Record.of_optional _ (fun a? => ∀ a ∈ a?, P a) _ _ _ _ _ h (by simp)
    fun _ _ h => of_nullable h hdecode

theorem of_mapM {items : List Json} {as : List α} (h : items.mapM decode = some as)
    (hdecode : ∀ j a, decode j = some a → P a) : ∀ a ∈ as, P a := by
  have hread := (mapM_eq_some_iff.mp h).flip.imp fun a j hj => And.intro (hdecode j a hj) hj
  exact ((List.forall₂_and_left as items).mp hread).1

theorem of_listOf {decode : Nat → Json → Option α} {j : Json} {room : Nat} {as : List α}
    (h : listOf decode room j = some as)
    (hdecode : ∀ room j a, decode room j = some a → P a) : ∀ a ∈ as, P a := by
  obtain ⟨room', -, items, -, hread⟩ := listOf_eq_some_iff.mp h
  exact of_mapM (mapM_eq_some_iff.mpr hread) (hdecode room')

theorem Record.of_optional_listOf {decode : Nat → Json → Option α} {room : Nat} {as : List α}
    (h : r.optional name [] (listOf decode room) = some as)
    (hdecode : ∀ room j a, decode room j = some a → P a) : ∀ a ∈ as, P a :=
  @Record.of_optional _ (fun as => ∀ a ∈ as, P a) _ _ _ _ _ h (by simp)
    fun _ _ h => of_listOf h hdecode

end Read

/-! ### Room -/

section Room

variable {α : Type} {decode : Nat → Json → Option α} {j : Json} {room : Nat} {r : Record}
variable {name : String} {a d : α}

/-- A decoder reads a value only where there is room for all of it. -/
def Confines (decode : Nat → Json → Option α) (j : Json) : Prop :=
  ∀ room a, decode room j = some a → j.depth ≤ room

theorem Confines.nullable {encode : α → Json} (h : ∀ a, Confines decode (encode a))
    (a? : Option α) : Confines (fun room => Json.nullable (decode room)) (.ofOption encode a?) := by
  intro room b? hb
  cases a? with
  | none => exact Nat.zero_le room
  | some a =>
      rw [ofOption] at hb ⊢
      dsimp only [Json.nullable] at hb
      split at hb
      case h_1 hnull =>
        rw [hnull]
        exact Nat.zero_le room
      case h_2 =>
        obtain ⟨b, hb, -⟩ := Option.map_eq_some_iff.mp hb
        exact h a room b hb

theorem Confines.listOf {encode : α → Json} (h : ∀ a, Confines decode (encode a)) (as : List α) :
    Confines (Json.listOf decode) (.ofList encode as) := by
  intro room bs hbs
  obtain ⟨room, rfl, items, hitems, hread⟩ := listOf_eq_some_iff.mp hbs
  cases hitems
  rw [List.forall₂_map_left_iff] at hread
  have hdepth : ∀ a ∈ as, (encode a).depth ≤ room :=
    ((List.forall₂_and_left as bs).mp (hread.imp fun a b hb => ⟨h a room b hb, hb⟩)).1
  rw [ofList, depth_array]
  refine Nat.succ_le_succ (depthItems_le fun j hj => ?_)
  obtain ⟨a, ha, rfl⟩ := List.mem_map.mp hj
  exact hdepth a ha

theorem Confines.depth_le_of_required (h : Confines decode j)
    (hread : r.required name (decode room) = some a) (hget : r.get? name = some j) :
    j.depth ≤ room := by
  rw [Record.required, hget] at hread
  exact h room a hread

theorem Confines.depth_le_of_optional (h : Confines decode j)
    (hread : r.optional name d (decode room) = some a) (hget : r.get? name = some j) :
    j.depth ≤ room := by
  rw [Record.optional, hget] at hread
  exact h room a hread

end Room

theorem Confines.texts (texts : List String) :
    Confines (Json.listOf fun _ => text?) (.ofList .ofString texts) :=
  @Confines.listOf _ _ ofString (fun _ room _ _ => Nat.zero_le room) texts

theorem depth_ofOption_le {α : Type} {encode : α → Json} (h : ∀ a, (encode a).depth = 0)
    (a? : Option α) (room : Nat) : (ofOption encode a?).depth ≤ room := by
  cases a? with
  | none => exact Nat.zero_le room
  | some a =>
      rw [ofOption, h a]
      exact Nat.zero_le room

theorem Record.named_map_some (members : List (String × Json)) :
    Record.named (members.map fun m => (some m.1, m.2)) = some members := by
  induction members with
  | nil => rfl
  | cons m members ih =>
      rw [List.map_cons, Record.named, ih]
      rfl

/-- There is room for an object if there is room for each of its members as a field. -/
theorem Record.depth_ofMembers_le {members : List (String × Json)} {r : Record} {room : Nat}
    (hr : Record.ofJson (members.map Prod.fst) (.ofMembers members) = some r)
    (h : members.Forall fun m => r.get? m.1 = some m.2 → m.2.depth ≤ room) :
    (ofMembers members).depth ≤ room + 1 := by
  rw [ofMembers, Record.ofJson, Record.named_map_some] at hr
  simp only [Option.bind_eq_bind, Option.bind_some] at hr
  -- Every name is one of the fields, so no member is passed over.
  have hknown : members.filter (fun m => (members.map Prod.fst).contains m.1) = members := by
    rw [List.filter_eq_self]
    intro m hm
    rw [List.contains_iff_mem]
    exact List.mem_map_of_mem hm
  rw [hknown] at hr
  split at hr
  case isTrue hnodup =>
    cases hr
    rw [depth_ofMembers]
    refine Nat.succ_le_succ (depthItems_le fun j hj => ?_)
    obtain ⟨m, hm, rfl⟩ := List.mem_map.mp hj
    exact List.forall_iff_forall_mem.mp h m hm ((lookup_eq_some_iff hnodup).mpr hm)
  case isFalse => exact absurd hr (by simp)

end EntityConventions.Json
