import EntityConventions.Proofs.JsonDecoding

/-! # Spellings of records

A field of a record is described by what may be written for it: `mandatory S` admits the values
in `S`, and `defaulted a d S` admits in addition that nothing is written if `a` is the default `d`.
`Record.Spelling` says which values spell a record with given fields: an object with the written
fields and any other members in any order, or an array of the fields in their order whose end may
be missing.

`Record.ofJson` reads every spelling (`Spelling.read`): each field then holds what was written for
it, and nothing in it is nested as deep as the record itself.  `required_of`, `optional_of` and the
statements about `nullable`, `listOf` and numbers carry this on to the decoders of fields. -/

namespace EntityConventions.Json

namespace Record

/-! ### Fields -/

/-- What may be written for a field, if anything, under its name. -/
abbrev Field : Type := String × (Option Json → Prop)

/-- A field that has to be written. -/
def mandatory (S : Json → Prop) : Option Json → Prop
  | none => False
  | some j => S j

/-- A field that may be left out where its value is the default. -/
def defaulted {α : Type} (a default : α) (S : Json → Prop) : Option Json → Prop
  | none => a = default
  | some j => S j

/-- The members that are written for some fields, in the order of the fields. -/
inductive Chosen : List Field → List (String × Json) → Prop
  | nil : Chosen [] []
  | omitted {name : String} {P : Option Json → Prop} {fields : List Field}
      {members : List (String × Json)} (h : P none) (hs : Chosen fields members) :
      Chosen ((name, P) :: fields) members
  | written {name : String} {P : Option Json → Prop} {fields : List Field}
      {members : List (String × Json)} {j : Json} (h : P (some j)) (hs : Chosen fields members) :
      Chosen ((name, P) :: fields) ((name, j) :: members)

/-- The values that are written for the first of some fields; the other fields are left out. -/
inductive Leading : List Field → List Json → Prop
  | rest {fields : List Field} (h : ∀ f ∈ fields, f.2 none) : Leading fields []
  | written {name : String} {P : Option Json → Prop} {fields : List Field} {items : List Json}
      {j : Json} (h : P (some j)) (hs : Leading fields items) :
      Leading ((name, P) :: fields) (j :: items)

/-- The values that spell a record.  Members of other names may hold what `extra` admits. -/
inductive Spelling (extra : Json → Prop) (fields : List Field) : Json → Prop
  | object {chosen others members : List (String × Json)} (hchosen : Chosen fields chosen)
      (hothers : ∀ m ∈ others, m.1 ∉ fields.map Prod.fst ∧ extra m.2)
      (hmembers : members.Perm (chosen ++ others)) : Spelling extra fields (ofMembers members)
  | array {items : List Json} (h : Leading fields items) : Spelling extra fields (.array items)

/-- A record holds what is written for a field, nested at most `room` deep. -/
def HoldsField (r : Record) (room : Nat) (f : Field) : Prop :=
  f.2 (r.get? f.1) ∧ ∀ j ∈ r.get? f.1, j.depth ≤ room

/-- A record holds what is written for each of some fields. -/
def Holds (r : Record) (room : Nat) (fields : List Field) : Prop :=
  fields.Forall (r.HoldsField room)

theorem holds_iff {r : Record} {room : Nat} {fields : List Field} :
    r.Holds room fields ↔ ∀ f ∈ fields, r.HoldsField room f :=
  List.forall_iff_forall_mem

/-! ### Objects -/

theorem Chosen.sublist {fields : List Field} {chosen : List (String × Json)}
    (h : Chosen fields chosen) : (chosen.map Prod.fst).Sublist (fields.map Prod.fst) := by
  induction h with
  | nil => exact .slnil
  | omitted _ _ ih => exact .cons _ ih
  | written _ _ ih => exact .cons_cons _ ih

/-- For each field either a member was chosen that spells it, or it may be left out. -/
theorem Chosen.lookup {fields : List Field} {chosen : List (String × Json)}
    (h : Chosen fields chosen) (hnames : (fields.map Prod.fst).Nodup) :
    ∀ f ∈ fields, f.2 (chosen.lookup f.1) := by
  induction h with
  | nil => simp
  | @omitted name P fields members h hs ih =>
      rw [List.map_cons, List.nodup_cons] at hnames
      intro f hf
      rcases List.mem_cons.mp hf with rfl | hf
      · have hnone : members.lookup name = none :=
          lookup_eq_none_iff.mpr fun hmem => hnames.1 (hs.sublist.subset hmem)
        simpa [hnone] using h
      · exact ih hnames.2 f hf
  | @written name P fields members j h hs ih =>
      rw [List.map_cons, List.nodup_cons] at hnames
      intro f hf
      rcases List.mem_cons.mp hf with rfl | hf
      · simpa using h
      · have hne : f.1 ≠ name := fun heq => hnames.1 (List.mem_map.mpr ⟨f, hf, heq⟩)
        rw [List.lookup_cons, beq_false_of_ne hne]
        exact ih hnames.2 f hf

/-- An object is read for any of the fields that its members were chosen for. -/
theorem ofJson_object {fields : List Field} {chosen others members : List (String × Json)}
    (hnames : (fields.map Prod.fst).Nodup) (hchosen : Chosen fields chosen)
    (hothers : ∀ m ∈ others, m.1 ∉ fields.map Prod.fst)
    (hmembers : members.Perm (chosen ++ others)) {names : List String}
    (hsub : names ⊆ fields.map Prod.fst) :
    ∃ r, Record.ofJson names (ofMembers members) = some r ∧
      (∀ f ∈ fields, f.1 ∈ names → f.2 (r.get? f.1)) ∧
      ∀ name, ∀ j ∈ r.get? name, j ∈ members.map Prod.snd := by
  -- Of the members, those with one of the names are among the chosen ones, which are all distinct.
  have hknown : (members.filter fun m => names.contains m.1).Perm
      (chosen.filter fun m => names.contains m.1) := by
    have hnone : others.filter (fun m => names.contains m.1) = [] := by
      rw [List.filter_eq_nil_iff]
      intro m hm hmem
      exact hothers m hm (hsub (by simpa using hmem))
    have := hmembers.filter fun m => names.contains m.1
    rwa [List.filter_append, hnone, List.append_nil] at this
  have hchosenNodup : (chosen.map Prod.fst).Nodup := hchosen.sublist.nodup hnames
  have hnodup : ((chosen.filter fun m => names.contains m.1).map Prod.fst).Nodup :=
    (List.filter_sublist.map _).nodup hchosenNodup
  have hnodup' : ((members.filter fun m => names.contains m.1).map Prod.fst).Nodup :=
    (hknown.map Prod.fst).nodup_iff.mpr hnodup
  refine ⟨⟨members.filter fun m => names.contains m.1⟩, ?_, ?_, ?_⟩
  · rw [ofMembers, Record.ofJson, named_map_some]
    exact if_pos hnodup'
  · intro f hf hmem
    have hlookup : (members.filter fun m => names.contains m.1).lookup f.1 =
        chosen.lookup f.1 := by
      apply Option.ext
      intro j
      rw [lookup_eq_some_iff hnodup', lookup_eq_some_iff hchosenNodup, hknown.mem_iff,
        List.mem_filter]
      simp [hmem]
    rw [get?, hlookup]
    exact hchosen.lookup hnames f hf
  · intro name j hj
    have := (lookup_eq_some_iff hnodup').mp hj
    exact List.mem_map_of_mem (List.mem_filter.mp this).1

/-! ### Arrays -/

theorem Leading.length_le {fields : List Field} {items : List Json} (h : Leading fields items) :
    items.length ≤ fields.length := by
  induction h with
  | rest _ => exact Nat.zero_le _
  | written _ _ ih => exact Nat.succ_le_succ ih

theorem Leading.lookup {fields : List Field} {items : List Json} (h : Leading fields items)
    (hnames : (fields.map Prod.fst).Nodup) :
    ∀ f ∈ fields, f.2 (((fields.map Prod.fst).zip items).lookup f.1) := by
  induction h with
  | rest h =>
      intro f hf
      rw [List.zip_nil_right]
      exact h f hf
  | @written name P fields items j h hs ih =>
      rw [List.map_cons, List.nodup_cons] at hnames
      intro f hf
      rw [List.map_cons, List.zip_cons_cons]
      rcases List.mem_cons.mp hf with rfl | hf
      · simpa using h
      · have hne : f.1 ≠ name := fun heq => hnames.1 (List.mem_map.mpr ⟨f, hf, heq⟩)
        rw [List.lookup_cons, beq_false_of_ne hne]
        exact ih hnames.2 f hf

theorem mem_of_lookup_zip {names : List String} {items : List Json} {name : String} {j : Json}
    (h : (names.zip items).lookup name = some j) : j ∈ items := by
  induction names generalizing items with
  | nil => simp at h
  | cons key names ih =>
      cases items with
      | nil => simp at h
      | cons k items =>
          rw [List.zip_cons_cons, List.lookup_cons] at h
          split at h
          · exact Option.some.inj h ▸ List.mem_cons_self
          · exact List.mem_cons_of_mem k (ih h)

/-- An array is read for the fields that it spells. -/
theorem ofJson_array {fields : List Field} {items : List Json} {room : Nat}
    (h : Leading fields items) (hnames : (fields.map Prod.fst).Nodup)
    (hdepth : depthItems items ≤ room) :
    ∃ r, Record.ofJson (fields.map Prod.fst) (.array items) = some r ∧ r.Holds room fields := by
  have hlength : items.length ≤ (fields.map Prod.fst).length := by
    rw [List.length_map]
    exact h.length_le
  refine ⟨⟨(fields.map Prod.fst).zip items⟩, if_pos hlength, holds_iff.mpr fun f hf => ?_⟩
  refine ⟨h.lookup hnames f hf, fun j hj => ?_⟩
  exact Nat.le_trans (depth_le_depthItems (mem_of_lookup_zip hj)) hdepth

/-! ### Reading a spelling -/

/-- Every spelling of a record is read, with one level of the room taken by the record itself. -/
theorem Spelling.read {extra : Json → Prop} {fields : List Field} {j : Json} {room : Nat}
    (h : Spelling extra fields j) (hnames : (fields.map Prod.fst).Nodup) (hdepth : j.depth ≤ room) :
    ∃ room', room = room' + 1 ∧
      ∃ r, Record.ofJson (fields.map Prod.fst) j = some r ∧ r.Holds room' fields := by
  cases h with
  | @object chosen others members hchosen hothers hmembers =>
      rw [depth_ofMembers] at hdepth
      obtain ⟨r, hr, hfields, hvalues⟩ := ofJson_object hnames hchosen
        (fun m hm => (hothers m hm).1) hmembers (List.Subset.refl _)
      refine ⟨room - 1, by omega, r, hr, holds_iff.mpr fun f hf => ?_⟩
      refine ⟨hfields f hf (List.mem_map_of_mem hf), fun v hv => ?_⟩
      have := depth_le_depthItems (hvalues f.1 v hv)
      omega
  | @array items h =>
      rw [depth_array] at hdepth
      exact ⟨room - 1, by omega, ofJson_array h hnames (by omega)⟩

/-- An object with exactly the chosen members, in their order, spells the record. -/
theorem Spelling.of_chosen {extra : Json → Prop} {fields : List Field}
    {members : List (String × Json)} (h : Chosen fields members) :
    Spelling extra fields (ofMembers members) :=
  .object h (List.forall_mem_nil _) (by rw [List.append_nil])

theorem required_of {α : Type} {r : Record} {room : Nat} {name : String} {S : Json → Prop} {a : α}
    {decode : Json → Option α} (h : r.HoldsField room (name, mandatory S))
    (hdecode : ∀ j, S j → j.depth ≤ room → decode j = some a) :
    r.required name decode = some a := by
  obtain ⟨hwritten, hdepth⟩ := h
  unfold required
  cases hget : r.get? name with
  | none =>
      rw [hget] at hwritten
      exact hwritten.elim
  | some j =>
      rw [hget] at hwritten
      exact hdecode j hwritten (hdepth j hget)

theorem optional_of {α : Type} {r : Record} {room : Nat} {name : String} {S : Json → Prop}
    {a default : α} {decode : Json → Option α}
    (h : r.HoldsField room (name, defaulted a default S))
    (hdecode : ∀ j, S j → j.depth ≤ room → decode j = some a) :
    r.optional name default decode = some a := by
  obtain ⟨hwritten, hdepth⟩ := h
  unfold optional
  cases hget : r.get? name with
  | none =>
      rw [hget] at hwritten
      exact congrArg some (Eq.symm hwritten)
  | some j =>
      rw [hget] at hwritten
      exact hdecode j hwritten (hdepth j hget)

end Record

/-! ### Spellings of values -/

/-- The spellings of a value, or `null` for none. -/
def nullableSpelling {α : Type} (S : α → Json → Prop) : Option α → Json → Prop
  | none => fun j => j = .null
  | some a => S a

/-- The arrays whose elements spell the elements of a list. -/
def listSpelling {α : Type} (S : α → Json → Prop) (as : List α) (j : Json) : Prop :=
  ∃ items, j = .array items ∧ List.Forall₂ S as items

theorem nullableSpelling_ofOption {α : Type} {S : α → Json → Prop} {encode : α → Json}
    (h : ∀ a, S a (encode a)) (a? : Option α) : nullableSpelling S a? (.ofOption encode a?) := by
  cases a? with
  | none => rfl
  | some a => exact h a

theorem listSpelling_ofList {α : Type} {S : α → Json → Prop} {encode : α → Json}
    (h : ∀ a, S a (encode a)) (as : List α) : listSpelling S as (.ofList encode as) := by
  refine ⟨as.map encode, rfl, ?_⟩
  rw [List.forall₂_map_right_iff, List.forall₂_same]
  exact fun a _ => h a

theorem nullable_of {α : Type} {S : α → Json → Prop} {a : Option α} {room : Nat} {j : Json}
    {decode : Json → Option α} (hnull : decode .null = none) (h : nullableSpelling S a j)
    (hdepth : j.depth ≤ room)
    (hdecode : ∀ b ∈ a, ∀ j, S b j → j.depth ≤ room → decode j = some b) :
    nullable decode j = some a := by
  cases a with
  | none =>
      have hj : j = .null := h
      subst hj
      rfl
  | some a => exact nullable_eq_some hnull (hdecode a rfl j h hdepth)

theorem listOf_of {α : Type} {S : α → Json → Prop} {as : List α} {room : Nat} {j : Json}
    {decode : Nat → Json → Option α} (h : listSpelling S as j) (hdepth : j.depth ≤ room)
    (hdecode : ∀ a ∈ as, ∀ room' j, S a j → j.depth ≤ room' → decode room' j = some a) :
    listOf decode room j = some as := by
  obtain ⟨items, rfl, hitems⟩ := h
  rw [depth_array] at hdepth
  refine listOf_eq_some_iff.mpr ⟨room - 1, by omega, items, rfl, ?_⟩
  have hle : ∀ j ∈ items, j.depth ≤ room - 1 := fun j hj => by
    have := depth_le_depthItems hj
    omega
  clear hdepth
  induction hitems with
  | nil => exact .nil
  | @cons a j as items hj _ ih =>
      refine .cons (hdecode a List.mem_cons_self _ j hj (hle j List.mem_cons_self)) (ih ?_ ?_)
      · exact fun b hb => hdecode b (List.mem_cons_of_mem a hb)
      · exact fun k hk => hle k (List.mem_cons_of_mem j hk)

/-! ### Clean values -/

theorem isCleanItems_iff {items : List Json} :
    isCleanItems items = true ↔ ∀ j ∈ items, j.isClean = true := by
  induction items with
  | nil => simp [isCleanItems]
  | cons j items ih => simp [isCleanItems, ih]

theorem isClean_ofMembers_iff {members : List (String × Json)} :
    (ofMembers members).isClean = true ↔ ∀ m ∈ members, m.2.isClean = true := by
  rw [ofMembers, isClean]
  induction members with
  | nil => simp [isCleanMembers]
  | cons m members ih => simp [isCleanMembers, ih]

theorem Record.Chosen.mem {fields : List Field} {chosen : List (String × Json)}
    (h : Chosen fields chosen) : ∀ m ∈ chosen, ∃ f ∈ fields, f.2 (some m.2) := by
  induction h with
  | nil => simp
  | omitted _ _ ih =>
      intro m hm
      obtain ⟨f, hf, hv⟩ := ih m hm
      exact ⟨f, List.mem_cons_of_mem _ hf, hv⟩
  | written h _ ih =>
      intro m hm
      rcases List.mem_cons.mp hm with rfl | hm
      · exact ⟨_, List.mem_cons_self, h⟩
      · obtain ⟨f, hf, hv⟩ := ih m hm
        exact ⟨f, List.mem_cons_of_mem _ hf, hv⟩

theorem Record.Leading.mem {fields : List Field} {items : List Json} (h : Leading fields items) :
    ∀ j ∈ items, ∃ f ∈ fields, f.2 (some j) := by
  induction h with
  | rest _ => simp
  | written h _ ih =>
      intro j hj
      rcases List.mem_cons.mp hj with rfl | hj
      · exact ⟨_, List.mem_cons_self, h⟩
      · obtain ⟨f, hf, hv⟩ := ih j hj
        exact ⟨f, List.mem_cons_of_mem _ hf, hv⟩

/-- A spelling is clean if its fields are spelled by clean values and other members are clean. -/
theorem Record.Spelling.isClean {fields : List Field} {j : Json}
    (h : Spelling (fun j => j.isClean = true) fields j)
    (hfields : fields.Forall fun f => ∀ j, f.2 (some j) → j.isClean = true) :
    j.isClean = true := by
  rw [List.forall_iff_forall_mem] at hfields
  cases h with
  | object hchosen hothers hmembers =>
      rw [isClean_ofMembers_iff]
      intro m hm
      rcases List.mem_append.mp (hmembers.mem_iff.mp hm) with hm | hm
      · obtain ⟨f, hf, hv⟩ := hchosen.mem m hm
        exact hfields f hf m.2 hv
      · exact (hothers m hm).2
  | array h =>
      rw [Json.isClean, isCleanItems_iff]
      intro j hj
      obtain ⟨f, hf, hv⟩ := h.mem j hj
      exact hfields f hf j hv

end EntityConventions.Json
