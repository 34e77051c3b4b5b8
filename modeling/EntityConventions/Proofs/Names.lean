import EntityConventions.Proofs.Requalified
import Mathlib.Data.List.DropRight
import Mathlib.Data.List.Nodup

/-! # Last segments of names

Separators cut a name into segments, of which `Name.short` is the last (`Name.getLast?_segments`).
Neither a leading separator nor a conventional alias changes the last segment of a name
(`Name.short_trimLeading`, `Name.short_normalize`).  A concept whose alias ends like its qualified
name is therefore denoted by the names with its last segment and by no others
(`Concept.isDenotedBy_iff_short_eq`).  The concepts of `Concept.builtIn` are of this kind and end
in different segments, so that a name denotes at most one of them
(`Concept.isDenotedBy_iff_lastSegment`).  Of the names that denote a mapping attribute three spell
it, a leading separator aside (`Concept.isSpelledBy_iff_spellsMapping`). -/

namespace EntityConventions

namespace Name

theorem eq_trimLeading_or (name : String) :
    trimLeading name = name ∨ name = qualify (trimLeading name) := by
  unfold trimLeading
  split
  · rename_i c cs hname
    split
    · rename_i hc
      right
      rw [← String.toList_inj, toList_qualify, String.toList_ofList, hname, hc]
    · exact Or.inl rfl
  · exact Or.inl rfl

theorem short_trimLeading (name : String) : short (trimLeading name) = short name := by
  rcases eq_trimLeading_or name with h | h
  · rw [h]
  · conv_rhs => rw [h, short_qualify]

theorem short_suffix (name : String) : (short name).toList <:+ name.toList := by
  rw [short, String.toList_ofList, ← List.reverse_prefix, List.reverse_reverse]
  exact List.takeWhile_prefix _

theorem stripLeading_suffix (name : String) : (stripLeading name).toList <:+ name.toList := by
  rw [stripLeading, String.toList_ofList]
  exact List.dropWhile_suffix _

theorem short_of_lookup_aliases {name target : String} (h : aliases.lookup name = some target) :
    short target = short name := by
  have haligned : ∀ p ∈ aliases, short p.2 = short p.1 := by decide +kernel
  obtain ⟨before, after, heq, -⟩ := List.lookup_eq_some_iff.mp h
  exact haligned (name, target) (heq ▸ List.mem_append_right before List.mem_cons_self)

theorem short_normalize (name : String) : short (normalize name) = short name := by
  unfold normalize
  cases h : aliases.lookup (trimLeading name) with
  | none => simp only [h, Option.getD_none, short_trimLeading]
  | some target => simp only [h, Option.getD_some, short_of_lookup_aliases h, short_trimLeading]

/-! ### Segments -/

/-- The segments of a name: the texts before, between and behind its separators. -/
def segments (name : String) : List String :=
  (name.toList.splitOn separator).map String.ofList

theorem toList_short (name : String) :
    (short name).toList = name.toList.rtakeWhile (· != separator) :=
  String.toList_ofList

theorem separator_not_mem_short (name : String) : separator ∉ (short name).toList := by
  rw [toList_short]
  intro h
  simpa using List.mem_rtakeWhile_imp h

theorem short_short (name : String) : short (short name) = short name := by
  rw [← String.toList_inj, toList_short, toList_short, List.rtakeWhile_idempotent]

/-- A name is its last segment, or has a separator in front of that. -/
theorem toList_eq_short_or (name : String) :
    name.toList = (short name).toList ∨
      ∃ before, name.toList = before ++ separator :: (short name).toList := by
  have hname : name.toList.rdropWhile (· != separator) ++ (short name).toList = name.toList := by
    rw [toList_short, List.rdropWhile_append_rtakeWhile]
  by_cases hbefore : name.toList.rdropWhile (· != separator) = []
  · left
    rw [← hname, hbefore, List.nil_append]
  · right
    have hlast : (name.toList.rdropWhile (· != separator)).getLast hbefore = separator := by
      simpa using List.rdropWhile_last_not _ _ hbefore
    have hcut := List.dropLast_append_getLast hbefore
    rw [← hcut, hlast, List.append_assoc, List.singleton_append] at hname
    exact ⟨_, hname.symm⟩

theorem getLast?_segments (name : String) : (segments name).getLast? = some (short name) := by
  -- Without separators the last segment is cut no further, whatever stands before it.
  have hlast : (short name).toList.splitOn separator = [(short name).toList] :=
    List.splitOn_eq_singleton (separator_not_mem_short name)
  rcases toList_eq_short_or name with h | ⟨before, h⟩
  · rw [segments, h, hlast, List.map_singleton, List.getLast?_singleton, String.ofList_toList]
  · rw [segments, h, List.splitOn_append_cons_self, hlast, List.map_append, List.map_singleton,
      List.getLast?_concat, String.ofList_toList]

end Name

namespace Concept

/-- The alias of a concept, if it has one, ends in the last segment of its qualified name. -/
def IsAligned (c : Concept) : Prop :=
  ∀ a ∈ c.aliased, Name.short a = c.short

/-- Each way for a name to denote an aligned concept says that their last segments are equal. -/
theorem isDenotedBy_iff_short_eq {c : Concept} (hc : c.IsAligned) (name : String) :
    c.isDenotedBy name = true ↔ Name.short name = c.short := by
  simp only [isDenotedBy, Bool.or_eq_true, beq_iff_eq]
  rw [Name.short_trimLeading]
  constructor
  · rintro (((h | h) | h) | h)
    · rw [← Name.short_trimLeading, h]
      rfl
    · rw [← Name.short_trimLeading, ← Name.short_normalize, h]
      rfl
    · rw [← Name.short_trimLeading]
      exact hc _ h
    · exact h
  · exact Or.inr

theorem isDenotedBy_of_isSpelledBy {c : Concept} {name : String} (h : c.isSpelledBy name = true) :
    c.isDenotedBy name = true := by
  simp only [isSpelledBy, isDenotedBy, Bool.or_eq_true, beq_iff_eq] at h ⊢
  rcases h with (h | h) | h
  · exact Or.inl (Or.inl (Or.inl h))
  · exact Or.inl (Or.inr h)
  · right
    rw [h]
    exact Name.short_short c.qualified

/-! ### The concepts that are asked for -/

/-- The concepts that the checks and the roles of classes ask for. -/
def builtIn : List Concept :=
  [column, entity, table, index, manyToOne, oneToOne, manyToMany, indexColumn, range, coversClass]

instance : DecidablePred IsAligned :=
  fun c => inferInstanceAs (Decidable (∀ a ∈ c.aliased, Name.short a = c.short))

theorem isAligned_of_mem_builtIn : ∀ c ∈ builtIn, c.IsAligned := by
  decide +kernel

theorem isAligned_unaliased (name : String) : (⟨name, none⟩ : Concept).IsAligned :=
  fun _ h => absurd h (Option.not_mem_none _)

theorem map_short_builtIn : builtIn.map short =
    ["Column", "Entity", "Table", "Index", "ManyToOne", "OneToOne", "ManyToMany", "IndexColumn",
      "Range", "CoversClass"] := by
  decide +kernel

theorem eq_of_short_eq {c d : Concept} (hc : c ∈ builtIn) (hd : d ∈ builtIn)
    (h : c.short = d.short) : c = d := by
  have hnodup : (builtIn.map short).Nodup := by
    rw [map_short_builtIn]
    decide
  exact List.inj_on_of_nodup_map hnodup hc hd h

/-- A name spells at most one of these concepts. -/
theorem eq_of_isSpelledBy {c d : Concept} (hc : c ∈ builtIn) (hd : d ∈ builtIn) {name : String}
    (h : c.isSpelledBy name = true) (h' : d.isSpelledBy name = true) : c = d := by
  apply eq_of_short_eq hc hd
  rw [← (isDenotedBy_iff_short_eq (isAligned_of_mem_builtIn c hc) name).mp
    (isDenotedBy_of_isSpelledBy h)]
  exact (isDenotedBy_iff_short_eq (isAligned_of_mem_builtIn d hd) name).mp
    (isDenotedBy_of_isSpelledBy h')

/-- **Names are matched by their last segments.**  A name denotes a concept exactly if the last of
its segments is that of the concept's qualified name, as long as the alias of the concept ends
alike.  So do the aliases of all concepts that are asked for, and a configured marker has none; a
name denotes at most one of these concepts.  Whatever the alias, a spelling of a concept denotes
it. -/
theorem isDenotedBy_iff_lastSegment :
    (∀ c : Concept, c.IsAligned → ∀ name, c.isDenotedBy name = true ↔
      (Name.segments name).getLast? = (Name.segments c.qualified).getLast?) ∧
    (∀ c ∈ builtIn, c.IsAligned) ∧
    (∀ marker, (⟨marker, none⟩ : Concept).IsAligned) ∧
    (∀ name, ∀ c ∈ builtIn, ∀ d ∈ builtIn,
      c.isDenotedBy name = true → d.isDenotedBy name = true → c = d) ∧
    ∀ (c : Concept) (name : String), c.isSpelledBy name = true → c.isDenotedBy name = true := by
  refine ⟨?_, isAligned_of_mem_builtIn, isAligned_unaliased, ?_, ?_⟩
  · intro c hc name
    rw [Name.getLast?_segments, Name.getLast?_segments, Option.some.injEq]
    exact isDenotedBy_iff_short_eq hc name
  · intro name c hc d hd hname hname'
    apply eq_of_short_eq hc hd
    rw [← (isDenotedBy_iff_short_eq (isAligned_of_mem_builtIn c hc) name).mp hname]
    exact (isDenotedBy_iff_short_eq (isAligned_of_mem_builtIn d hd) name).mp hname'
  · intro c name h
    exact isDenotedBy_of_isSpelledBy h

/-- Two separators and another namespace in front make no spelling, and still denote the concept. -/
theorem isDenotedBy_iff_lastSegment_constraints :
    let name := "\\\\Constraints\\Range"
    range.IsAligned ∧ Name.segments name = ["", "", "Constraints", "Range"] ∧
      range.isSpelledBy name = false ∧
      (range.isDenotedBy name = true ↔
        (Name.segments name).getLast? = (Name.segments range.qualified).getLast?) ∧
      ∀ c ∈ builtIn, c.isDenotedBy name = true → c = range := by
  intro name
  obtain ⟨hdenotes, haligned, -, hunique, -⟩ := isDenotedBy_iff_lastSegment
  have hrange : range ∈ builtIn := by decide
  have hname : range.isDenotedBy name = true := by decide +kernel
  refine ⟨haligned range hrange, by decide +kernel, by decide +kernel,
    hdenotes range (haligned range hrange) name, ?_⟩
  intro c hc h
  exact hunique name c hc range hrange h hname

end Concept

/-! ### Spellings of the mapping attributes -/

/-- An attribute of the mapping namespace, written in full, through the alias of the namespace or by
its last segment, a leading separator aside. -/
def Attribute.SpellsMapping (word : String) (a : Attribute) : Prop :=
  Name.trimLeading a.name ∈ ["Doctrine\\ORM\\Mapping\\" ++ word, "ORM\\" ++ word, word]

instance (word : String) : DecidablePred (Attribute.SpellsMapping word) :=
  fun _ => inferInstanceAs (Decidable (_ ∈ _))

namespace Concept

/-- The last segments of the mapping attributes whose spellings are asked for. -/
def mappings : List (Concept × String) :=
  [(column, "Column"), (entity, "Entity"), (table, "Table"), (index, "Index")]

theorem spellings_of_mem_mappings : ∀ x ∈ mappings,
    x.1.spellings = ["Doctrine\\ORM\\Mapping\\" ++ x.2, x.2, "ORM\\" ++ x.2] := by
  decide +kernel

theorem isSpelledBy_iff_spellsMapping {c : Concept} {word : String} (h : (c, word) ∈ mappings)
    (a : Attribute) : c.isSpelledBy a.name = true ↔ a.SpellsMapping word := by
  rw [isSpelledBy_iff, spellings_of_mem_mappings (c, word) h, Attribute.SpellsMapping]
  simp only [List.mem_cons, List.not_mem_nil, or_false]
  tauto

end Concept

end EntityConventions
