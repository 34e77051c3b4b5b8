import EntityConventions.Proofs.Names
import EntityConventions.Proofs.RuleReading

/-! # Associations beside the marker of an indexed column

The check looks at one property at a time (`ExclusiveIndexColumn.isByProperty`).  It collects the
attributes of the property before it judges them, so the marker counts wherever it stands, and an
attribute may be the marker and an association at once.  Both are told by the last segments of
names (`violations_congr`, `isAssociation_iff`).  If the line of the property is known, a finding
depends on the property's attributes only through the one that it is about
(`conflictViolation_congr`), and another order of the attributes gives the findings in another
order (`ExclusiveIndexColumn.findings_per_association`). -/

namespace EntityConventions.ExclusiveIndexColumn

theorem isDenotedBy_marker (marker name : String) :
    (⟨marker, none⟩ : Concept).isDenotedBy name = decide (Name.short name = Name.short marker) := by
  rw [Bool.eq_iff_iff, decide_eq_true_iff]
  exact Concept.isDenotedBy_iff_short_eq (Concept.isAligned_unaliased marker) name

/-- Of the marker the check reads the last segment only. -/
theorem violations_congr {marker marker' : String} (h : Name.short marker = Name.short marker') :
    violations marker = violations marker' := by
  have hconflicts : conflicts ⟨marker, none⟩ = conflicts ⟨marker', none⟩ := by
    funext p
    simp only [conflicts, isDenotedBy_marker, h]
  have hviolation : conflictViolation ⟨marker, none⟩ = conflictViolation ⟨marker', none⟩ := by
    funext className p a
    simp only [conflictViolation, Concept.short, h]
  funext ctx
  simp only [violations, hconflicts, hviolation]

/-! ### Conflicts of a property -/

/-- The last segments of the associations. -/
def associationNames : List String := ["ManyToOne", "OneToOne", "ManyToMany"]

theorem isAssociation_iff (name : String) :
    isAssociation name = true ↔ Name.short name ∈ associationNames := by
  have hdenotes : ∀ c ∈ associations, (c.isDenotedBy name = true ↔ Name.short name = c.short) := by
    have haligned : ∀ c ∈ associations, c.IsAligned := by decide +kernel
    intro c hc
    exact Concept.isDenotedBy_iff_short_eq (haligned c hc) name
  have hnames : associations.map Concept.short = associationNames := by decide +kernel
  rw [isAssociation, List.any_eq_true, ← hnames, List.mem_map]
  constructor
  · rintro ⟨c, hc, h⟩
    exact ⟨c, hc, ((hdenotes c hc).mp h).symm⟩
  · rintro ⟨c, hc, h⟩
    exact ⟨c, hc, (hdenotes c hc).mpr h.symm⟩

theorem conflicts_of_marked {marker : Concept} {p : Property}
    (h : ∃ a ∈ p.attributes, marker.isDenotedBy a.name = true) :
    conflicts marker p =
      p.attributes.filter fun a => Name.short a.name ∈ associationNames := by
  rw [conflicts, if_pos (List.any_eq_true.mpr h)]
  apply List.filter_congr
  intro a _
  rw [Bool.eq_iff_iff, isAssociation_iff, decide_eq_true_iff]

theorem conflicts_of_unmarked {marker : Concept} {p : Property}
    (h : ¬ ∃ a ∈ p.attributes, marker.isDenotedBy a.name = true) : conflicts marker p = [] := by
  rw [conflicts, if_neg fun hany => h (List.any_eq_true.mp hany)]

theorem conflicts_perm (marker : Concept) {p q : Property} (h : q.attributes.Perm p.attributes) :
    (conflicts marker q).Perm (conflicts marker p) := by
  unfold conflicts
  rw [h.any_eq]
  split
  · exact h.filter _
  · exact .nil

/-- Where the line of a property is known, the other attributes do not matter for a finding. -/
theorem conflictViolation_congr (marker : Concept) (className : String) {p : Property}
    (h : 0 < p.line) (attributes : List Attribute) :
    conflictViolation marker className { p with attributes := attributes } =
      conflictViolation marker className p := by
  have hline : ∀ rest, bestLine (some p.line :: rest) = p.line := fun rest => by
    rw [bestLine_cons, if_neg (Nat.ne_of_gt h)]
  funext a
  simp only [conflictViolation, hline]

/-- The message names the association. -/
theorem exists_message_conflictViolation (marker : Concept) (className : String) (p : Property)
    (a : Attribute) : ∃ before after,
      (conflictViolation marker className p a).message =
        before ++ ("#[" ++ Name.short a.name ++ "]") ++ after := by
  refine ⟨"Property \"" ++ p.name ++ "\" of entity \"" ++ className ++ "\" uses both #[" ++
    marker.short ++ "] and ", "; these attributes are mutually exclusive.", ?_⟩
  have hopen : "] and #[" = "] and " ++ "#[" := by decide
  have hclose : "]; these attributes are mutually exclusive." =
      "]" ++ "; these attributes are mutually exclusive." := by decide
  simp only [conflictViolation, hopen, hclose, String.append_assoc]

/-! ### Findings about an entity -/

theorem isByProperty (marker : String) : (Check.exclusiveIndexColumn marker).IsByProperty := by
  intro ctx
  cases h : ctx.isEntity <;> simp [Check.violations, violations, h]

/-- The findings about one property of an entity. -/
theorem findings_withProperties {ctx : ClassContext} (h : ctx.isEntity = true) {rule : Rule}
    {marker : String} (hmarker : rule.AsksFor .exclusiveIndexColumn "index_column_class" marker)
    (p : Property) :
    rule.findings (ctx.withProperties [p]) =
      ((conflicts ⟨marker, none⟩ p).map
        (conflictViolation ⟨marker, none⟩ ctx.className p)).map (rule.finding ctx.path) := by
  obtain ⟨marker', hcheck, hmarker'⟩ := hmarker.exists_check fun _ _ => rfl
  have hshort : Name.short marker' = Name.short marker := by
    rcases hmarker' with rfl | rfl
    · rfl
    · exact Name.short_trimLeading marker
  rw [Rule.findings, hcheck, Check.violations, violations_congr hshort]
  simp [violations, h]

/-- **One finding for each association beside the marker.**  The findings about an entity are those
about its properties.  A property that carries the marker, wherever it stands, has one finding for
each association, which names it; any other property has none.  If the line of the property is
known, another order of its attributes only changes the order of the findings. -/
theorem findings_per_association {ctx : ClassContext} (hentity : ctx.isEntity = true) {rule : Rule}
    {marker : String}
    (hmarker : rule.AsksFor .exclusiveIndexColumn "index_column_class" marker) :
    rule.findings ctx =
        ctx.declaration.properties.flatMap (fun p => rule.findings (ctx.withProperties [p])) ∧
      ∀ p : Property,
        ((∃ a ∈ p.attributes, (⟨marker, none⟩ : Concept).isDenotedBy a.name = true) →
          List.Forall₂
            (fun a f => ∃ before after,
              f.message = before ++ ("#[" ++ Name.short a.name ++ "]") ++ after)
            (p.attributes.filter fun a => Name.short a.name ∈ associationNames)
            (rule.findings (ctx.withProperties [p]))) ∧
        ((¬ ∃ a ∈ p.attributes, (⟨marker, none⟩ : Concept).isDenotedBy a.name = true) →
          rule.findings (ctx.withProperties [p]) = []) ∧
        (0 < p.line → ∀ attributes : List Attribute, attributes.Perm p.attributes →
          (rule.findings (ctx.withProperties [{ p with attributes := attributes }])).Perm
            (rule.findings (ctx.withProperties [p]))) := by
  obtain ⟨marker', hcheck, -⟩ := hmarker.exists_check fun _ _ => rfl
  have hone := findings_withProperties hentity hmarker
  refine ⟨Rule.findings_eq_flatMap (hcheck ▸ isByProperty marker') ctx, fun p => ⟨?_, ?_, ?_⟩⟩
  · intro hmarked
    rw [hone, conflicts_of_marked hmarked, List.map_map, List.forall₂_map_right_iff,
      List.forall₂_same]
    intro a _
    exact exists_message_conflictViolation _ _ p a
  · intro hunmarked
    rw [hone, conflicts_of_unmarked hunmarked]
    rfl
  · intro hline attributes hperm
    -- Both lists apply one function to the associations, so it is enough to permute these.
    rw [hone, hone, conflictViolation_congr _ _ hline]
    exact ((conflicts_perm _ hperm).map _).map _

/-- An entity with a property that carries two associations and then a marker. -/
def markedOwner : ClassContext where
  declaration := (ClassDeclaration.empty "Comment" .regular 10).addProperty
    ⟨"owner", 30, [.bare "Doctrine\\ORM\\Mapping\\OneToOne" 30, .bare "ORM\\ManyToMany" 31,
      .bare "\\App\\Attribute\\Indexed" 32]⟩
  reflection := (Reflection.ofName "App\\Comment").addAttribute (.bare "ORM\\Entity" 9)
  scope := ⟨none, .empty⟩
  classifier := .conventions
  path := ⟨"src/Comment.php"⟩

theorem findings_per_association_markedOwner :
    let marker := "\\App\\Indexed"
    let rule := Rule.exclusiveIndexColumn.configure
      ⟨none, none, [("index_column_class", .string marker)]⟩
    markedOwner.isEntity = true ∧
      rule.AsksFor .exclusiveIndexColumn "index_column_class" marker ∧
      ∀ p ∈ markedOwner.declaration.properties,
        (∃ a ∈ p.attributes, (⟨marker, none⟩ : Concept).isDenotedBy a.name = true) ∧ 0 < p.line ∧
          (rule.findings (markedOwner.withProperties [p])).length = 2 ∧
          (rule.findings (markedOwner.withProperties
            [{ p with attributes := p.attributes.reverse }])).Perm
            (rule.findings (markedOwner.withProperties [p])) := by
  intro marker rule
  have hentity : markedOwner.isEntity = true := by decide +kernel
  have hmarker : rule.AsksFor .exclusiveIndexColumn "index_column_class" marker := .configured _ _ _
  refine ⟨hentity, hmarker, ?_⟩
  intro p hp
  obtain ⟨-, hproperty⟩ := findings_per_association hentity hmarker
  obtain ⟨hmarked, -, hperm⟩ := hproperty p
  obtain rfl := List.mem_singleton.mp hp
  have hany : ∃ a ∈ [Attribute.bare "Doctrine\\ORM\\Mapping\\OneToOne" 30,
      .bare "ORM\\ManyToMany" 31, .bare "\\App\\Attribute\\Indexed" 32],
      (⟨marker, none⟩ : Concept).isDenotedBy a.name = true :=
    List.any_eq_true.mp (by decide +kernel)
  refine ⟨hany, by decide, ?_, hperm (by decide) _ (List.reverse_perm _)⟩
  rw [← (hmarked hany).length_eq]
  decide +kernel

end EntityConventions.ExclusiveIndexColumn
