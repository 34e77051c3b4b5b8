import EntityConventions.Proofs.ChangedAttributes
import EntityConventions.Proofs.Names

/-! # Indexes that are not called after their table

The table of a class is named by the first of its table attributes or not at all
(`IndexNamePrefix.NamesTable`), and an index with a literal name is called after it or misnamed
(`IndexNamePrefix.Misnames`).  The check reports the misnamed indexes and suggests a name for each
(`forall₂_isAbout_findings`).

Whoever follows the tips gives each misnamed index the suggested name and leaves the other attributes
alone (`IndexNamePrefix.FollowsTips`).  That changes no spelling and no attribute but indexes
(`Mended.name_eq`, `Mended.eq_of_not_index`), so the table is called as before
(`Mended.tableName?_eq`), and the new names start with it (`Mended.indexViolation?_eq_none`).  So
nothing is found any more, and no other check notices (`findings_followsTips`). -/

namespace EntityConventions

/-- A selection among changed members is that among the old ones if members that are selected do not
change, and none becomes or ceases to be one of them. -/
theorem filter_eq_of_forall₂ {α : Type} {R : α → α → Prop} {q : α → Bool} {l m : List α}
    (hq : ∀ a b, R a b → q b = q a) (heq : ∀ a b, R a b → q a = true → b = a)
    (h : List.Forall₂ R l m) : m.filter q = l.filter q := by
  induction h with
  | nil => rfl
  | @cons a b _ _ hab _ ih =>
      cases ha : q a with
      | false =>
          rw [List.filter_cons_of_neg (by simp [hq a b hab, ha]),
            List.filter_cons_of_neg (by simp [ha]), ih]
      | true => rw [heq a b hab ha, List.filter_cons_of_pos ha, List.filter_cons_of_pos ha, ih]

namespace IndexNamePrefix

/-- The first table attribute has a literal name. -/
def NamesTable (d : ClassDeclaration) (table : String) : Prop :=
  ∃ a, IsFirst (Attribute.SpellsMapping "Table") d.attributes a ∧ a.HasLiteral "name" table

theorem isSpelledBy_table (a : Attribute) :
    Concept.table.isSpelledBy a.name = true ↔ a.SpellsMapping "Table" :=
  Concept.isSpelledBy_iff_spellsMapping (by decide) a

theorem isSpelledBy_index (a : Attribute) :
    Concept.index.isSpelledBy a.name = true ↔ a.SpellsMapping "Index" :=
  Concept.isSpelledBy_iff_spellsMapping (by decide) a

theorem tableName?_eq_some_iff (d : ClassDeclaration) (table : String) :
    tableName? d = some table ↔ NamesTable d table := by
  simp only [tableName?, Option.bind_eq_some_iff, find?_eq_some_iff_isFirst isSpelledBy_table,
    Attribute.namedString?_eq_some_iff, NamesTable]

/-- An index has a literal name that does not start with that of the table and an underscore. -/
structure Misnames (d : ClassDeclaration) (table name : String) (a : Attribute) : Prop where
  isIndex : a.SpellsMapping "Index"
  namesTable : NamesTable d table
  hasName : a.HasLiteral "name" name
  unprefixed : ¬ (table ++ "_").toList <+: name.toList

/-- An attribute is an index that is misnamed. -/
def IsMisnamed (d : ClassDeclaration) (a : Attribute) : Prop :=
  ∃ table name, Misnames d table name a

theorem indexViolation?_eq_none_iff (className table : String) (a : Attribute) :
    indexViolation? className table a = none ↔
      ∀ name, a.HasLiteral "name" name → (table ++ "_").toList <+: name.toList := by
  simp only [← Attribute.namedString?_eq_some_iff]
  unfold indexViolation?
  cases a.namedString? "name" with
  | none => simp
  | some name => simp

theorem NamesTable.unique {d : ClassDeclaration} {table table' : String} (h : NamesTable d table)
    (h' : NamesTable d table') : table = table' := by
  rw [← tableName?_eq_some_iff] at h h'
  exact Option.some.inj (h.symm.trans h')

theorem isMisnamed_iff {d : ClassDeclaration} {table : String} (htable : NamesTable d table)
    (className : String) (a : Attribute) :
    IsMisnamed d a ↔
      a.SpellsMapping "Index" ∧ ¬ indexViolation? className table a = none := by
  rw [indexViolation?_eq_none_iff]
  constructor
  · rintro ⟨table', name, h⟩
    obtain rfl := htable.unique h.namesTable
    exact ⟨h.isIndex, fun hprefixed => h.unprefixed (hprefixed name h.hasName)⟩
  · rintro ⟨hindex, h⟩
    push Not at h
    obtain ⟨name, hname, hunprefixed⟩ := h
    exact ⟨table, name, hindex, htable, hname, hunprefixed⟩

theorem not_isMisnamed {d : ClassDeclaration} (h : ∀ table, ¬ NamesTable d table) (a : Attribute) :
    ¬ IsMisnamed d a :=
  fun ⟨table, _, hmisnames⟩ => h table hmisnames.namesTable

instance (d : ClassDeclaration) : DecidablePred (IsMisnamed d) := fun a =>
  match h : tableName? d with
  | some table =>
      decidable_of_iff (a.SpellsMapping "Index" ∧ ¬ (indexViolation? "" table a).isNone = true)
        (by
          rw [isMisnamed_iff ((tableName?_eq_some_iff d table).mp h) "",
            Option.isNone_iff_eq_none])
  | none => isFalse (not_isMisnamed (fun table htable => by
      cases h.symm.trans ((tableName?_eq_some_iff d table).mpr htable)) a)

/-! ### What is reported -/

/-- The tip that suggests a name. -/
def tip (name : String) : String :=
  "Rename the index to something like \"" ++ name ++ "\"."

theorem tip_injective {name name' : String} (h : tip name = tip name') : name = name' := by
  unfold tip at h
  exact (String.append_right_inj _).mp ((String.append_left_inj _).mp h)

/-- A finding is about a misnamed index, in the line of that attribute: it says what the name has to
start with, and suggests the old name with that in front. -/
def IsAbout (d : ClassDeclaration) (className : String) (a : Attribute) (f : Finding) : Prop :=
  ∃ table name, Misnames d table name a ∧ f.line = a.line ∧
    f.message = "Index \"" ++ name ++ "\" in entity \"" ++ className ++
      "\" must be prefixed with the table name \"" ++ table ++ "_\"." ∧
    f.tip = some (tip (table ++ "_" ++ name))

theorem isAbout_of_indexViolation? {d : ClassDeclaration} {className table : String}
    {a : Attribute} {v : Violation} (hindex : a.SpellsMapping "Index") (htable : NamesTable d table)
    (h : indexViolation? className table a = some v) (rule : Rule) (path : Path) :
    IsAbout d className a (rule.finding path v) := by
  unfold indexViolation? at h
  split at h
  · cases h
  · rename_i name hname
    rw [Option.ite_none_left_eq_some, List.isPrefixOf_iff_prefix] at h
    obtain ⟨hunprefixed, h⟩ := h
    cases h
    rw [Attribute.namedString?_eq_some_iff] at hname
    refine ⟨table, name, ⟨hindex, htable, hname, hunprefixed⟩, rfl, rfl, ?_⟩
    unfold tip
    simp only [Rule.finding, String.append_assoc]

/-- The misnamed indexes of a class, in their order. -/
def misnamed (d : ClassDeclaration) : List Attribute :=
  d.attributes.filter fun a => IsMisnamed d a

theorem misnamed_eq_nil {d : ClassDeclaration} (h : ∀ table, ¬ NamesTable d table) :
    misnamed d = [] := by
  rw [misnamed, List.filter_eq_nil_iff]
  intro a _ ha
  exact not_isMisnamed h a (of_decide_eq_true ha)

theorem violations_eq_nil {ctx : ClassContext} (h : ∀ table, ¬ NamesTable ctx.declaration table) :
    violations ctx = [] := by
  have hnone : tableName? ctx.declaration = none :=
    Option.eq_none_iff_forall_ne_some.mpr fun table htable =>
      h table ((tableName?_eq_some_iff _ _).mp htable)
  unfold violations
  rw [hnone]
  cases ctx.scope.current <;> rfl

section entity

variable {ctx : ClassContext} {current : Reflection} (hcurrent : ctx.scope.current = some current)
  (hentity : ctx.classifier.isEntity current = true) (hkind : ctx.declaration.kind = .regular)

include hcurrent hentity hkind

theorem violations_eq_filterMap {table : String} (htable : NamesTable ctx.declaration table) :
    violations ctx =
      (ctx.declaration.attributes.filter fun a => Concept.index.isSpelledBy a.name).filterMap
        (indexViolation? current.name table) := by
  rw [← tableName?_eq_some_iff] at htable
  simp [violations, hcurrent, htable, hentity, hkind]

/-- Exactly the misnamed indexes of an entity are reported. -/
theorem forall₂_isAbout_findings (severity : Severity) :
    List.Forall₂ (IsAbout ctx.declaration current.name) (misnamed ctx.declaration)
      (Rule.findings ⟨.indexNamePrefix, severity⟩ ctx) := by
  show List.Forall₂ _ _ ((violations ctx).map (Rule.finding _ ctx.path))
  by_cases htable : ∃ table, NamesTable ctx.declaration table
  · obtain ⟨table, htable⟩ := htable
    rw [violations_eq_filterMap hcurrent hentity hkind htable, List.forall₂_map_right_iff,
      List.filterMap_filter]
    apply forall₂_filterMap
    · intro a
      rw [isMisnamed_iff htable current.name, ite_eq_right_iff, isSpelledBy_index, not_and,
        not_not]
    · intro a v hv
      split at hv
      · rename_i hindex
        exact isAbout_of_indexViolation? ((isSpelledBy_index a).mp hindex) htable hv _ ctx.path
      · cases hv
  · push Not at htable
    rw [violations_eq_nil htable, misnamed_eq_nil htable]
    exact .nil

end entity

/-! ### Tips that are followed -/

/-- The name of an index becomes the one that the tip of a finding suggests. -/
def TakesTip (a : Attribute) (f : Finding) (b : Attribute) : Prop :=
  ∃ name line, f.tip = some (tip name) ∧ b = a.withNamed "name" (.string name line)

/-- Each misnamed index takes the name that the tip of its finding suggests, and the other
attributes stay. -/
def FollowsTips (d : ClassDeclaration) (findings : List Finding) (new : List Attribute) : Prop :=
  Follows (IsMisnamed d) TakesTip d.attributes findings new

/-- What becomes of an attribute: a misnamed index gets the name of the table in front of its
own. -/
inductive Mended (d : ClassDeclaration) (a : Attribute) : Attribute → Prop
  | kept (ha : ¬ IsMisnamed d a) : Mended d a a
  | renamed {table name : String} (line : Nat) (ha : Misnames d table name a) :
      Mended d a (a.withNamed "name" (.string (table ++ "_" ++ name) line))

theorem exists_takesTip {d : ClassDeclaration} {className : String} {a : Attribute} {f : Finding}
    (h : IsAbout d className a f) : ∃ b, TakesTip a f b := by
  obtain ⟨table, name, -, -, -, htip⟩ := h
  exact ⟨_, _, a.line, htip, rfl⟩

theorem mended_of_takesTip {d : ClassDeclaration} {className : String} {a b : Attribute}
    {f : Finding} (h : IsAbout d className a f) (hb : TakesTip a f b) : Mended d a b := by
  obtain ⟨table, old, hmisnames, -, -, htip⟩ := h
  obtain ⟨name, line, htip', rfl⟩ := hb
  obtain rfl := tip_injective (Option.some.inj (htip.symm.trans htip'))
  exact .renamed line hmisnames

namespace Mended

variable {d : ClassDeclaration} {a b : Attribute}

theorem name_eq (h : Mended d a b) : b.name = a.name := by
  cases h <;> rfl

theorem eq_of_not_index (h : Mended d a b) (ha : ¬ Concept.index.isSpelledBy a.name = true) :
    b = a := by
  cases h with
  | kept => rfl
  | renamed line hmisnames => exact absurd ((isSpelledBy_index a).mpr hmisnames.isIndex) ha

/-- Attributes that spell another concept than an index are selected as before. -/
theorem filter_isSpelledBy {c : Concept} (hc : c ∈ Concept.builtIn) (hne : c ≠ Concept.index)
    {old new : List Attribute} (h : List.Forall₂ (Mended d) old new) :
    (new.filter fun a => c.isSpelledBy a.name) = old.filter fun a => c.isSpelledBy a.name := by
  apply filter_eq_of_forall₂ _ _ h
  · intro a b hab
    rw [hab.name_eq]
  · -- A name spells one concept at most, so what is selected is no index.
    intro a b hab ha
    apply hab.eq_of_not_index
    intro hindex
    exact hne (Concept.eq_of_isSpelledBy hc (by decide) ha hindex)

/-- The table is called as before. -/
theorem tableName?_eq {new : List Attribute} (h : List.Forall₂ (Mended d) d.attributes new) :
    tableName? { d with attributes := new } = tableName? d := by
  unfold tableName?
  rw [← List.head?_filter, ← List.head?_filter,
    filter_isSpelledBy (c := Concept.table) (by decide) (by decide) h]

/-- No index is misnamed any more. -/
theorem indexViolation?_eq_none {table : String} (h : Mended d a b) (htable : NamesTable d table)
    (hindex : b.SpellsMapping "Index") (className : String) :
    indexViolation? className table b = none := by
  cases h with
  | kept ha =>
      rw [isMisnamed_iff htable className, not_and, not_not] at ha
      exact ha hindex
  | @renamed table' old line hmisnames =>
      obtain rfl := htable.unique hmisnames.namesTable
      rw [indexViolation?_eq_none_iff]
      intro name hname
      obtain rfl := Attribute.eq_of_hasLiteral_withNamed hname
      simp only [String.toList_append, List.prefix_append]

theorem violations_eq_nil {ctx : ClassContext} {new : List Attribute}
    (h : List.Forall₂ (Mended ctx.declaration) ctx.declaration.attributes new) :
    violations (ctx.withAttributes new) = [] := by
  have htable : tableName? (ctx.withAttributes new).declaration = tableName? ctx.declaration :=
    tableName?_eq h
  unfold violations
  rw [htable]
  split
  · rename_i current table _ htable
    rw [tableName?_eq_some_iff] at htable
    split
    · rw [List.filterMap_eq_nil_iff]
      intro b hb
      obtain ⟨hb, hindex⟩ := List.mem_filter.mp hb
      obtain ⟨a, -, hab⟩ := exists_mem_of_forall₂ h hb
      exact hab.indexViolation?_eq_none htable ((isSpelledBy_index b).mp hindex) current.name
    · rfl
  · rfl

/-- Beside this check only that of repositories reads the attributes of a class, and it reads none
of an index. -/
theorem violations_eq {ctx : ClassContext} {new : List Attribute}
    (h : List.Forall₂ (Mended ctx.declaration) ctx.declaration.attributes new) {check : Check}
    (hne : check ≠ .indexNamePrefix) :
    check.violations (ctx.withAttributes new) = check.violations ctx := by
  by_cases hreads : check.ReadsAttributes
  · cases check with
    | repositoryConstant =>
        have hattributes :=
          filter_isSpelledBy (c := Concept.entity) (by decide) (by decide) h
        show RepositoryConstant.violations _ = RepositoryConstant.violations _
        unfold RepositoryConstant.violations
        show (if ctx.isEntity then (new.filter _).filterMap _ else []) = _
        rw [hattributes]
        rfl
    | indexNamePrefix => exact absurd rfl hne
    | _ => cases hreads
  · exact Check.violations_withAttributes hreads ctx new

end Mended

/-- **Following the tips mends an entity and nothing else changes.**  About an entity that is a
class there is one finding for each misnamed index, in their order, and none if the first table
attribute has no literal name.  Whoever gives each of these indexes the name in the tip of its
finding gets a class about which nothing is found, and about which any other rule finds what it found
before. -/
theorem findings_followsTips {ctx : ClassContext} {current : Reflection}
    (hcurrent : ctx.scope.current = some current)
    (hentity : ctx.classifier.isEntity current = true)
    (hkind : ctx.declaration.kind = .regular) (severity : Severity) :
    let rule : Rule := ⟨.indexNamePrefix, severity⟩
    let d := ctx.declaration
    List.Forall₂ (IsAbout d current.name) (misnamed d) (rule.findings ctx) ∧
      ((∀ table, ¬ NamesTable d table) → rule.findings ctx = []) ∧
      (∃ new, FollowsTips d (rule.findings ctx) new) ∧
      ∀ new, FollowsTips d (rule.findings ctx) new →
        rule.findings (ctx.withAttributes new) = [] ∧
          ∀ other : Rule, other.check ≠ .indexNamePrefix →
            other.findings (ctx.withAttributes new) = other.findings ctx := by
  intro rule d
  have habout := forall₂_isAbout_findings hcurrent hentity hkind severity
  refine ⟨habout, ?_, exists_follows (fun _ _ => exists_takesTip) habout, ?_⟩
  · intro htable
    rw [misnamed_eq_nil htable] at habout
    exact List.forall₂_nil_left_iff.mp habout
  · intro new hnew
    have hmended : List.Forall₂ (Mended d) d.attributes new :=
      Follows.forall₂ (M := Mended d) (fun _ => .kept) (fun _ _ _ => mended_of_takesTip) habout hnew
    constructor
    · show (violations _).map _ = []
      rw [Mended.violations_eq_nil hmended, List.map_nil]
    · intro other hother
      show (other.check.violations _).map _ = (other.check.violations _).map _
      rw [Mended.violations_eq hmended hother]
      rfl

/-- The resolved class of an entity. -/
def resolvedProduct : Reflection :=
  (Reflection.ofName "App\\Product").addAttribute (.bare "ORM\\Entity" 7)

/-- An entity with two tables, of which the first one counts; its indexes are called after the
second one, after nothing at all, after the first one, and by no text. -/
def product : ClassContext where
  declaration := {
    name := "Product"
    kind := .regular
    line := 12
    attributes := [
      ⟨"ORM\\Table", 8, [.named "name" (.string "shop" 8), .named "name" (.string "idx" 8)]⟩,
      ⟨"\\ORM\\Table", 8, [.named "name" (.string "idx" 8)]⟩,
      ⟨"ORM\\Index", 9, [.named "name" (.string "idx_sku" 9), .named "name" (.string "shop_" 9)]⟩,
      ⟨"Index", 10, [.named "name" (.string "" 10)]⟩,
      ⟨"Index", 11, [.named "name" (.string "shop_idx" 11)]⟩,
      ⟨"Index", 11, [.named "name" (.other none 11), .named "name" (.string "sku" 11)]⟩]
    properties := []
    constructor? := none }
  reflection := resolvedProduct
  scope := ⟨some resolvedProduct, .empty⟩
  classifier := .conventions
  path := ⟨"src/Product.php"⟩

theorem findings_followsTips_product :
    let rule : Rule := ⟨.indexNamePrefix, .warning⟩
    let d := product.declaration
    product.scope.current = some resolvedProduct ∧
      product.classifier.isEntity resolvedProduct = true ∧ d.kind = .regular ∧
      (rule.findings product).map Finding.tip = [some (tip "shop_idx_sku"), some (tip "shop_")] ∧
      List.Forall₂ (IsAbout d "App\\Product") (misnamed d) (rule.findings product) ∧
      ∃ new, FollowsTips d (rule.findings product) new ∧
        rule.findings (product.withAttributes new) = [] ∧
          ∀ other : Rule, other.check ≠ .indexNamePrefix →
            other.findings (product.withAttributes new) = other.findings product := by
  intro rule d
  have hcurrent : product.scope.current = some resolvedProduct := rfl
  have hentity : product.classifier.isEntity resolvedProduct = true := by decide +kernel
  obtain ⟨habout, -, ⟨new, hnew⟩, hmends⟩ := findings_followsTips hcurrent hentity rfl .warning
  exact ⟨hcurrent, hentity, rfl, by decide +kernel, habout, new, hnew, hmends new hnew⟩

end IndexNamePrefix

end EntityConventions
