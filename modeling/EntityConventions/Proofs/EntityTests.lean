import EntityConventions.Proofs.Documents
import EntityConventions.Proofs.Names
import EntityConventions.Proofs.RuleReading

/-! # Entity tests without the common base class

`EntityTestBase.LacksBase` says in full which test cases are objected to: a declared class with the
name of a test, whose first covers attribute names a known entity, while the base class is known
too and is no ancestor.  The parts of the check answer to the parts of this: the roles of classes
by convention (`Classifier.isEntity_conventions`, `isTest_conventions`, `covered?_conventions`) and
the class that an index finds under a name, which carries that name (`ClassIndex.key_of_get?`).

The last point matters because the check compares ancestors with the name that the base class
itself carries, and not with the name that is configured.  After any history of an index the two
agree, so there is one finding for a test case that lacks its base class and none for any other
(`EntityTestBase.findings_iff_lacksBase`). -/

namespace EntityConventions

/-! ### Roles by convention -/

/-- The class that a value names: a text does, and `X::class` does. -/
inductive Expr.NamesClass : Expr → String → Prop
  | string (name : String) (line : Nat) : NamesClass (.string name line) name
  | classConst (name : String) (line : Nat) :
      NamesClass (.classConst (some name) (some "class") line) name

namespace Attribute

/-- The argument of a covers attribute that counts: the first one called `className`, or the first
positional one if none is called so. -/
def IsCoversArg (a : Attribute) (arg : Argument) : Prop :=
  IsFirst (fun x => x.name = some "className") a.args arg ∨
    (∀ x ∈ a.args, x.name ≠ some "className") ∧ IsFirst (fun x => x.name = none) a.args arg

/-- The class that a covers attribute names. -/
def Covers (a : Attribute) (name : String) : Prop :=
  ∃ arg, a.IsCoversArg arg ∧ arg.value.NamesClass name

end Attribute

namespace Classifier

theorem target?_eq_some_iff (e : Expr) (target : String) :
    target? e = some target ↔ ∃ name, e.NamesClass name ∧ Name.stripLeading name = target := by
  constructor
  · intro h
    unfold target? at h
    split at h
    · rename_i name constant line
      split at h
      · rename_i hconstant
        exact ⟨name, hconstant ▸ .classConst name line, Option.some.inj h⟩
      · cases h
    · rename_i name line
      exact ⟨name, .string name line, Option.some.inj h⟩
    · cases h
  · rintro ⟨name, hname, rfl⟩
    cases hname <;> rfl

theorem coversArg?_eq_some_iff (a : Attribute) (arg : Argument) :
    coversArg? a = some arg ↔ a.IsCoversArg arg := by
  have hnamed : ∀ x : Argument, (x.name == some "className") = true ↔ x.name = some "className" :=
    fun x => beq_iff_eq
  have hpositional : ∀ x : Argument, x.name.isNone = true ↔ x.name = none :=
    fun x => Option.isNone_iff_eq_none
  rw [coversArg?, Attribute.namedArg?, Option.or_eq_some_iff, List.find?_eq_none,
    find?_eq_some_iff_isFirst hnamed, find?_eq_some_iff_isFirst hpositional]
  simp only [beq_iff_eq, Attribute.IsCoversArg, ne_eq]

/-- The class that a test case covers by convention, leading separators aside. -/
theorem covered?_conventions (r : Reflection) (target : String) :
    conventions.covered? r = some target ↔
      ∃ a name, IsFirst (fun x => Name.short x.name = "CoversClass") r.attributes a ∧
        a.Covers name ∧ Name.stripLeading name = target := by
  have hcovers : ∀ a : Attribute,
      Concept.coversClass.isDenotedBy a.name = true ↔ Name.short a.name = "CoversClass" := by
    have hshort : Concept.coversClass.short = "CoversClass" := by decide +kernel
    intro a
    rw [Concept.isDenotedBy_iff_short_eq (c := Concept.coversClass) (by decide +kernel), hshort]
  show (r.attributes.find? _).bind (fun a => (coversArg? a).bind fun arg => target? arg.value) = _ ↔ _
  simp only [Option.bind_eq_some_iff, find?_eq_some_iff_isFirst hcovers, coversArg?_eq_some_iff,
    target?_eq_some_iff]
  constructor
  · rintro ⟨a, ha, arg, harg, name, hname, htarget⟩
    exact ⟨a, name, ha, ⟨arg, harg, hname⟩, htarget⟩
  · rintro ⟨a, name, ha, ⟨arg, harg, hname⟩, htarget⟩
    exact ⟨a, ha, arg, harg, name, hname, htarget⟩

theorem isEntity_conventions (r : Reflection) :
    conventions.isEntity r = true ↔ ∃ a ∈ r.attributes, Name.short a.name = "Entity" := by
  have hentity : ∀ a : Attribute,
      Concept.entity.isDenotedBy a.name = true ↔ Name.short a.name = "Entity" := by
    have hshort : Concept.entity.short = "Entity" := by decide +kernel
    intro a
    rw [Concept.isDenotedBy_iff_short_eq (c := Concept.entity) (by decide +kernel), hshort]
  simp only [conventions, Reflection.hasAttribute, List.any_eq_true, hentity]

theorem isTest_conventions (name : String) :
    conventions.isTest name = true ↔ "Test".toList <:+ (Name.short name).toList := by
  simp only [conventions, List.isSuffixOf_iff_suffix]

end Classifier

/-! ### The class under a name -/

namespace Name

theorem stripLeading_trimLeading (name : String) :
    stripLeading (trimLeading name) = stripLeading name := by
  rcases eq_trimLeading_or name with h | h
  · rw [h]
  · conv_rhs => rw [h, stripLeading_qualify]

theorem stripLeading_stripLeading (name : String) :
    stripLeading (stripLeading name) = stripLeading name := by
  rw [stripLeading, stripLeading, String.toList_ofList, List.dropWhile_idempotent]

end Name

namespace ClassIndex

theorem get?_congr (index : ClassIndex) {name name' : String}
    (h : Name.stripLeading name = Name.stripLeading name') : index.get? name = index.get? name' := by
  rw [get?, get?, h]

theorem get?_stripLeading (index : ClassIndex) (name : String) :
    index.get? (Name.stripLeading name) = index.get? name :=
  index.get?_congr (Name.stripLeading_stripLeading name)

/-- A class is found under its own name. -/
theorem key_of_get? {index : ClassIndex} {names : List String} (h : index.Holds names)
    {name : String} {r : Reflection} (hr : index.get? name = some r) :
    r.key = Name.stripLeading name := by
  obtain ⟨before, after, hclasses, -⟩ := List.lookup_eq_some_iff.mp hr
  exact h.own (Name.stripLeading name, r) (hclasses ▸ List.mem_append_right before List.mem_cons_self)

end ClassIndex

/-- Whether a class extends the one found under a name can be told from that name. -/
theorem Reflection.isSubclassOf_eq_false_iff {index : ClassIndex} {names : List String}
    (h : index.Holds names) {name : String} {base : Reflection} (hbase : index.get? name = some base)
    (r : Reflection) :
    r.isSubclassOf base = false ↔
      ∀ a ∈ r.ancestors, Name.stripLeading a ≠ Name.stripLeading name := by
  have hkey : Name.stripLeading base.name = Name.stripLeading name := ClassIndex.key_of_get? h hbase
  simp only [isSubclassOf, hkey, List.any_eq_false, beq_iff_eq, ne_eq]

/-! ### Test cases that are objected to -/

namespace EntityTestBase

/-- A test case covers a known entity and does not extend a known base class. -/
structure LacksBase (index : ClassIndex) (d : ClassDeclaration) (test : Reflection)
    (base : String) : Prop where
  kind : d.kind = .regular
  name : "Test".toList <:+ (Name.short test.name).toList
  covers : ∃ a name covered,
    IsFirst (fun x => Name.short x.name = "CoversClass") test.attributes a ∧ a.Covers name ∧
      index.get? name = some covered ∧ ∃ b ∈ covered.attributes, Name.short b.name = "Entity"
  known : ∃ r, index.get? base = some r
  not_extends : ∀ a ∈ test.ancestors, Name.stripLeading a ≠ Name.stripLeading base

theorem lacksBase_trimLeading {index : ClassIndex} {d : ClassDeclaration} {test : Reflection}
    {base : String} :
    LacksBase index d test (Name.trimLeading base) ↔ LacksBase index d test base := by
  have hstrip := Name.stripLeading_trimLeading base
  have hget := index.get?_congr hstrip
  constructor
  · intro h
    exact ⟨h.kind, h.name, h.covers, hget ▸ h.known, hstrip ▸ h.not_extends⟩
  · intro h
    exact ⟨h.kind, h.name, h.covers, hget ▸ h.known, hstrip ▸ h.not_extends⟩

theorem entityTest?_eq_some_iff (ctx : ClassContext) (test : Reflection) (target : String) :
    entityTest? ctx = some (test, target) ↔
      ctx.scope.current = some test ∧ ctx.classifier.isTest test.name = true ∧
        ctx.declaration.kind = .regular ∧ ctx.classifier.covered? test = some target ∧
        ∃ covered, ctx.scope.get? target = some covered ∧
          ctx.classifier.isEntity covered = true := by
  unfold entityTest?
  simp only [Option.bind_eq_bind, Option.bind_eq_some_iff]
  constructor
  · rintro ⟨test', htest, h⟩
    split at h
    · rename_i hrole
      rw [Bool.and_eq_true, decide_eq_true_eq] at hrole
      simp only [Option.bind_eq_some_iff] at h
      obtain ⟨target', htarget, covered, hcovered, h⟩ := h
      split at h
      · rename_i hentity
        obtain ⟨rfl, rfl⟩ := Prod.mk.inj (Option.some.inj h)
        exact ⟨htest, hrole.1, hrole.2, htarget, covered, hcovered, hentity⟩
      · cases h
    · cases h
  · rintro ⟨htest, hname, hkind, htarget, covered, hcovered, hentity⟩
    refine ⟨test, htest, ?_⟩
    simp [hname, hkind, htarget, hcovered, hentity]

theorem violations_ne_nil_iff (baseClass : String) (ctx : ClassContext) :
    violations baseClass ctx ≠ [] ↔
      ∃ test target base, entityTest? ctx = some (test, target) ∧
        ctx.scope.get? baseClass = some base ∧ test.isSubclassOf base = false := by
  unfold violations
  constructor
  · intro h
    split at h
    · rename_i test target base htest hbase
      split at h
      · exact absurd rfl h
      · rename_i hsubclass
        exact ⟨test, target, base, htest, hbase, Bool.not_eq_true _ ▸ hsubclass⟩
    · exact absurd rfl h
  · rintro ⟨test, target, base, htest, hbase, hsubclass⟩
    simp [htest, hbase, hsubclass]

theorem length_violations_le_one (baseClass : String) (ctx : ClassContext) :
    (violations baseClass ctx).length ≤ 1 := by
  unfold violations
  split
  · split
    · exact Nat.zero_le 1
    · exact le_refl 1
  · exact Nat.zero_le 1

/-- Among classes that are held under their own names the check objects to the test cases that lack
their base class. -/
theorem violations_ne_nil_iff_lacksBase {ctx : ClassContext} {index : ClassIndex}
    {names : List String} {test : Reflection} (hindex : index.Holds names)
    (hscope : ctx.scope = ⟨some test, index⟩) (hroles : ctx.classifier = .conventions)
    (base : String) :
    violations base ctx ≠ [] ↔ LacksBase index ctx.declaration test base := by
  simp only [violations_ne_nil_iff, entityTest?_eq_some_iff, hscope, Scope.get?, hroles,
    Classifier.isTest_conventions, Classifier.covered?_conventions, Classifier.isEntity_conventions]
  -- The name in the covers attribute is stripped once more when it is looked up.
  constructor
  · rintro ⟨test', target, r, ⟨htest, hname, hkind, ⟨a, name, ha, hcovers, rfl⟩, covered, hcovered,
      hentity⟩, hr, hsubclass⟩
    obtain rfl : test = test' := Option.some.inj htest
    rw [ClassIndex.get?_stripLeading] at hcovered
    exact ⟨hkind, hname, ⟨a, name, covered, ha, hcovers, hcovered, hentity⟩, ⟨r, hr⟩,
      (Reflection.isSubclassOf_eq_false_iff hindex hr test).mp hsubclass⟩
  · rintro ⟨hkind, hname, ⟨a, name, covered, ha, hcovers, hcovered, hentity⟩, ⟨r, hr⟩, hextends⟩
    rw [← ClassIndex.get?_stripLeading] at hcovered
    exact ⟨test, Name.stripLeading name, r, ⟨rfl, hname, hkind, ⟨a, name, ha, hcovers, rfl⟩, covered,
      hcovered, hentity⟩, hr, (Reflection.isSubclassOf_eq_false_iff hindex hr test).mpr hextends⟩

/-- **Exactly the entity tests that lack their base class are found.**  Let an index have any
history, let a test case be looked at in it, and let a rule ask for a base class.  The rule has one
finding if the test case lacks that class, and none if not. -/
theorem findings_iff_lacksBase (models : List Model) (inserted : List Reflection)
    (d : ClassDeclaration) (r test : Reflection) (path : Path) {rule : Rule} {base : String}
    (hbase : rule.AsksFor .entityTestBase "base_class" base) :
    let index := inserted.foldl ClassIndex.insert (ClassIndex.ofModels models)
    let ctx : ClassContext := ⟨d, r, ⟨some test, index⟩, .conventions, path⟩
    ((rule.findings ctx).length = 1 ↔ LacksBase index d test base) ∧
      (¬ LacksBase index d test base → rule.findings ctx = []) := by
  intro index ctx
  have hindex := ClassIndex.holds_foldl_insert (ClassIndex.holds_ofModels models) inserted
  obtain ⟨base', hcheck, hbase'⟩ := hbase.exists_check fun _ _ => rfl
  -- An option loses a leading separator, which neither resolution nor ancestors depend on.
  have hlacks : LacksBase index d test base' ↔ LacksBase index d test base := by
    rcases hbase' with rfl | rfl
    · exact Iff.rfl
    · exact lacksBase_trimLeading
  have hfindings : rule.findings ctx = (violations base' ctx).map (rule.finding path) := by
    rw [Rule.findings, hcheck]
    rfl
  have hne : violations base' ctx ≠ [] ↔ LacksBase index d test base :=
    (violations_ne_nil_iff_lacksBase hindex rfl rfl base').trans hlacks
  have hle := length_violations_le_one base' ctx
  rw [hfindings, List.length_map, ← hne, ← List.length_pos_iff, List.map_eq_nil_iff]
  constructor
  · omega
  · intro h
    rw [← List.length_eq_zero_iff]
    omega

/-- The test case of `dayTest`, with another test case among its ancestors. -/
def otherTest : Reflection :=
  Analyzer.dayTest.reflection.addAncestor "PHPUnit\\Framework\\TestCase"

/-- The base class is configured and known under different numbers of separators. -/
theorem findings_iff_lacksBase_otherTest :
    let base := "\\App\\Tests\\EntityTestCase"
    let options : RuleConfig := ⟨none, none, [("base_class", .string base)]⟩
    let rule := Rule.entityTestBase.configure options
    let inserted := [Reflection.ofName "\\\\App\\Tests\\EntityTestCase"]
    let index := inserted.foldl ClassIndex.insert (ClassIndex.ofModels [Analyzer.mutableDay])
    let d := ClassDeclaration.empty "DayTest" .regular 4
    let ctx (test : Reflection) : ClassContext :=
      ⟨d, test, ⟨some test, index⟩, .conventions, ⟨"tests/DayTest.php"⟩⟩
    rule.AsksFor .entityTestBase "base_class" base ∧
      LacksBase index d otherTest base ∧ (rule.findings (ctx otherTest)).length = 1 ∧
      ¬ LacksBase index d (otherTest.addAncestor base) base ∧
      rule.findings (ctx (otherTest.addAncestor base)) = [] := by
  intro base options rule inserted index d ctx
  have hoption : options.getString "base_class" defaultBase = base := by
    simp [options, RuleConfig.getString, RuleConfig.option?, Toml.string?]
  have hbase : rule.AsksFor .entityTestBase "base_class" base :=
    hoption ▸ .configured defaultBase .error options
  have hspec (test : Reflection) :=
    findings_iff_lacksBase [Analyzer.mutableDay] inserted d test test ⟨"tests/DayTest.php"⟩ hbase
  have hone : (rule.findings (ctx otherTest)).length = 1 := by decide +kernel
  have hnone : ¬ LacksBase index d (otherTest.addAncestor base) base :=
    fun h => h.not_extends base (by decide) rfl
  exact ⟨hbase, (hspec otherTest).1.mp hone, hone, hnone, (hspec _).2 hnone⟩

end EntityTestBase

end EntityConventions
