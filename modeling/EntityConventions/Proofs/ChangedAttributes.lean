import EntityConventions.Proofs.RangeOptions

/-! # What a change of attributes leaves alone

`Attribute.withNamed` exchanges the value of the first argument with a given name.  The other
arguments are found as before (`namedArg?_withNamed_of_ne`), and the keys and lines of the options
stay the same (`optionKeys_withNamed`).  So only those notice that an attribute is changed in this
way (`Attribute.ChangedAt`) who read the argument.

Half of the checks read the properties of a declaration and half of them do not
(`Check.ReadsProperties`); two read the attributes of the class (`Check.ReadsAttributes`).  A check
does not notice a change of what it does not read (`Check.violations_withProperties`,
`violations_withAttributes`).  Of the values of arguments in properties, the checks read those of
options and types and no others (`Check.violations_changedAt`).

Whoever follows findings changes what they are about and nothing else (`Follows`).  That can be done
if each finding can be followed (`exists_follows`), and what is true of each change is true of all
(`Follows.forall₂`). -/

namespace EntityConventions

/-! ### Another value of an argument -/

namespace Attribute

/-- The attribute with another value of the first argument with a given name. -/
def withNamed (a : Attribute) (name : String) (value : Expr) : Attribute :=
  { a with args := a.args.replaceF fun arg =>
      if arg.name = some name then some { arg with value := value } else none }

section withNamed

variable (a : Attribute) (name : String) (value : Expr)

theorem namedArg?_withNamed :
    (a.withNamed name value).namedArg? name =
      (a.namedArg? name).map fun arg => { arg with value := value } := by
  unfold withNamed namedArg?
  induction a.args with
  | nil => rfl
  | cons arg args ih =>
      by_cases harg : arg.name = some name
      · simp [harg]
      · simp [harg, ih]

theorem namedArg?_withNamed_of_ne {name other : String} (h : other ≠ name) :
    (a.withNamed name value).namedArg? other = a.namedArg? other := by
  unfold withNamed namedArg?
  induction a.args with
  | nil => rfl
  | cons arg args ih =>
      by_cases harg : arg.name = some name
      · simp [harg, h.symm]
      · simp [harg, List.find?_cons, ih]

theorem eq_of_hasLiteral_withNamed {a : Attribute} {name text text' : String} {line : Nat}
    (h : (a.withNamed name (.string text line)).HasLiteral name text') : text' = text := by
  rw [← namedString?_eq_some_iff, namedString?, namedArg?_withNamed, Option.bind_map,
    Option.bind_eq_some_iff] at h
  obtain ⟨arg, -, htext⟩ := h
  exact (Option.some.inj htext).symm

theorem optionKeys_withNamed : (a.withNamed name value).optionKeys = a.optionKeys := by
  rw [optionKeys_eq_flatMap, optionKeys_eq_flatMap]
  show List.flatMap Argument.optionKeys (a.args.replaceF _) = _
  induction a.args with
  | nil => rfl
  | cons arg args ih =>
      obtain ⟨argName, old, line⟩ := arg
      by_cases harg : argName = some name
      · obtain rfl := harg
        simp only [List.replaceF_cons, if_pos, List.flatMap_cons]
        rfl
      · simp only [List.replaceF_cons, if_neg harg, List.flatMap_cons, ih]

end withNamed

/-- At most the value of the first argument with a given name is another one. -/
inductive ChangedAt (name : String) (a : Attribute) : Attribute → Prop
  | same : ChangedAt name a a
  | other (value : Expr) : ChangedAt name a (a.withNamed name value)

namespace ChangedAt

variable {name : String} {a b : Attribute}

theorem sameOptions (h : a.ChangedAt name b) : a.SameOptions b := by
  cases h with
  | same => exact ⟨rfl, rfl, rfl⟩
  | other value => exact ⟨rfl, rfl, (optionKeys_withNamed a name value).symm⟩

theorem namedArg?_eq (h : a.ChangedAt name b) {other : String} (hother : other ≠ name) :
    a.namedArg? other = b.namedArg? other := by
  cases h with
  | same => rfl
  | other value => exact (namedArg?_withNamed_of_ne a value hother).symm

end ChangedAt

end Attribute

/-! ### What checks do not read -/

namespace Check

/-- The checks that read the properties of a declaration. -/
def ReadsProperties : Check → Prop
  | .columnComment _ | .immutableDates | .exclusiveIndexColumn _ | .rangeMessages => True
  | _ => False

/-- The checks that read the attributes of the class itself, as they are declared. -/
def ReadsAttributes : Check → Prop
  | .repositoryConstant | .indexNamePrefix => True
  | _ => False

theorem violations_withProperties {check : Check} (h : ¬ check.ReadsProperties)
    (ctx : ClassContext) (properties : List Property) :
    check.violations (ctx.withProperties properties) = check.violations ctx := by
  cases check with
  | parameterlessConstructor => rfl
  | repositoryConstant => rfl
  | indexNamePrefix => rfl
  | entityTestBase baseClass => rfl
  | _ => exact absurd trivial h

end Check

/-- The class under check, with other attributes of its own. -/
def ClassContext.withAttributes (ctx : ClassContext) (attributes : List Attribute) : ClassContext :=
  { ctx with declaration.attributes := attributes }

theorem Check.violations_withAttributes {check : Check} (h : ¬ check.ReadsAttributes)
    (ctx : ClassContext) (attributes : List Attribute) :
    check.violations (ctx.withAttributes attributes) = check.violations ctx := by
  cases check with
  | repositoryConstant => exact absurd trivial h
  | indexNamePrefix => exact absurd trivial h
  | _ => rfl

/-! ### What checks do not read of properties -/

/-- A search among the attributes that spell a concept finds the same if it reads the same of
each. -/
theorem ClassDeclaration.filterMap_attributesSpelling_eq {β : Type}
    {R : Attribute → Attribute → Prop} {d e : ClassDeclaration} {c : Concept}
    {g : Property × Attribute → Option β}
    (h : List.Forall₂ (Property.Related R) d.properties e.properties)
    (hname : ∀ a b, R a b → a.name = b.name)
    (hg : ∀ p q : Property, p.name = q.name → ∀ a b, R a b → g (p, a) = g (q, b)) :
    (d.attributesSpelling c).filterMap g = (e.attributesSpelling c).filterMap g := by
  simp only [attributesSpelling, List.filterMap_flatMap, List.filterMap_map,
    List.filterMap_filter]
  apply flatMap_eq_of_forall₂ h
  intro p q hpq
  apply filterMap_eq_of_forall₂ hpq.attributes
  intro a b hab
  simp only [Function.comp_apply, hname a b hab, hg p q hpq.name a b hab]

/-- Of a column the check of comments reads the name, the line and the options. -/
theorem ColumnComment.violations_changedAt {name : String} {ctx : ClassContext}
    {new : List Property}
    (h : List.Forall₂ (Property.Related (Attribute.ChangedAt name)) ctx.declaration.properties new)
    (hname : name ≠ "options") (skipTests : Bool) :
    violations skipTests (ctx.withProperties new) = violations skipTests ctx := by
  have hsearch := ClassDeclaration.filterMap_attributesSpelling_eq
    (e := (ctx.withProperties new).declaration) (c := Concept.column)
    (g := fun x => columnViolation? ctx.className x.1 x.2) h (fun a b hab => hab.sameOptions.name)
    (by
      intro p q hpq a b hab
      simp only [columnViolation?, hab.namedArg?_eq hname.symm, hab.sameOptions.line, hpq])
  unfold violations
  rw [ctx.className_withProperties, ctx.isEntity_withProperties, ← hsearch]
  rfl

namespace ExclusiveIndexColumn

/-- Of attributes the check of associations reads names and lines. -/
theorem map_conflicts_eq {p q : Property} (h : p.Related Attribute.SameOptions q)
    (marker : Concept) (className : String) :
    (conflicts marker p).map (conflictViolation marker className p) =
      (conflicts marker q).map (conflictViolation marker className q) := by
  have hmarked : (p.attributes.any fun a => marker.isDenotedBy a.name) =
      q.attributes.any fun a => marker.isDenotedBy a.name :=
    any_eq_of_forall₂ h.attributes fun a b hab => by rw [hab.name]
  have hline : p.attributes.head?.map Attribute.line = q.attributes.head?.map Attribute.line :=
    optionMap_eq_of_rel (head?_related h.attributes) fun a b hab => hab.line
  unfold conflicts
  rw [hmarked]
  split
  · rw [← List.filterMap_eq_map, ← List.filterMap_eq_map, List.filterMap_filter,
      List.filterMap_filter]
    apply filterMap_eq_of_forall₂ h.attributes
    intro a b hab
    simp only [Function.comp_apply, conflictViolation, hab.name, h.name, h.line, hline]
  · rfl

theorem violations_sameOptions {ctx : ClassContext} {new : List Property}
    (h : List.Forall₂ (Property.Related Attribute.SameOptions) ctx.declaration.properties new)
    (marker : String) : violations marker (ctx.withProperties new) = violations marker ctx := by
  unfold violations
  rw [ctx.className_withProperties, ctx.isEntity_withProperties]
  split
  · apply Eq.symm
    apply flatMap_eq_of_forall₂ h
    intro p q hpq
    exact map_conflicts_eq hpq ⟨marker, none⟩ ctx.className
  · rfl

end ExclusiveIndexColumn

/-- Of a range the check of messages reads the name, the line and the keys of options. -/
theorem RangeMessages.violations_sameOptions {ctx : ClassContext} {new : List Property}
    (h : List.Forall₂ (Property.Related Attribute.SameOptions) ctx.declaration.properties new) :
    violations (ctx.withProperties new) = violations ctx := by
  have hsearch := ClassDeclaration.filterMap_attributesSpelling_eq
    (e := (ctx.withProperties new).declaration) (c := Concept.range)
    (g := fun x => rangeViolation? ctx.className x.1 x.2) h (fun a b hab => hab.name)
    (by
      intro p q hpq a b hab
      simp only [rangeViolation?, hab.optionKeys, hab.line, hpq])
  unfold violations
  rw [ctx.className_withProperties, ctx.kind_withProperties, ← hsearch]

/-- Of the values of arguments in properties the checks read those of options and types only. -/
theorem Check.violations_changedAt {name : String} {ctx : ClassContext} {new : List Property}
    (h : List.Forall₂ (Property.Related (Attribute.ChangedAt name)) ctx.declaration.properties new)
    (hname : name ≠ "options") {check : Check} (hcheck : check ≠ .immutableDates) :
    check.violations (ctx.withProperties new) = check.violations ctx := by
  have hsame : List.Forall₂ (Property.Related Attribute.SameOptions) ctx.declaration.properties
      new :=
    h.imp fun p q hpq => hpq.imp fun a b hab => hab.sameOptions
  by_cases hreads : check.ReadsProperties
  · cases check with
    | columnComment skipTests => exact ColumnComment.violations_changedAt h hname skipTests
    | exclusiveIndexColumn marker =>
        exact ExclusiveIndexColumn.violations_sameOptions hsame marker
    | rangeMessages => exact RangeMessages.violations_sameOptions hsame
    | immutableDates => exact absurd rfl hcheck
    | _ => cases hreads
  · exact Check.violations_withProperties hreads ctx new

/-! ### Findings that are followed -/

/-- Members of a list are changed as findings say: a reported member, which the next of the findings
is about, changes as that finding says, and any other member stays. -/
inductive Follows {α : Type} (P : α → Prop) (S : α → Finding → α → Prop) :
    List α → List Finding → List α → Prop
  | nil : Follows P S [] [] []
  | kept {a : α} {old new : List α} {findings : List Finding} (ha : ¬ P a)
      (rest : Follows P S old findings new) : Follows P S (a :: old) findings (a :: new)
  | changed {a b : α} {old new : List α} {f : Finding} {findings : List Finding} (ha : P a)
      (hb : S a f b) (rest : Follows P S old findings new) :
      Follows P S (a :: old) (f :: findings) (b :: new)

section follows

variable {α : Type} {P : α → Prop} [DecidablePred P] {R : α → Finding → Prop}
  {S : α → Finding → α → Prop} {old : List α} {findings : List Finding}

/-- Findings can be followed if each of them can. -/
theorem exists_follows (hS : ∀ a f, R a f → ∃ b, S a f b)
    (h : List.Forall₂ R (old.filter fun a => P a) findings) :
    ∃ new, Follows P S old findings new := by
  induction old generalizing findings with
  | nil =>
      obtain rfl := List.forall₂_nil_left_iff.mp h
      exact ⟨[], .nil⟩
  | cons a old ih =>
      by_cases ha : P a
      · rw [List.filter_cons_of_pos (by simpa using ha)] at h
        cases h with
        | cons hf h =>
            obtain ⟨b, hb⟩ := hS _ _ hf
            obtain ⟨new, hnew⟩ := ih h
            exact ⟨_, .changed ha hb hnew⟩
      · rw [List.filter_cons_of_neg (by simpa using ha)] at h
        obtain ⟨new, hnew⟩ := ih h
        exact ⟨_, .kept ha hnew⟩

/-- What is true of members that stay, and of changes that findings about a member ask for, is true
of each member of the list. -/
theorem Follows.forall₂ {M : α → α → Prop} (hkept : ∀ a, ¬ P a → M a a)
    (hchanged : ∀ a f b, R a f → S a f b → M a b) {new : List α}
    (h : List.Forall₂ R (old.filter fun a => P a) findings) (hnew : Follows P S old findings new) :
    List.Forall₂ M old new := by
  -- The findings are used up by the reported members, so both walks over the old list go together.
  induction hnew with
  | nil => exact .nil
  | kept ha _ ih =>
      rw [List.filter_cons_of_neg (by simpa using ha)] at h
      exact .cons (hkept _ ha) (ih h)
  | changed ha hb _ ih =>
      rw [List.filter_cons_of_pos (by simpa using ha)] at h
      cases h with
      | cons hf h => exact .cons (hchanged _ _ _ hf hb) (ih h)

end follows

end EntityConventions
