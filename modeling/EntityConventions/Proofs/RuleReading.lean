import EntityConventions.Rule
import Mathlib.Data.List.Basic
import Mathlib.Data.List.Forall2

/-! # What rules read

Several checks look for the first member of a list with some property (`IsFirst`), such as the first
argument with some name (`Attribute.IsFirstNamed`), and for the first line that is known
(`IsFirstKnown`).  Some ask for a class by its name, which is given with the rule or by an option of
it (`Rule.AsksFor`).  Some object to attributes one by one, to each at most once, in the order in
which they are declared (`forall₂_filterMap`).  Some look at one property of a class at a time
(`Check.IsByProperty`): their findings about a class are those about the same class with one
property, put together (`Rule.findings_eq_flatMap`). -/

namespace EntityConventions

/-! ### First members -/

/-- The first member of a list that has a property. -/
def IsFirst {α : Type} (p : α → Prop) (l : List α) (a : α) : Prop :=
  ∃ before after, l = before ++ a :: after ∧ p a ∧ ∀ b ∈ before, ¬ p b

theorem find?_eq_some_iff_isFirst {α : Type} {p : α → Prop} {q : α → Bool}
    (hq : ∀ a, q a = true ↔ p a) {l : List α} {a : α} : l.find? q = some a ↔ IsFirst p l a := by
  have hqfalse : ∀ b, (!q b) = true ↔ ¬ p b := by
    intro b
    rw [← hq, Bool.not_eq_true', Bool.not_eq_true]
  simp only [List.find?_eq_some_iff_append, hq, hqfalse]
  constructor
  · rintro ⟨ha, before, after, hl, hbefore⟩
    exact ⟨before, after, hl, ha, hbefore⟩
  · rintro ⟨before, after, hl, ha, hbefore⟩
    exact ⟨ha, before, after, hl, hbefore⟩

theorem exists_isFirst_of_findSome? {α β : Type} {p : α → Prop} {f : α → Option β}
    (hf : ∀ a, f a = none ↔ ¬ p a) {l : List α} {b : β} (h : l.findSome? f = some b) :
    ∃ a, IsFirst p l a ∧ f a = some b := by
  obtain ⟨before, a, after, hl, ha, hbefore⟩ := List.findSome?_eq_some_iff.mp h
  refine ⟨a, ⟨before, after, hl, ?_, fun c hc => (hf c).mp (hbefore c hc)⟩, ha⟩
  by_contra hp
  cases ha.symm.trans ((hf a).mpr hp)

theorem IsFirst.mem {α : Type} {p : α → Prop} {l : List α} {a : α} (h : IsFirst p l a) : a ∈ l := by
  obtain ⟨before, after, rfl, -, -⟩ := h
  exact List.mem_append_right before List.mem_cons_self

theorem IsFirst.holds {α : Type} {p : α → Prop} {l : List α} {a : α} (h : IsFirst p l a) : p a := by
  obtain ⟨-, -, -, ha, -⟩ := h
  exact ha

namespace Attribute

/-- The first argument with a given name. -/
def IsFirstNamed (a : Attribute) (name : String) (arg : Argument) : Prop :=
  IsFirst (fun x => x.name = some name) a.args arg

theorem namedArg?_eq_some_iff (a : Attribute) (name : String) (arg : Argument) :
    a.namedArg? name = some arg ↔ a.IsFirstNamed name arg :=
  find?_eq_some_iff_isFirst fun _ => beq_iff_eq

/-- The first argument with a given name is a text. -/
def HasLiteral (a : Attribute) (name text : String) : Prop :=
  ∃ arg line, a.IsFirstNamed name arg ∧ arg.value = .string text line

theorem namedString?_eq_some_iff (a : Attribute) (name text : String) :
    a.namedString? name = some text ↔ a.HasLiteral name text := by
  have hstring : ∀ e : Expr, e.string? = some text ↔ ∃ line, e = .string text line := by
    intro e
    cases e <;> simp [Expr.string?]
  simp only [namedString?, Option.bind_eq_some_iff, namedArg?_eq_some_iff, hstring, HasLiteral,
    exists_and_left]

theorem namedArg?_eq_none_iff (a : Attribute) (name : String) :
    a.namedArg? name = none ↔ ∀ arg ∈ a.args, arg.name ≠ some name := by
  simp only [namedArg?, List.find?_eq_none, beq_iff_eq, ne_eq]

end Attribute

/-! ### Known lines -/

/-- The first line of some that is known, or zero if none is. -/
def IsFirstKnown (lines : List Nat) (line : Nat) : Prop :=
  IsFirst (0 < ·) lines line ∨ (∀ l ∈ lines, l = 0) ∧ line = 0

theorem isFirstKnown_bestLine_filterMap (candidates : List (Option Nat)) :
    IsFirstKnown (candidates.filterMap id) (bestLine candidates) := by
  rw [bestLine]
  cases h : (candidates.filterMap id).find? (0 < ·) with
  | none =>
      refine Or.inr ⟨fun l hl => ?_, rfl⟩
      simpa using List.find?_eq_none.mp h l hl
  | some line => exact Or.inl ((find?_eq_some_iff_isFirst fun _ => decide_eq_true_iff).mp h)

theorem isFirstKnown_bestLine (lines : List Nat) :
    IsFirstKnown lines (bestLine (lines.map some)) := by
  have hlines : (lines.map some).filterMap id = lines := by simp
  have h := isFirstKnown_bestLine_filterMap (lines.map some)
  rwa [hlines] at h

theorem bestLine_cons (line : Nat) (rest : List (Option Nat)) :
    bestLine (some line :: rest) = if line = 0 then bestLine rest else line := by
  unfold bestLine
  rw [List.filterMap_cons_some (id_eq (some line))]
  by_cases hline : line = 0
  · rw [if_pos hline, List.find?_cons_of_neg (by simp [hline])]
  · rw [if_neg hline, List.find?_cons_of_pos (by simpa using Nat.pos_of_ne_zero hline)]
    rfl

theorem bestLine_singleton (line : Nat) : bestLine [some line] = line := by
  rw [bestLine_cons]
  split
  · rename_i hline
    exact hline.symm
  · rfl

/-! ### Objections in the order of declaration -/

/-- If a search objects exactly to the members with some property, then it finds one objection to
each of these, in their order. -/
theorem forall₂_filterMap {α β : Type} {P : α → Prop} [DecidablePred P] {R : α → β → Prop}
    {f : α → Option β} (hnone : ∀ a, f a = none ↔ ¬ P a) (hsome : ∀ a b, f a = some b → R a b)
    (l : List α) : List.Forall₂ R (l.filter fun a => P a) (l.filterMap f) := by
  induction l with
  | nil => exact .nil
  | cons a l ih =>
      cases hf : f a with
      | none =>
          have ha : ¬ P a := (hnone a).mp hf
          rw [List.filter_cons_of_neg (by simpa using ha), List.filterMap_cons_none hf]
          exact ih
      | some b =>
          have ha : P a := by
            by_contra ha
            cases hf.symm.trans ((hnone a).mpr ha)
          rw [List.filter_cons_of_pos (by simpa using ha), List.filterMap_cons_some hf]
          exact .cons (hsome a b hf) ih

/-- The same for a search among the members that pass a test. -/
theorem forall₂_filterMap_filter {α β : Type} {S P : α → Prop} [DecidablePred S] [DecidablePred P]
    {R : α → β → Prop} {q : α → Bool} {f : α → Option β} (hq : ∀ a, q a = true ↔ S a)
    (hnone : ∀ a, f a = none ↔ ¬ P a) (hsome : ∀ a b, f a = some b → R a b) (l : List α) :
    List.Forall₂ R (l.filter fun a => S a ∧ P a) ((l.filter q).filterMap f) := by
  rw [List.filterMap_filter]
  apply forall₂_filterMap
  · intro a
    rw [ite_eq_right_iff, hq, hnone, not_and]
  · intro a b hb
    split at hb
    · exact hsome a b hb
    · cases hb

theorem exists_mem_of_forall₂ {α β : Type} {R : α → β → Prop} {l : List α} {m : List β}
    (h : List.Forall₂ R l m) {b : β} (hb : b ∈ m) : ∃ a ∈ l, R a b := by
  induction h with
  | nil => cases hb
  | @cons a _ _ _ hab _ ih =>
      rcases List.mem_cons.mp hb with rfl | hb
      · exact ⟨a, List.mem_cons_self, hab⟩
      · obtain ⟨c, hc, hcb⟩ := ih hb
        exact ⟨c, List.mem_cons_of_mem a hc, hcb⟩

namespace ClassDeclaration

/-- The attributes of all properties, each with its property, as they are declared. -/
def propertyAttributes (d : ClassDeclaration) : List (Property × Attribute) :=
  d.properties.flatMap fun p => p.attributes.map fun a => (p, a)

theorem attributesSpelling_eq_filter (d : ClassDeclaration) (c : Concept) :
    d.attributesSpelling c = d.propertyAttributes.filter fun x => c.isSpelledBy x.2.name := by
  rw [attributesSpelling, propertyAttributes, List.filter_flatMap]
  refine List.flatMap_congr fun p _ => ?_
  rw [List.filter_map]
  rfl

end ClassDeclaration

/-! ### Classes that rules ask for -/

namespace Rule

/-- The class that a rule asks for: the one that its check was made with, or the one that an option
of the rule names. -/
inductive AsksFor (check : String → Check) (option : String) : Rule → String → Prop
  | made (name : String) (severity : Severity) : AsksFor check option ⟨check name, severity⟩ name
  | configured (name : String) (severity : Severity) (c : RuleConfig) :
      AsksFor check option (configure ⟨check name, severity⟩ c) (c.getString option name)

/-- The check of such a rule is made with the name of that class, which may have lost a leading
separator. -/
theorem AsksFor.exists_check {check : String → Check} {option : String} {rule : Rule}
    {name : String} (h : AsksFor check option rule name)
    (hconfigure : ∀ c name, Check.configure c (check name) =
      check (Name.trimLeading (c.getString option name))) :
    ∃ name', rule.check = check name' ∧ (name' = name ∨ name' = Name.trimLeading name) := by
  cases h with
  | made name severity => exact ⟨name, rfl, Or.inl rfl⟩
  | configured name severity c => exact ⟨_, hconfigure c name, Or.inr rfl⟩

end Rule

/-! ### One property at a time -/

namespace ClassContext

/-- The class under check, with other properties. -/
def withProperties (ctx : ClassContext) (properties : List Property) : ClassContext :=
  { ctx with declaration.properties := properties }

section withProperties

variable (ctx : ClassContext) (ps : List Property)

@[simp]
theorem properties_withProperties : (ctx.withProperties ps).declaration.properties = ps := rfl

@[simp]
theorem kind_withProperties : (ctx.withProperties ps).declaration.kind = ctx.declaration.kind := rfl

@[simp]
theorem className_withProperties : (ctx.withProperties ps).className = ctx.className := rfl

@[simp]
theorem isEntity_withProperties : (ctx.withProperties ps).isEntity = ctx.isEntity := rfl

@[simp]
theorem path_withProperties : (ctx.withProperties ps).path = ctx.path := rfl

end withProperties

end ClassContext

/-- A check looks at one property at a time. -/
def Check.IsByProperty (check : Check) : Prop :=
  ∀ ctx, check.violations ctx =
    ctx.declaration.properties.flatMap fun p => check.violations (ctx.withProperties [p])

/-- The findings about a class are those about its properties. -/
theorem Rule.findings_eq_flatMap {rule : Rule} (h : rule.check.IsByProperty) (ctx : ClassContext) :
    rule.findings ctx =
      ctx.declaration.properties.flatMap fun p => rule.findings (ctx.withProperties [p]) := by
  rw [findings, h ctx, List.map_flatMap]
  rfl

end EntityConventions
