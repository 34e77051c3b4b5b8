import EntityConventions.Proofs.Names
import EntityConventions.Proofs.RuleReading
import Mathlib.Logic.Relation

/-! # The shape of options does not matter

The options of an attribute may be written as named arguments, as the items of positional arrays,
or as a mixture.  `Argument.Reshape` lists the single changes of shape: to gather a run of named
arguments in one array, to cut an array in two, and to add an argument or an item that carries no
option.  Each of them leaves the sequence of option keys with their lines alone
(`Argument.Reshape.optionKeys_eq`), and so does any chain of them, in both directions.

The check of ranges looks at one attribute at a time, and at nothing of its arguments but that
sequence (`RangeMessages.verdict_congr`).  Which keys occur decides whether there is a finding, the
last message for a bound decides where (`RangeMessages.findings_by_optionKeys`). -/

namespace EntityConventions

/-! ### Shapes -/

/-- The option that an item of an array carries. -/
def Item.optionKey? (item : Item Expr) : Option OptionKey :=
  item.stringKey?.map fun key => ⟨key, item.line⟩

/-- An item has the key and the line of a named argument. -/
def Item.Restates (item : Item Expr) (arg : Argument) : Prop :=
  ∃ key line, arg.name = some key ∧ item.key = some (.string key line) ∧ item.line = arg.line

namespace Argument

/-- The options that an argument carries. -/
def optionKeys (arg : Argument) : List OptionKey :=
  ((OptionShape.ofArgument? arg).map OptionShape.keys).getD []

/-- One change of the shape of options. -/
inductive Reshape : List Argument → List Argument → Prop
  | gather {items : List (Item Expr)} {run : List Argument} (before after : List Argument)
      (line argLine : Nat) (h : List.Forall₂ Item.Restates items run) :
      Reshape (before ++ run ++ after) (before ++ ⟨none, .array items line, argLine⟩ :: after)
  | split (before after : List Argument) (items items' : List (Item Expr))
      (line argLine line₁ argLine₁ line₂ argLine₂ : Nat) :
      Reshape (before ++ ⟨none, .array (items ++ items') line, argLine⟩ :: after)
        (before ++ ⟨none, .array items line₁, argLine₁⟩ ::
          ⟨none, .array items' line₂, argLine₂⟩ :: after)
  | addArgument {arg : Argument} (before after : List Argument) (hname : arg.name = none)
      (hvalue : ∀ items line, arg.value ≠ .array items line) :
      Reshape (before ++ after) (before ++ arg :: after)
  | addItem {item : Item Expr} (before after : List Argument) (items items' : List (Item Expr))
      (line argLine : Nat) (hkey : ∀ key keyLine, item.key ≠ some (.string key keyLine)) :
      Reshape (before ++ ⟨none, .array (items ++ items') line, argLine⟩ :: after)
        (before ++ ⟨none, .array (items ++ item :: items') line, argLine⟩ :: after)

theorem optionKeys_array (items : List (Item Expr)) (line argLine : Nat) :
    optionKeys ⟨none, .array items line, argLine⟩ = items.filterMap Item.optionKey? :=
  rfl

theorem optionKeys_named {arg : Argument} {key : String} (h : arg.name = some key) :
    arg.optionKeys = [⟨key, arg.line⟩] := by
  obtain ⟨name, value, line⟩ := arg
  obtain rfl : name = some key := h
  rfl

theorem optionKeys_scalar {arg : Argument} (hname : arg.name = none)
    (hvalue : ∀ items line, arg.value ≠ .array items line) : arg.optionKeys = [] := by
  obtain ⟨name, value, line⟩ := arg
  obtain rfl : name = none := hname
  cases value with
  | array items itemsLine => exact absurd rfl (hvalue items itemsLine)
  | _ => rfl

end Argument

namespace Item

theorem optionKey?_of_not_string {item : Item Expr}
    (h : ∀ key line, item.key ≠ some (.string key line)) : item.optionKey? = none := by
  obtain ⟨key?, value, line⟩ := item
  cases key? with
  | none => rfl
  | some key =>
      cases key with
      | string text textLine => exact absurd rfl (h text textLine)
      | _ => rfl

/-- Items carry the options of the named arguments that they restate. -/
theorem filterMap_optionKey?_of_restates {items : List (Item Expr)} {run : List Argument}
    (h : List.Forall₂ Restates items run) :
    items.filterMap optionKey? = run.flatMap Argument.optionKeys := by
  induction h with
  | nil => rfl
  | @cons item arg items run hitem _ ih =>
      obtain ⟨key, line, hname, hkey, hline⟩ := hitem
      have hoption : item.optionKey? = some ⟨key, arg.line⟩ := by
        simp [optionKey?, stringKey?, hkey, Expr.string?, hline]
      rw [List.filterMap_cons_some hoption, List.flatMap_cons, Argument.optionKeys_named hname, ih,
        List.singleton_append]

end Item

/-- One change of shape leaves the options alone. -/
theorem Argument.Reshape.optionKeys_eq {args args' : List Argument} (h : Reshape args args') :
    args.flatMap optionKeys = args'.flatMap optionKeys := by
  cases h with
  | gather before after line argLine hrun =>
      rw [List.flatMap_append, List.flatMap_append, List.flatMap_append, List.flatMap_cons,
        optionKeys_array, Item.filterMap_optionKey?_of_restates hrun, List.append_assoc]
  | split before after items items' =>
      simp only [List.flatMap_append, List.flatMap_cons, optionKeys_array, List.filterMap_append,
        List.append_assoc]
  | addArgument before after hname hvalue =>
      rw [List.flatMap_append, List.flatMap_append, List.flatMap_cons,
        optionKeys_scalar hname hvalue, List.nil_append]
  | addItem before after items items' line argLine hkey =>
      simp only [List.flatMap_append, List.flatMap_cons, optionKeys_array, List.filterMap_append,
        List.filterMap_cons_none (Item.optionKey?_of_not_string hkey)]

/-- Nor does any chain of changes, made or taken back, touch the options. -/
theorem Argument.optionKeys_eq_of_eqvGen {args args' : List Argument}
    (h : Relation.EqvGen Reshape args args') :
    args.flatMap optionKeys = args'.flatMap optionKeys := by
  induction h with
  | rel _ _ hstep => exact hstep.optionKeys_eq
  | refl _ => rfl
  | symm _ _ _ ih => exact ih.symm
  | trans _ _ _ _ _ ih ih' => exact ih.trans ih'

namespace Attribute

theorem optionKeys_eq_flatMap (a : Attribute) :
    a.optionKeys = a.args.flatMap Argument.optionKeys := by
  unfold optionKeys optionShapes
  induction a.args with
  | nil => rfl
  | cons arg args ih =>
      rw [List.flatMap_cons, ← ih, Argument.optionKeys]
      cases h : OptionShape.ofArgument? arg with
      | none => rw [List.filterMap_cons_none h]; rfl
      | some shape => rw [List.filterMap_cons_some h]; rfl

/-- Attributes with the same name, line and options. -/
structure SameOptions (a b : Attribute) : Prop where
  name : a.name = b.name
  line : a.line = b.line
  optionKeys : a.optionKeys = b.optionKeys

/-- Attributes that differ by a chain of changes of the shape of options, made or taken back. -/
structure Reshaped (a b : Attribute) : Prop where
  name : a.name = b.name
  line : a.line = b.line
  args : Relation.EqvGen Argument.Reshape a.args b.args

theorem Reshaped.sameOptions {a b : Attribute} (h : a.Reshaped b) : a.SameOptions b where
  name := h.name
  line := h.line
  optionKeys := by
    rw [optionKeys_eq_flatMap, optionKeys_eq_flatMap]
    exact Argument.optionKeys_eq_of_eqvGen h.args

end Attribute

/-- Properties whose attributes are related one by one, and that are otherwise the same. -/
structure Property.Related (R : Attribute → Attribute → Prop) (p q : Property) : Prop where
  name : p.name = q.name
  line : p.line = q.line
  attributes : List.Forall₂ R p.attributes q.attributes

theorem Property.Related.imp {R S : Attribute → Attribute → Prop} {p q : Property}
    (h : p.Related R q) (hRS : ∀ a b, R a b → S a b) : p.Related S q :=
  ⟨h.name, h.line, h.attributes.imp hRS⟩

/-! ### Ranges -/

namespace RangeMessages

/-- Both bounds are set, and a message for one of them. -/
def Conflicts (keys : List String) : Prop :=
  "min" ∈ keys ∧ "max" ∈ keys ∧ ("minMessage" ∈ keys ∨ "maxMessage" ∈ keys)

theorem isBoundMessage_iff (key : String) :
    isBoundMessage key = true ↔ key = "minMessage" ∨ key = "maxMessage" := by
  rw [isBoundMessage, Bool.or_eq_true, beq_iff_eq, beq_iff_eq]

theorem isConflicting_iff (keys : List OptionKey) :
    isConflicting keys = true ↔ Conflicts (keys.map OptionKey.key) := by
  simp only [isConflicting, Conflicts, Bool.and_eq_true, List.any_eq_true, beq_iff_eq,
    isBoundMessage_iff, List.mem_map, and_assoc, and_or_left, exists_or]

theorem isConflicting_perm {keys keys' : List OptionKey} (h : keys'.Perm keys) :
    isConflicting keys' = isConflicting keys := by
  rw [isConflicting, isConflicting, h.any_eq, h.any_eq, h.any_eq]

theorem messageLine?_eq_some_iff (keys : List OptionKey) (line : Nat) :
    messageLine? keys = some line ↔
      ∃ k, IsFirst (fun k => k.key = "minMessage" ∨ k.key = "maxMessage") keys.reverse k ∧
        k.line = line := by
  rw [messageLine?, Option.map_eq_some_iff]
  simp only [find?_eq_some_iff_isFirst fun k : OptionKey => isBoundMessage_iff k.key]

theorem exists_messageLine? {keys : List OptionKey} (h : isConflicting keys = true) :
    ∃ line, messageLine? keys = some line := by
  rw [isConflicting, Bool.and_eq_true, List.any_eq_true] at h
  obtain ⟨-, k, hk, hmessage⟩ := h
  rw [messageLine?, ← Option.isSome_iff_exists, Option.isSome_map, List.find?_isSome]
  exact ⟨k, List.mem_reverse.mpr hk, hmessage⟩

/-- What is objected to in one attribute: nothing unless it is a range. -/
def verdict (className : String) (p : Property) (a : Attribute) : List Violation :=
  (if Concept.range.isSpelledBy a.name then rangeViolation? className p a else none).toList

/-- Of an attribute the check reads the name, the line and the options. -/
theorem verdict_congr (className : String) {p q : Property} (hpq : p.name = q.name)
    {a b : Attribute} (h : a.SameOptions b) : verdict className p a = verdict className q b := by
  simp only [verdict, rangeViolation?, h.name, h.line, h.optionKeys, hpq]

theorem length_verdict (className : String) (p : Property) {a : Attribute}
    (ha : Concept.range.isSpelledBy a.name = true) :
    (verdict className p a).length = if isConflicting a.optionKeys then 1 else 0 := by
  rw [verdict, if_pos ha, rangeViolation?]
  split <;> rfl

theorem line_of_mem_verdict {className : String} {p : Property} {a : Attribute} {v : Violation}
    (hv : v ∈ verdict className p a) :
    ∃ k, IsFirst (fun k => k.key = "minMessage" ∨ k.key = "maxMessage") a.optionKeys.reverse k ∧
      v.line = if k.line = 0 then a.line else k.line := by
  unfold verdict rangeViolation? at hv
  split at hv
  · dsimp only at hv
    split at hv
    · rename_i hconflicting
      -- A conflict needs a message, so the search from the end finds one.
      obtain ⟨line, hline⟩ := exists_messageLine? hconflicting
      obtain ⟨k, hk, rfl⟩ := (messageLine?_eq_some_iff _ _).mp hline
      refine ⟨k, hk, ?_⟩
      rw [List.mem_singleton.mp hv, hline, bestLine_cons, bestLine_singleton]
    · cases hv
  · cases hv

/-- The check looks at one attribute at a time. -/
theorem violations_eq_flatMap {ctx : ClassContext} (h : ctx.declaration.kind = .regular) :
    violations ctx = ctx.declaration.properties.flatMap fun p =>
      p.attributes.flatMap (verdict ctx.className p) := by
  rw [violations, if_pos h, ClassDeclaration.attributesSpelling, List.filterMap_flatMap]
  refine List.flatMap_congr fun p _ => ?_
  rw [List.filterMap_map, List.filterMap_filter, List.filterMap_eq_flatMap_toList]
  rfl

section findings

variable {ctx : ClassContext} (hkind : ctx.declaration.kind = .regular) {rule : Rule}
  (hcheck : rule.check = .rangeMessages)
include hkind hcheck

theorem findings_withProperties (properties : List Property) :
    rule.findings (ctx.withProperties properties) =
      properties.flatMap fun p => p.attributes.flatMap fun a =>
        (verdict ctx.className p a).map (rule.finding ctx.path) := by
  rw [Rule.findings, hcheck, Check.violations, violations_eq_flatMap (by exact hkind),
    List.map_flatMap]
  simp only [List.map_flatMap, ClassContext.properties_withProperties,
    ClassContext.className_withProperties, ClassContext.path_withProperties]

/-- Properties whose attributes have the same options lead to the same findings. -/
theorem findings_congr {properties : List Property}
    (h : List.Forall₂ (Property.Related Attribute.SameOptions) ctx.declaration.properties
      properties) :
    rule.findings (ctx.withProperties properties) = rule.findings ctx := by
  have hown := findings_withProperties hkind hcheck ctx.declaration.properties
  rw [findings_withProperties hkind hcheck properties]
  refine Eq.trans ?_ hown.symm
  apply (flatMap_eq_of_forall₂ h ?_).symm
  intro p q hpq
  apply flatMap_eq_of_forall₂ hpq.attributes
  intro a b hab
  rw [verdict_congr ctx.className hpq.name hab]

end findings

/-- **Ranges are judged by their option keys.**  The findings about a class are those about its
attributes, one by one.  They stay the same if the options of attributes are given another shape,
or whenever the sequences of option keys with their lines stay the same.  A range has one finding
if both bounds and a message for one of them are among its keys, in any order, and none if not; the
line is that of the last such message, or the one of the attribute if that is not known. -/
theorem findings_by_optionKeys {ctx : ClassContext} (hkind : ctx.declaration.kind = .regular)
    (severity : Severity) :
    let rule : Rule := ⟨.rangeMessages, severity⟩
    let about (p : Property) (a : Attribute) : List Finding :=
      rule.findings (ctx.withProperties [{ p with attributes := [a] }])
    rule.findings ctx =
        ctx.declaration.properties.flatMap (fun p => p.attributes.flatMap (about p)) ∧
      (∀ properties,
        List.Forall₂ (Property.Related Attribute.Reshaped) ctx.declaration.properties properties →
          rule.findings (ctx.withProperties properties) = rule.findings ctx) ∧
      (∀ properties,
        List.Forall₂ (Property.Related Attribute.SameOptions) ctx.declaration.properties properties →
          rule.findings (ctx.withProperties properties) = rule.findings ctx) ∧
      ∀ (p : Property) (a : Attribute), Concept.range.isSpelledBy a.name = true →
        ((about p a).length = 1 ↔ Conflicts (a.optionKeys.map OptionKey.key)) ∧
        (¬ Conflicts (a.optionKeys.map OptionKey.key) → about p a = []) ∧
        (∀ b : Attribute, b.name = a.name → b.optionKeys.Perm a.optionKeys →
          (about p b).length = (about p a).length) ∧
        ∀ f ∈ about p a, ∃ k,
          IsFirst (fun k => k.key = "minMessage" ∨ k.key = "maxMessage") a.optionKeys.reverse k ∧
            f.line = if k.line = 0 then a.line else k.line := by
  intro rule about
  have habout : ∀ p a, about p a = (verdict ctx.className p a).map (rule.finding ctx.path) := by
    intro p a
    show rule.findings _ = _
    rw [findings_withProperties hkind rfl, List.flatMap_singleton, List.flatMap_singleton]
    rfl
  refine ⟨?_, ?_, fun properties h => findings_congr hkind rfl h, ?_⟩
  · refine (findings_withProperties hkind rfl ctx.declaration.properties).trans ?_
    exact List.flatMap_congr fun p _ => List.flatMap_congr fun a _ => (habout p a).symm
  · intro properties h
    exact findings_congr hkind rfl (h.imp fun p q hpq => hpq.imp fun a b hab => hab.sameOptions)
  · intro p a ha
    have hlength : (about p a).length = if isConflicting a.optionKeys then 1 else 0 := by
      rw [habout, List.length_map, length_verdict ctx.className p ha]
    rw [← isConflicting_iff]
    refine ⟨?_, ?_, ?_, ?_⟩
    · rw [hlength]
      split <;> simp_all
    · intro hno
      rw [← List.length_eq_zero_iff, hlength, if_neg hno]
    · intro b hname hperm
      have hb : Concept.range.isSpelledBy b.name = true := hname ▸ ha
      rw [hlength, habout, List.length_map, length_verdict ctx.className p hb,
        isConflicting_perm hperm]
    · intro f hf
      rw [habout] at hf
      obtain ⟨v, hv, rfl⟩ := List.mem_map.mp hf
      exact line_of_mem_verdict hv

/-- A range with named arguments, and a message on an unknown line. -/
def namedRange : Attribute :=
  ⟨"Assert\\Range", 12, [.named "min" (.int 1 13), .named "max" (.int 10 14),
    .named "maxMessage" (.string "too big" 0)]⟩

/-- The same options, the bounds in an array, among an argument and an item without options. -/
def packedRange : Attribute :=
  ⟨"Assert\\Range", 12, [.positional (.other none 12),
    .positional (.array [.keyed "min" (.int 2 13), ⟨none, .int 5 13, 13⟩,
      .keyed "max" (.int 9 14)] 12),
    .named "maxMessage" (.string "too big" 0)]⟩

theorem reshaped_packedRange : namedRange.Reshaped packedRange where
  name := rfl
  line := rfl
  args := by
    have hmin : Item.Restates (.keyed "min" (.int 2 13)) (.named "min" (.int 1 13)) :=
      ⟨"min", 13, rfl, rfl, rfl⟩
    have hmax : Item.Restates (.keyed "max" (.int 9 14)) (.named "max" (.int 10 14)) :=
      ⟨"max", 14, rfl, rfl, rfl⟩
    have hgather := Argument.Reshape.gather [] [.named "maxMessage" (.string "too big" 0)] 12 12
      (.cons hmin (.cons hmax .nil))
    have hitem := @Argument.Reshape.addItem ⟨none, .int 5 13, 13⟩ []
      [.named "maxMessage" (.string "too big" 0)] [.keyed "min" (.int 2 13)]
      [.keyed "max" (.int 9 14)] 12 12 (fun _ _ => nofun)
    have hargument := @Argument.Reshape.addArgument (.positional (.other none 12)) []
      (packedRange.args.drop 1) rfl (fun _ _ => nofun)
    exact .trans _ _ _ (.rel _ _ hgather) (.trans _ _ _ (.rel _ _ hitem) (.rel _ _ hargument))

/-- A class with one range. -/
def quantity : ClassContext where
  declaration := (ClassDeclaration.empty "Quantity" .regular 5).addProperty
    ⟨"amount", 12, [namedRange]⟩
  reflection := Reflection.ofName "App\\Quantity"
  scope := ⟨none, .empty⟩
  classifier := .conventions
  path := ⟨"src/Quantity.php"⟩

theorem findings_by_optionKeys_packedRange :
    let rule : Rule := ⟨.rangeMessages, .error⟩
    quantity.declaration.kind = .regular ∧ namedRange.Reshaped packedRange ∧
      rule.findings (quantity.withProperties [⟨"amount", 12, [packedRange]⟩]) =
        rule.findings quantity ∧
      Concept.range.isSpelledBy packedRange.name = true ∧
      ((rule.findings (quantity.withProperties [⟨"amount", 12, [packedRange]⟩])).length = 1 ↔
        Conflicts (packedRange.optionKeys.map OptionKey.key)) ∧
      (rule.findings quantity).map Finding.line = [12] := by
  intro rule
  have hkind : quantity.declaration.kind = .regular := rfl
  have hspelled : Concept.range.isSpelledBy packedRange.name = true := by decide +kernel
  obtain ⟨-, hreshaped, -, hrange⟩ := findings_by_optionKeys hkind .error
  refine ⟨hkind, reshaped_packedRange, ?_, hspelled,
    (hrange ⟨"amount", 12, []⟩ packedRange hspelled).1, by decide +kernel⟩
  exact hreshaped _ (.cons ⟨rfl, rfl, .cons reshaped_packedRange .nil⟩ .nil)

end RangeMessages

end EntityConventions
