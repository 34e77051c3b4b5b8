import EntityConventions.Proofs.Names
import EntityConventions.Proofs.Presets
import EntityConventions.Proofs.RuleReading

/-! # Columns without a comment

`Attribute.HasComment` says what the check accepts: of the arguments called `options` the first one
counts, it has to be a literal array, and of the items with the key `comment` again the first one
counts; its value has to say something (`Expr.SaysSomething`), which only a text of blanks does not.

The parts of the check answer to the parts of this (`hasComment_iff`), so it objects to the columns
without a comment, once to each and in the order of declaration
(`ColumnComment.findings_uncommented`).  What it says, and where, depends on whether there are
options at all (`ColumnComment.IsAbout`). -/

namespace EntityConventions

namespace Text.Blank

theorem isBlankText_eq_false_iff (text : String) :
    isBlankText text = false ↔ ∃ c ∈ text.toList, isBlank c = false := by
  rw [isBlankText, List.all_eq_false]
  simp only [Bool.not_eq_true]

end Text.Blank

/-- Any expression says something, unless it is a text of blanks. -/
def Expr.SaysSomething (e : Expr) : Prop :=
  ∀ text line, e = .string text line → ∃ c ∈ text.toList, Text.Blank.isBlank c = false

/-- The first options are a literal array, and the first comment in it says something. -/
def Attribute.HasComment (a : Attribute) : Prop :=
  ∃ options items line item,
    a.IsFirstNamed "options" options ∧ options.value = .array items line ∧
      IsFirst (fun i => ∃ keyLine, i.key = some (.string "comment" keyLine)) items item ∧
      item.value.SaysSomething

theorem Item.stringKey?_eq_some_iff (item : Item Expr) (key : String) :
    item.stringKey? = some key ↔ ∃ line, item.key = some (.string key line) := by
  rw [stringKey?, Option.bind_eq_some_iff]
  constructor
  · rintro ⟨e, he, hkey⟩
    cases e with
    | string text line =>
        obtain rfl : text = key := Option.some.inj hkey
        exact ⟨line, he⟩
    | _ => cases hkey
  · rintro ⟨line, hline⟩
    exact ⟨_, hline, rfl⟩

theorem findKey?_eq_some_iff (items : List (Item Expr)) (key : String) (item : Item Expr) :
    findKey? items key = some item ↔
      IsFirst (fun i => ∃ line, i.key = some (.string key line)) items item :=
  find?_eq_some_iff_isFirst fun i => beq_iff_eq.trans (i.stringKey?_eq_some_iff key)

theorem Expr.items?_eq_some_iff (e : Expr) (items : List (Item Expr)) :
    e.items? = some items ↔ ∃ line, e = .array items line := by
  cases e <;> simp [items?]

namespace ColumnComment

theorem isComment_iff (e : Expr) : isComment e = true ↔ e.SaysSomething := by
  cases e with
  | string text line =>
      rw [isComment, Bool.not_eq_true', Text.Blank.isBlankText_eq_false_iff]
      constructor
      · intro h text' line' heq
        cases heq
        exact h
      · intro h
        exact h text line rfl
  | _ => exact iff_of_true rfl nofun

theorem hasComment_iff (e : Expr) :
    hasComment e = true ↔ ∃ items line item, e = .array items line ∧
      IsFirst (fun i => ∃ keyLine, i.key = some (.string "comment" keyLine)) items item ∧
      item.value.SaysSomething := by
  have hfind : ∀ item, (e.items?.bind fun items => findKey? items "comment") = some item ↔
      ∃ items line, e = .array items line ∧
        IsFirst (fun i => ∃ keyLine, i.key = some (.string "comment" keyLine)) items item := by
    intro item
    simp only [Option.bind_eq_some_iff, Expr.items?_eq_some_iff, findKey?_eq_some_iff]
    tauto
  unfold hasComment
  split
  · rename_i item hitem
    rw [isComment_iff]
    constructor
    · intro h
      obtain ⟨items, line, he, hfirst⟩ := (hfind item).mp hitem
      exact ⟨items, line, item, he, hfirst, h⟩
    · rintro ⟨items, line, item', he, hfirst, h⟩
      have hitem' := (hfind item').mpr ⟨items, line, he, hfirst⟩
      exact Option.some.inj (hitem.symm.trans hitem') ▸ h
  · rename_i hitem
    refine iff_of_false Bool.false_ne_true ?_
    rintro ⟨items, line, item, he, hfirst, -⟩
    have hitem' := (hfind item).mpr ⟨items, line, he, hfirst⟩
    cases hitem.symm.trans hitem'

theorem hasComment_iff_attribute (a : Attribute) :
    ((a.namedArg? "options").any fun options => hasComment options.value) = true ↔
      a.HasComment := by
  simp only [Option.any_eq_true, Attribute.namedArg?_eq_some_iff, hasComment_iff]
  constructor
  · rintro ⟨options, hoptions, items, line, item, hrest⟩
    exact ⟨options, items, line, item, hoptions, hrest⟩
  · rintro ⟨options, items, line, item, hoptions, hrest⟩
    exact ⟨options, hoptions, items, line, item, hrest⟩

instance : DecidablePred Attribute.HasComment :=
  fun a => decidable_of_iff _ (hasComment_iff_attribute a)

/-! ### Findings -/

theorem columnViolation?_eq_none_iff (className : String) (p : Property) (a : Attribute) :
    columnViolation? className p a = none ↔ a.HasComment := by
  rw [← hasComment_iff_attribute]
  unfold columnViolation?
  cases a.namedArg? "options" with
  | none => simp
  | some options => cases h : hasComment options.value <;> simp [h]

/-- What a finding says about a column without a comment, and where: that there are no options, or
that the first ones have no comment. -/
inductive IsAbout (p : Property) (a : Attribute) (f : Finding) : Prop
  | missingOptions (hname : ∃ rest, f.message = "Property $" ++ p.name ++ rest)
      (hoptions : ∀ arg ∈ a.args, arg.name ≠ some "options")
      (hidentifier : f.identifier = "doctrine.column.comment.missingOptions")
      (hline : f.line = a.line)
  | missingKey {options : Argument} (hname : ∃ rest, f.message = "Property $" ++ p.name ++ rest)
      (hoptions : a.IsFirstNamed "options" options)
      (hidentifier : f.identifier = "doctrine.column.comment.missingKey")
      (hline : f.line = if options.line = 0 then a.line else options.line)

theorem isAbout_of_columnViolation? {className : String} {p : Property} {a : Attribute}
    {v : Violation} (h : columnViolation? className p a = some v) (rule : Rule) (path : Path) :
    IsAbout p a (rule.finding path v) := by
  unfold columnViolation? at h
  split at h
  · rename_i hnone
    cases h
    refine .missingOptions ?_ ((a.namedArg?_eq_none_iff _).mp hnone) rfl rfl
    simp only [Rule.finding, String.append_assoc]
    exact ⟨_, rfl⟩
  · rename_i options hoptions
    split at h
    · cases h
    · cases h
      refine .missingKey ?_ ((a.namedArg?_eq_some_iff _ _).mp hoptions) rfl ?_
      · simp only [Rule.finding, String.append_assoc]
        exact ⟨_, rfl⟩
      · show bestLine [some options.line, some a.line] = _
        rw [bestLine_cons, bestLine_singleton]

/-- **Exactly the columns without a comment are found.**  Nothing is found about a class that is no
entity, nor in a test file if these are left out.  About any other class there is one finding for
each attribute of a property that has one of the three spellings of a column, a leading separator
aside, and no comment, in the order of declaration. -/
theorem findings_uncommented (ctx : ClassContext) (skipTests : Bool) (severity : Severity) :
    let rule : Rule := ⟨.columnComment skipTests, severity⟩
    (ctx.isEntity = false ∨ skipTests = true ∧ ctx.reflection.InTests → rule.findings ctx = []) ∧
      (ctx.isEntity = true ∧ ¬ (skipTests = true ∧ ctx.reflection.InTests) →
        List.Forall₂ (fun x f => IsAbout x.1 x.2 f)
          (ctx.declaration.propertyAttributes.filter fun x =>
            x.2.SpellsMapping "Column" ∧ ¬ x.2.HasComment)
          (rule.findings ctx)) := by
  intro rule
  have hskip : (skipTests && ctx.inTestFile) = true ↔
      skipTests = true ∧ ctx.reflection.InTests := by
    rw [Bool.and_eq_true, ctx.inTestFile_iff]
  constructor
  · intro h
    show (violations skipTests ctx).map _ = []
    unfold violations
    rcases h with hentity | htests
    · simp [hentity]
    · rw [if_pos (hskip.mpr htests)]
      rfl
  · rintro ⟨hentity, htests⟩
    show List.Forall₂ _ _ ((violations skipTests ctx).map (rule.finding ctx.path))
    rw [violations, if_neg (mt hskip.mp htests), if_pos hentity, List.forall₂_map_right_iff,
      ClassDeclaration.attributesSpelling_eq_filter]
    apply forall₂_filterMap_filter
    · exact fun x => Concept.isSpelledBy_iff_spellsMapping (by decide) x.2
    · rintro ⟨p, a⟩
      rw [columnViolation?_eq_none_iff, not_not]
    · rintro ⟨p, a⟩ v hv
      exact isAbout_of_columnViolation? hv rule ctx.path

/-- A property whose first column has no options, whose second has a blank comment in front of
another one, and whose third has a comment; the key is no column. -/
def remarks : Property :=
  ⟨"remarks", 20, [.bare "\\ORM\\Column" 20, .bare "ORM\\Id" 21,
    ⟨"Column", 22, [.named "options" (.array [.keyed "comment" (.string " \t" 0),
      .keyed "comment" (.string "remarks" 0)] 0)]⟩,
    ⟨"Column", 23, [.named "options" (.array [.keyed "comment" (.other none 23)] 23),
      .named "options" (.int 0 24)]⟩]⟩

/-- An entity with that property. -/
def remarked : ClassContext where
  declaration := (ClassDeclaration.empty "Day" .regular 10).addProperty remarks
  reflection := ((Reflection.ofName "App\\Day").addAttribute (.bare "ORM\\Entity" 9)).setFile
    ⟨"src/mytests/Day.php"⟩
  scope := ⟨none, .empty⟩
  classifier := .conventions
  path := ⟨"src/mytests/Day.php"⟩

theorem findings_uncommented_remarked :
    let rule : Rule := ⟨.columnComment true, .warning⟩
    remarked.isEntity = true ∧ ¬ (true = true ∧ remarked.reflection.InTests) ∧
      (rule.findings remarked).map Finding.line = [20, 22] ∧
      List.Forall₂ (fun x f => IsAbout x.1 x.2 f)
        (remarked.declaration.propertyAttributes.filter fun x =>
          x.2.SpellsMapping "Column" ∧ ¬ x.2.HasComment)
        (rule.findings remarked) := by
  intro rule
  have hentity : remarked.isEntity = true := by decide +kernel
  have htests : ¬ (true = true ∧ remarked.reflection.InTests) := by
    rw [← remarked.inTestFile_iff]
    decide +kernel
  exact ⟨hentity, htests, by decide +kernel,
    (findings_uncommented remarked true .warning).2 ⟨hentity, htests⟩⟩

end ColumnComment

end EntityConventions
