import EntityConventions.Proofs.Names
import EntityConventions.Proofs.RuleReading

/-! # Repositories that are not named by class constants

An argument for the repository offends (`RepositoryConstant.Offends`) unless its value is a
reference `…::class`, whatever the class.  The check looks for the first argument of an entity
attribute that offends (`findSome?_namedArgs_eq_none_iff`, `exists_isFirst_of_argViolation?`) and
says of its value what `RepositoryConstant.Complains` lists.  So there is one finding for each
entity attribute with an offending argument, wherever that stands among the arguments
(`RepositoryConstant.findings_offending`). -/

namespace EntityConventions.RepositoryConstant

/-- An argument for the repository whose value is no reference `…::class`. -/
def Offends (arg : Argument) : Prop :=
  arg.name = some "repositoryClass" ∧
    ∀ class? line, arg.value ≠ .classConst class? (some "class") line

/-- What is said of the value of an offending argument: of a text, of another constant of a class,
and of anything else. -/
inductive Complains (className : String) : Expr → String → Prop
  | string (value : String) (line : Nat) :
      Complains className (.string value line)
        ("Entity " ++ className ++ " should reference repositoryClass with ClassName::class " ++
          "syntax instead of the string \"" ++ value ++ "\".")
  | constant (class? constant? : Option String) (line : Nat) :
      Complains className (.classConst class? constant? line)
        ("Entity " ++ className ++
          " must use the ::class constant in the repositoryClass argument.")
  | other {e : Expr} (hstring : ∀ value line, e ≠ .string value line)
      (hconstant : ∀ class? constant? line, e ≠ .classConst class? constant? line) :
      Complains className e
        ("Entity " ++ className ++
          " must use ClassName::class syntax in the repositoryClass argument.")

theorem complaint?_eq_none_iff (className : String) (e : Expr) :
    complaint? className e = none ↔ ∃ class? line, e = .classConst class? (some "class") line := by
  cases e <;> simp [complaint?]

theorem complains_of_complaint? {className message : String} {e : Expr}
    (h : complaint? className e = some message) : Complains className e message := by
  cases e with
  | string value line =>
      cases h
      exact .string value line
  | classConst class? constant? line =>
      rw [complaint?, Option.ite_none_left_eq_some] at h
      cases h.2
      exact .constant class? constant? line
  | _ =>
      cases h
      exact .other nofun nofun

/-- The objection to one argument, whatever its name. -/
def objection? (className : String) (a : Attribute) (arg : Argument) : Option Violation :=
  if arg.name == some "repositoryClass" then argViolation? className a arg else none

theorem objection?_eq_none_iff (className : String) (a : Attribute) (arg : Argument) :
    objection? className a arg = none ↔ ¬ Offends arg := by
  rw [objection?, ite_eq_right_iff, beq_iff_eq, argViolation?, Option.map_eq_none_iff,
    complaint?_eq_none_iff, Offends, not_and]
  simp only [ne_eq, not_forall, not_not]

instance : DecidablePred Offends :=
  fun arg => decidable_of_iff (¬ objection? "" (.bare "" 0) arg = none)
    (by rw [objection?_eq_none_iff, not_not])

/-- The check goes through all arguments. -/
theorem findSome?_namedArgs (className : String) (a : Attribute) :
    (a.namedArgs "repositoryClass").findSome? (argViolation? className a) =
      a.args.findSome? (objection? className a) := by
  rw [← List.head?_filterMap, Attribute.namedArgs, List.filterMap_filter, List.head?_filterMap]
  rfl

/-- A finding is about the first offending argument of an attribute. -/
def IsAbout (className : String) (a : Attribute) (f : Finding) : Prop :=
  ∃ arg, IsFirst Offends a.args arg ∧ Complains className arg.value f.message ∧
    IsFirstKnown [arg.value.line, arg.line, a.line] f.line

theorem isAbout_of_findSome? {className : String} {a : Attribute} {v : Violation}
    (h : a.args.findSome? (objection? className a) = some v) (rule : Rule) (path : Path) :
    IsAbout className a (rule.finding path v) := by
  obtain ⟨arg, hfirst, hv⟩ := exists_isFirst_of_findSome? (objection?_eq_none_iff className a) h
  rw [objection?, if_pos (beq_iff_eq.mpr hfirst.holds.1)] at hv
  obtain ⟨message, hmessage, rfl⟩ := Option.map_eq_some_iff.mp hv
  exact ⟨arg, hfirst, complains_of_complaint? hmessage,
    isFirstKnown_bestLine [arg.value.line, arg.line, a.line]⟩

/-- **Exactly the entity attributes with an offending argument are found.**  There is one finding
for each attribute of the class that has a spelling of the entity attribute and an offending
argument, in their order.  It is about the first such argument: what it says goes by the value, and
its line is the first known one of the value, the argument and the attribute. -/
theorem findings_offending {ctx : ClassContext} (hentity : ctx.isEntity = true)
    (severity : Severity) :
    let rule : Rule := ⟨.repositoryConstant, severity⟩
    List.Forall₂ (IsAbout ctx.className)
      (ctx.declaration.attributes.filter fun a =>
        a.SpellsMapping "Entity" ∧ ∃ arg ∈ a.args, Offends arg)
      (rule.findings ctx) := by
  intro rule
  show List.Forall₂ _ _ ((violations ctx).map (rule.finding ctx.path))
  rw [violations, if_pos hentity, List.forall₂_map_right_iff]
  simp only [findSome?_namedArgs]
  apply forall₂_filterMap_filter
  · exact Concept.isSpelledBy_iff_spellsMapping (by decide)
  · intro a
    simp only [List.findSome?_eq_none_iff, objection?_eq_none_iff, not_exists, not_and]
  · intro a v hv
    exact isAbout_of_findSome? hv rule ctx.path

/-- An entity whose first attribute has two offending arguments behind one that is fine, the first
of them on an unknown line; the second attribute is fine, and the third is no spelling. -/
def invoice : ClassContext where
  declaration := {
    name := "Invoice"
    kind := .regular
    line := 12
    attributes := [
      ⟨"\\ORM\\Entity", 9, [.named "repositoryClass" (.classConst none (some "class") 9),
        .named "repositoryClass" (.classConst (some "Repository") (some "NAME") 0),
        .named "repositoryClass" (.string "Repository" 10)]⟩,
      ⟨"Entity", 11, [.positional (.string "Repository" 11)]⟩,
      ⟨"App\\Entity", 11, [.named "repositoryClass" (.string "Repository" 11)]⟩]
    properties := []
    constructor? := none }
  reflection := (Reflection.ofName "App\\Invoice").addAttribute (.bare "ORM\\Entity" 9)
  scope := ⟨none, .empty⟩
  classifier := .conventions
  path := ⟨"src/Invoice.php"⟩

theorem findings_offending_invoice :
    let rule : Rule := ⟨.repositoryConstant, .error⟩
    invoice.isEntity = true ∧ (rule.findings invoice).map Finding.line = [9] ∧
      List.Forall₂ (IsAbout invoice.className)
        (invoice.declaration.attributes.filter fun a =>
          a.SpellsMapping "Entity" ∧ ∃ arg ∈ a.args, Offends arg)
        (rule.findings invoice) := by
  intro rule
  have hentity : invoice.isEntity = true := by decide +kernel
  exact ⟨hentity, by decide +kernel, findings_offending hentity .error⟩

end EntityConventions.RepositoryConstant
