import EntityConventions.Proofs.Paths
import Mathlib.Logic.Relation

/-! # Spellings of paths

`Path.Respell` lists the single changes of a spelling that mean nothing: a slash is doubled, a dot
is put between slashes, or a slash is added at the end.  Each of them adds a part that carries no
meaning, so the components of a path stay as they are (`Path.Respell.components_eq`).  Conversely
every path can be respelled as the plain spelling of its components (`Path.eqvGen_plain`).  Two
paths therefore have the same components exactly if one of them can be respelled as the other
(`Path.components_eq_iff_eqvGen`). -/

namespace EntityConventions.Path

open Relation (EqvGen)

/-- One change of the spelling of a path. -/
inductive Respell : Path → Path → Prop
  | double (before after : String) : Respell ⟨before ++ "/" ++ after⟩ ⟨before ++ "//" ++ after⟩
  | dot (before after : String) : Respell ⟨before ++ "/" ++ after⟩ ⟨before ++ "/./" ++ after⟩
  | trail {text : String} (h : text ≠ "") : Respell ⟨text⟩ ⟨text ++ "/"⟩

theorem double_eq (before after : String) :
    before ++ "//" ++ after = before ++ "/" ++ ("" ++ "/" ++ after) := by
  rw [show "//" = "/" ++ "/" from rfl, String.empty_append]
  simp only [String.append_assoc]

theorem dot_eq (before after : String) :
    before ++ "/./" ++ after = before ++ "/" ++ ("." ++ "/" ++ after) := by
  rw [show "/./" = "/" ++ ("." ++ "/") from rfl]
  simp only [String.append_assoc]

/-! ### Parts of a spelling -/

theorem text_unparts_cons_cons (part next : List Char) (rest : List (List Char)) :
    (unparts (part :: next :: rest)).text =
      String.ofList part ++ "/" ++ (unparts (next :: rest)).text := by
  rw [← String.toList_inj]
  simp only [unparts, String.toList_append, String.toList_ofList, List.intercalate_cons_cons]
  rfl

theorem unparts_append {before after : List (List Char)} (hbefore : before ≠ [])
    (hafter : after ≠ []) :
    unparts (before ++ after) = ⟨(unparts before).text ++ "/" ++ (unparts after).text⟩ := by
  obtain ⟨next, after, rfl⟩ := List.exists_cons_of_ne_nil hafter
  suffices htext : (unparts (before ++ next :: after)).text =
      (unparts before).text ++ "/" ++ (unparts (next :: after)).text from congrArg Path.mk htext
  induction before with
  | nil => exact absurd rfl hbefore
  | cons part before ih =>
      cases before with
      | nil =>
          rw [List.singleton_append, text_unparts_cons_cons, unparts, unparts,
            List.intercalate_singleton]
      | cons other before =>
          rw [List.cons_append, List.cons_append, text_unparts_cons_cons, ← List.cons_append,
            ih (List.cons_ne_nil other before), text_unparts_cons_cons]
          simp only [String.append_assoc]

theorem text_unparts_append_ne {before after : List (List Char)} (hbefore : before ≠ [])
    (hafter : after ≠ []) : (unparts (before ++ after)).text ≠ "" := by
  rw [unparts_append hbefore hafter]
  intro h
  simpa [String.toList_append] using congrArg String.toList h

/-! ### What a change of spelling leaves alone -/

theorem component?_of_isSilent {part : List Char} (h : isSilent part = true) :
    component? part = none :=
  if_pos h

/-- A part without meaning may be left out, unless it makes an empty first part the root. -/
theorem ofParts_of_isSilent {first part : List Char} {before after : List (List Char)}
    (hpart : isSilent part = true) (h : first = [] → before ++ after ≠ []) :
    ofParts (first :: before ++ part :: after) = ofParts (first :: before ++ after) := by
  have hleading : leading first (before ++ part :: after) = leading first (before ++ after) :=
    leading_congr fun hfirst => iff_of_false (by simp) (h hfirst)
  simp only [List.cons_append, ofParts]
  rw [hleading, ← List.cons_append, List.filterMap_append,
    List.filterMap_cons_none (component?_of_isSilent hpart), ← List.filterMap_append,
    List.cons_append]

theorem components_of_isSilent {p q : Path} {before after : List (List Char)} {part : List Char}
    (hp : p.parts = before ++ after) (hq : q.parts = before ++ part :: after)
    (hpart : isSilent part = true) (hbefore : before ≠ []) (h : before = [[]] → after ≠ []) :
    p.components = q.components := by
  obtain ⟨first, before, rfl⟩ := List.exists_cons_of_ne_nil hbefore
  rw [components, components, hp, hq, ofParts_of_isSilent hpart]
  rintro rfl hnil
  obtain ⟨rfl, hafter⟩ := List.append_eq_nil_iff.mp hnil
  exact h rfl hafter

/-- A change of spelling leaves the components alone. -/
theorem Respell.components_eq {p q : Path} (h : Respell p q) : p.components = q.components := by
  have hbetween (before part after : String) (hpart : isSilent part.toList = true)
      (hparts : parts ⟨part⟩ = [part.toList]) :
      components ⟨before ++ "/" ++ after⟩ =
        components ⟨before ++ "/" ++ (part ++ "/" ++ after)⟩ := by
    refine components_of_isSilent (parts_append_slash before after) ?_ hpart (parts_ne_nil _)
      fun _ => parts_ne_nil _
    rw [parts_append_slash, parts_append_slash, hparts, List.singleton_append]
  cases h with
  | double before after =>
      rw [double_eq]
      exact hbetween before "" after rfl rfl
  | dot before after =>
      rw [dot_eq]
      exact hbetween before "." after rfl rfl
  | @trail text h =>
      have htrailed := parts_append_slash text ""
      rw [String.append_empty] at htrailed
      refine components_of_isSilent (List.append_nil _).symm htrailed rfl (parts_ne_nil _) ?_
      intro hempty
      have htext := unparts_parts ⟨text⟩
      rw [hempty] at htext
      exact absurd (congrArg Path.text htext).symm h

/-- Nor does any chain of changes, made or taken back, touch the components. -/
theorem components_eq_of_eqvGen {p q : Path} (h : EqvGen Respell p q) :
    p.components = q.components := by
  induction h with
  | rel _ _ hstep => exact hstep.components_eq
  | refl _ => rfl
  | symm _ _ _ ih => exact ih.symm
  | trans _ _ _ _ _ ih ih' => exact ih.trans ih'

/-! ### Plain spellings -/

/-- The plain spelling of some components: one slash between any two of them. -/
def plain : List Component → Path
  | .root :: rest => ⟨"/" ++ (unparts (rest.map fun c => c.text.toList)).text⟩
  | components => unparts (components.map fun c => c.text.toList)

/-- The parts of a spelling that carry a meaning wherever they stand. -/
def meaningful (ps : List (List Char)) : List (List Char) :=
  ps.filter fun part => !isSilent part

theorem isSilent_cases {part : List Char} (h : isSilent part = true) :
    part = [] ∨ part = ['.'] := by
  simpa [isSilent] using h

theorem meaningful_of_isSilent {part : List Char} (h : isSilent part = true)
    (ps : List (List Char)) : meaningful (part :: ps) = meaningful ps :=
  List.filter_cons_of_neg (by simp [h])

theorem meaningful_of_not_isSilent {part : List Char} (h : ¬ isSilent part = true)
    (ps : List (List Char)) : meaningful (part :: ps) = part :: meaningful ps :=
  List.filter_cons_of_pos (by simp [h])

theorem component?_of_not_isSilent {part : List Char} (h : ¬ isSilent part = true) :
    ∃ c, component? part = some c ∧ c ≠ .root ∧ c.text.toList = part := by
  unfold component?
  rw [if_neg h]
  split
  · rename_i hparent
    exact ⟨.parent, rfl, nofun, hparent.symm⟩
  · exact ⟨_, rfl, nofun, String.toList_ofList⟩

theorem map_text_filterMap_component? (ps : List (List Char)) :
    (ps.filterMap component?).map (fun c => c.text.toList) = meaningful ps := by
  induction ps with
  | nil => rfl
  | cons part ps ih =>
      by_cases hpart : isSilent part = true
      · rw [List.filterMap_cons_none (component?_of_isSilent hpart), ih,
          meaningful_of_isSilent hpart]
      · obtain ⟨c, hc, -, htext⟩ := component?_of_not_isSilent hpart
        rw [List.filterMap_cons_some hc, List.map_cons, ih, htext,
          meaningful_of_not_isSilent hpart]

/-- A part without meaning can be put in front of another part. -/
theorem eqvGen_insert {before after : List (List Char)} {part : List Char}
    (hpart : isSilent part = true) (hbefore : before ≠ []) (hafter : after ≠ []) :
    EqvGen Respell (unparts (before ++ after)) (unparts (before ++ part :: after)) := by
  have hinsert : unparts (before ++ part :: after) =
      ⟨(unparts before).text ++ "/" ++ (String.ofList part ++ "/" ++ (unparts after).text)⟩ := by
    obtain ⟨next, after, rfl⟩ := List.exists_cons_of_ne_nil hafter
    rw [unparts_append hbefore (List.cons_ne_nil part _), text_unparts_cons_cons]
  rw [unparts_append hbefore hafter, hinsert]
  rcases isSilent_cases hpart with rfl | rfl
  · have hstep := Respell.double (unparts before).text (unparts after).text
    rw [double_eq] at hstep
    exact .rel _ _ hstep
  · have hstep := Respell.dot (unparts before).text (unparts after).text
    rw [dot_eq] at hstep
    exact .rel _ _ hstep

/-- The same at the end of a path that is not empty. -/
theorem eqvGen_concat {before : List (List Char)} {part : List Char}
    (hpart : isSilent part = true) (hbefore : before ≠ []) (htext : (unparts before).text ≠ "") :
    EqvGen Respell (unparts before) (unparts (before ++ [part])) := by
  have htrail : EqvGen Respell (unparts before) ⟨(unparts before).text ++ "/"⟩ :=
    .rel _ _ (.trail htext)
  have hempty : (unparts [[]]).text = "" := rfl
  rcases isSilent_cases hpart with rfl | rfl
  · rw [unparts_append hbefore (List.cons_ne_nil _ _), hempty, String.append_empty]
    exact htrail
  · -- The slash behind the dot makes it one between slashes.
    have hdot := eqvGen_insert hpart hbefore (List.cons_ne_nil [] [])
    rw [unparts_append hbefore (List.cons_ne_nil _ _), hempty, String.append_empty] at hdot
    have hback : EqvGen Respell (unparts (before ++ [['.']]))
        (unparts (before ++ [['.'], []])) := by
      have htrailed : unparts (before ++ [['.'], []]) =
          ⟨(unparts (before ++ [['.']])).text ++ "/"⟩ := by
        rw [← List.singleton_append, ← List.append_assoc,
          unparts_append (by simp) (List.cons_ne_nil _ _), hempty, String.append_empty]
      have hne := text_unparts_append_ne hbefore (List.cons_ne_nil ['.'] [])
      exact htrailed ▸ .rel _ _ (.trail hne)
    exact .trans _ _ _ (.trans _ _ _ htrail hdot) (.symm _ _ hback)

/-- Behind the beginning of a path all parts without meaning can be left out. -/
theorem eqvGen_meaningful {before : List (List Char)} (hbefore : before ≠ [])
    (htext : (unparts before).text ≠ "") (ps : List (List Char)) :
    EqvGen Respell (unparts (before ++ ps)) (unparts (before ++ meaningful ps)) := by
  induction ps generalizing before with
  | nil => exact .refl _
  | cons part ps ih =>
      by_cases hpart : isSilent part = true
      · rw [meaningful_of_isSilent hpart]
        refine .trans _ _ _ (.symm _ _ ?_) (ih hbefore htext)
        by_cases hps : ps = []
        · rw [hps, List.append_nil]
          exact eqvGen_concat hpart hbefore htext
        · exact eqvGen_insert hpart hbefore hps
      · have hnext : EqvGen Respell (unparts (before ++ [part] ++ ps))
            (unparts (before ++ [part] ++ meaningful ps)) :=
          ih (by simp) (text_unparts_append_ne hbefore (List.cons_ne_nil part []))
        rw [List.append_assoc, List.append_assoc] at hnext
        rw [meaningful_of_not_isSilent hpart]
        exact hnext

/-- Behind the root as well. -/
theorem eqvGen_root {rest : List (List Char)} (h : rest ≠ []) :
    EqvGen Respell (unparts ([] :: rest)) ⟨"/" ++ (unparts (meaningful rest)).text⟩ := by
  have hroot : ∀ {after : List (List Char)}, after ≠ [] →
      unparts ([] :: after) = ⟨"/" ++ (unparts after).text⟩ := fun hafter => by
    rw [← List.singleton_append, unparts_append (List.cons_ne_nil _ _) hafter]
    rfl
  induction rest with
  | nil => exact absurd rfl h
  | cons part ps ih =>
      by_cases hpart : isSilent part = true
      · rw [meaningful_of_isSilent hpart]
        by_cases hps : ps = []
        · -- The root itself, as `/` or as `/.`.
          obtain rfl := hps
          rcases isSilent_cases hpart with rfl | rfl
          · exact .refl _
          · exact .trans _ _ _ (.rel _ _ (.trail (by decide))) (.symm _ _ (.rel _ _ (.dot "" "")))
        · exact .trans _ _ _ (.symm _ _ (eqvGen_insert hpart (List.cons_ne_nil [] []) hps)) (ih hps)
      · have hnext : EqvGen Respell (unparts ([[], part] ++ ps))
            (unparts ([[], part] ++ meaningful ps)) :=
          eqvGen_meaningful (List.cons_ne_nil _ _)
            (text_unparts_append_ne (List.cons_ne_nil [] []) (List.cons_ne_nil part [])) ps
        rw [meaningful_of_not_isSilent hpart, ← hroot (List.cons_ne_nil _ _)]
        exact hnext

theorem plain_cons {c : Component} (h : c ≠ .root) (rest : List Component) :
    plain (c :: rest) = unparts (c.text.toList :: rest.map fun c => c.text.toList) := by
  cases c with
  | root => exact absurd rfl h
  | _ => rfl

/-- The plain spelling keeps the first part if that is not empty. -/
theorem plain_ofParts {first : List Char} (h : first ≠ []) (rest : List (List Char)) :
    plain (ofParts (first :: rest)) = unparts (first :: meaningful rest) := by
  rw [← map_text_filterMap_component? rest]
  by_cases hfirst : isSilent first = true
  · obtain rfl := (isSilent_cases hfirst).resolve_left h
    rfl
  · obtain ⟨c, hc, hroot, htext⟩ := component?_of_not_isSilent hfirst
    have hleading : leading first rest = [] := by
      rw [leading, if_neg fun hempty => h hempty.1, if_neg]
      rintro rfl
      exact hfirst rfl
    rw [ofParts, hleading, List.nil_append, List.filterMap_cons_some hc, plain_cons hroot, htext]

/-- Every path can be respelled as the plain spelling of its components. -/
theorem eqvGen_plain (p : Path) : EqvGen Respell p (plain p.components) := by
  obtain ⟨first, rest, hparts⟩ := List.exists_cons_of_ne_nil p.parts_ne_nil
  have hp := p.unparts_parts
  rw [hparts] at hp
  rw [components, hparts, ← hp]
  by_cases hfirst : first = []
  · obtain rfl := hfirst
    by_cases hrest : rest = []
    · obtain rfl := hrest
      exact .refl _
    · have hroot : plain (ofParts ([] :: rest)) = ⟨"/" ++ (unparts (meaningful rest)).text⟩ := by
        rw [← map_text_filterMap_component?, ofParts, leading, if_pos ⟨rfl, hrest⟩]
        rfl
      rw [hroot]
      exact eqvGen_root hrest
  · have htext : (unparts [first]).text ≠ "" := by
      intro h
      apply hfirst
      simpa [unparts] using congrArg String.toList h
    rw [plain_ofParts hfirst]
    exact eqvGen_meaningful (List.cons_ne_nil first []) htext rest

/-- **Spellings of one path.**  Two paths have the same components exactly if a chain of changes of
spelling, made or taken back, leads from one to the other. -/
theorem components_eq_iff_eqvGen (p q : Path) :
    p.components = q.components ↔ EqvGen Respell p q := by
  constructor
  · intro h
    have hq := eqvGen_plain q
    rw [← h] at hq
    exact .trans _ _ _ (eqvGen_plain p) (.symm _ _ hq)
  · exact components_eq_of_eqvGen

end EntityConventions.Path
