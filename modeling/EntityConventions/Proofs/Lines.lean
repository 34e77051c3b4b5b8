import EntityConventions.Finding
import EntityConventions.Proofs.Digits

/-! # Texts of lines

A text is on one line if there is no newline in it.  `Text.ofLines` puts a newline behind each of
some lines, so that the text has as many newlines as there are lines and in the lines
(`Text.newlines_ofLines`).  Lines without newlines can be read off again (`Text.splitOn_ofLines`);
so no other such lines make the same text (`Text.ofLines_inj`). -/

namespace EntityConventions.Text

open Decimal

/-! ### Texts on one line -/

/-- The number of newlines in a text. -/
def newlines (t : String) : Nat :=
  t.toList.count '\n'

/-- A text without newlines. -/
def IsOneLine (t : String) : Prop :=
  '\n' ∉ t.toList

instance : DecidablePred IsOneLine :=
  fun t => inferInstanceAs (Decidable ('\n' ∉ t.toList))

theorem newlines_eq_zero_iff {t : String} : newlines t = 0 ↔ IsOneLine t :=
  List.count_eq_zero

theorem newlines_append (s t : String) : newlines (s ++ t) = newlines s + newlines t := by
  rw [newlines, String.toList_append, List.count_append]
  rfl

/-- For a literal it is enough to look at its characters. -/
theorem isOneLine_ofList {cs : List Char} (h : '\n' ∉ cs) : IsOneLine (String.ofList cs) := by
  rwa [IsOneLine, String.toList_ofList]

theorem isOneLine_append {s t : String} : IsOneLine (s ++ t) ↔ IsOneLine s ∧ IsOneLine t := by
  rw [IsOneLine, String.toList_append, List.mem_append, not_or]
  rfl

theorem IsOneLine.of_suffix {s t : String} (ht : IsOneLine t) (h : s.toList <:+ t.toList) :
    IsOneLine s :=
  fun hs => ht (h.subset hs)

theorem isOneLine_natText (n : Nat) : IsOneLine (Digits.natText n) := by
  apply isOneLine_ofList
  intro h
  exact absurd (Digits.isDigit_of_mem_ofNat n _ h) (by decide)

theorem isOneLine_severity (s : Severity) : IsOneLine s.word := by
  cases s <;> exact isOneLine_ofList (by decide)

/-! ### Lines -/

/-- The text of some lines: each with a newline behind it. -/
def ofLines (lines : List String) : String :=
  String.join (lines.map fun line => line ++ "\n")

theorem ofLines_nil : ofLines [] = "" := rfl

theorem ofLines_cons (line : String) (lines : List String) :
    ofLines (line :: lines) = line ++ "\n" ++ ofLines lines :=
  String.join_cons

theorem ofLines_append (lines lines' : List String) :
    ofLines (lines ++ lines') = ofLines lines ++ ofLines lines' := by
  rw [ofLines, List.map_append, String.join_append]
  rfl

theorem ofLines_flatMap {α : Type} (as : List α) (f : α → List String) :
    ofLines (as.flatMap f) = String.join (as.map fun a => ofLines (f a)) := by
  induction as with
  | nil => rfl
  | cons a as ih => rw [List.flatMap_cons, ofLines_append, ih, List.map_cons, String.join_cons]

/-- Each line contributes the newline behind it and its own ones. -/
theorem newlines_ofLines (lines : List String) :
    newlines (ofLines lines) = lines.length + (lines.map newlines).sum := by
  have hend : newlines "\n" = 1 := by decide
  induction lines with
  | nil => rfl
  | cons line lines ih =>
      rw [ofLines_cons, newlines_append, newlines_append, ih, hend, List.map_cons, List.sum_cons,
        List.length_cons]
      omega

/-- If no line has a newline of its own, the newlines separate the lines. -/
theorem splitOn_ofLines {lines : List String} (h : ∀ line ∈ lines, IsOneLine line) :
    (ofLines lines).toList.splitOn '\n' = lines.map String.toList ++ [[]] := by
  induction lines with
  | nil => rfl
  | cons line lines ih =>
      obtain ⟨hline, hlines⟩ := List.forall_mem_cons.mp h
      rw [ofLines_cons, String.toList_append, String.toList_append, List.append_assoc,
        show "\n".toList = ['\n'] from rfl, List.singleton_append,
        List.splitOn_append_cons_self_of_not_mem hline, ih hlines]
      rfl

theorem ofLines_inj {lines lines' : List String} (h : ∀ line ∈ lines, IsOneLine line)
    (h' : ∀ line ∈ lines', IsOneLine line) : ofLines lines = ofLines lines' ↔ lines = lines' := by
  refine ⟨fun heq => ?_, congrArg ofLines⟩
  have hsplit := splitOn_ofLines h
  rw [heq, splitOn_ofLines h'] at hsplit
  have hchars := (List.append_cancel_right hsplit).symm
  exact (List.map_inj_right fun _ _ => String.toList_inj.mp).mp hchars

end EntityConventions.Text
