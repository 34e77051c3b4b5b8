import EntityConventions.Proofs.Lines
import EntityConventions.TestGate

/-! # Messages of failing tests

The message of a failing test is about the findings that reach its threshold
(`Report.reaching`).  It has a headline with their number, then shows them one by one, and ends with
totals (`TestGate.message_eq_ofLines`).  A finding is shown by its code, its rule and its place, by
its severity and what it says, by its identifier, and by its tip if there is one
(`Finding.block_eq_ofLines`).

So a message says which findings reach the threshold.  If they are legible, no other legible ones
have the same message (`TestGate.reaching_eq_of_message_eq`). -/

namespace EntityConventions

open Decimal Text

/-! ### Texts around a character -/

namespace Text

/-- The first character of its kind separates what is around it. -/
theorem eq_of_append_cons_eq {c : Char} {front front' rest rest' : List Char} (h : c ∉ front)
    (h' : c ∉ front') (heq : front ++ c :: rest = front' ++ c :: rest') :
    front = front' ∧ rest = rest' := by
  have hsplit := congrArg (List.splitOn c) heq
  rw [List.splitOn_append_cons_self_of_not_mem h, List.splitOn_append_cons_self_of_not_mem h']
    at hsplit
  obtain ⟨rfl, -⟩ := List.cons.inj hsplit
  exact ⟨rfl, (List.cons.inj (List.append_cancel_left heq)).2⟩

/-- So does the last one. -/
theorem eq_of_append_cons_eq_of_last {c : Char} {front front' rest rest' : List Char}
    (h : c ∉ rest) (h' : c ∉ rest') (heq : front ++ c :: rest = front' ++ c :: rest') :
    front = front' ∧ rest = rest' := by
  have hreverse := congrArg List.reverse heq
  rw [List.reverse_append, List.reverse_append, List.reverse_cons, List.reverse_cons,
    List.append_assoc, List.append_assoc, List.singleton_append, List.singleton_append] at hreverse
  obtain ⟨hrest, hfront⟩ := eq_of_append_cons_eq (fun hmem => h (List.mem_reverse.mp hmem))
    (fun hmem => h' (List.mem_reverse.mp hmem)) hreverse
  exact ⟨List.reverse_inj.mp hfront, List.reverse_inj.mp hrest⟩

theorem isDigit_of_mem_toString (n : Nat) : ∀ c ∈ (toString n).toList, c.isDigit = true := by
  rw [← Digits.natText_eq_toString, Digits.natText, String.toList_ofList]
  exact Digits.isDigit_of_mem_ofNat n

theorem toString_inj {m n : Nat} (h : toString m = toString n) : m = n := by
  rw [← Digits.natText_eq_toString, ← Digits.natText_eq_toString, Digits.natText, Digits.natText,
    String.ofList_inj] at h
  rw [← Digits.toNat_ofNat m, h, Digits.toNat_ofNat]

theorem isOneLine_toString (n : Nat) : IsOneLine (toString n) := by
  rw [← Digits.natText_eq_toString]
  exact isOneLine_natText n

end Text

/-! ### Findings that are shown -/

namespace Finding

/-- The lines that show a finding: its code and its rule with its file and its line, its severity
with its message, its identifier, and its tip if there is one. -/
def shown (f : Finding) : List String :=
  [f.code ++ " " ++ f.rule ++ " at " ++ f.file.text ++ ":" ++ toString f.line,
    "  " ++ f.severity.word ++ ": " ++ f.message,
    "  = id: " ++ f.identifier] ++
  (f.tip.map fun tip => "  = tip: " ++ tip).toList

theorem block_eq_ofLines (f : Finding) : f.block = ofLines f.shown := by
  unfold block place shown
  cases f.tip with
  | none =>
      simp only [Option.map_none, Option.toList_none, List.append_nil, ofLines_cons, ofLines_nil,
        Digits.natText_eq_toString, String.append_assoc]
  | some tip =>
      simp only [Option.map_some, Option.toList_some, List.cons_append, List.nil_append,
        ofLines_cons, ofLines_nil, Digits.natText_eq_toString, String.append_assoc,
        String.append_empty]

/-- What is shown of a finding can be told apart: its texts are on one line, and there is no space
in its code and in the name of its rule. -/
structure IsLegible (f : Finding) : Prop where
  code : ' ' ∉ f.code.toList
  rule : ' ' ∉ f.rule.toList
  oneLine : ∀ t ∈ [f.code, f.rule, f.file.text, f.message, f.identifier] ++ f.tip.toList,
    IsOneLine t

theorem IsLegible.isOneLine_of_mem_shown {f : Finding} (h : f.IsLegible) :
    ∀ line ∈ f.shown, IsOneLine line := by
  obtain ⟨htexts, htip⟩ := List.forall_mem_append.mp h.oneLine
  simp only [List.forall_mem_cons] at htexts
  obtain ⟨hcode, hrule, hfile, hmessage, hidentifier, -⟩ := htexts
  have hmarks : ∀ mark ∈ [" ", " at ", ":", "  ", ": ", "  = id: "], IsOneLine mark := by decide
  simp only [List.forall_mem_cons] at hmarks
  have htipMark : IsOneLine "  = tip: " := by decide
  rw [shown, List.forall_mem_append]
  refine ⟨?_, fun line hline => ?_⟩
  · simp only [List.forall_mem_cons, isOneLine_append, hcode, hrule, hfile, hmessage, hidentifier,
      hmarks, isOneLine_toString, isOneLine_severity, and_self, true_and]
    exact fun _ hline => absurd hline List.not_mem_nil
  · rw [Option.mem_toList, Option.map_eq_some_iff] at hline
    obtain ⟨tip, hmem, rfl⟩ := hline
    exact isOneLine_append.mpr ⟨htipMark, htip tip (Option.mem_toList.mpr hmem)⟩

/-- The first line tells code, rule and place. -/
theorem IsLegible.place_eq {f g : Finding} (hf : f.IsLegible) (hg : g.IsLegible)
    (h : f.code ++ " " ++ f.rule ++ " at " ++ f.file.text ++ ":" ++ toString f.line =
      g.code ++ " " ++ g.rule ++ " at " ++ g.file.text ++ ":" ++ toString g.line) :
    f.code = g.code ∧ f.rule = g.rule ∧ f.file = g.file ∧ f.line = g.line := by
  have hchars : ∀ e : Finding, (e.code ++ " " ++ e.rule ++ " at " ++ e.file.text ++ ":" ++
      toString e.line).toList = e.code.toList ++ ' ' :: (e.rule.toList ++ ' ' ::
        ('a' :: 't' :: ' ' :: (e.file.text.toList ++ ':' :: (toString e.line).toList))) := by
    intro e
    simp [String.toList_append]
  have hcolon : ∀ n : Nat, ':' ∉ (toString n).toList := fun n hmem =>
    absurd (isDigit_of_mem_toString n _ hmem) (by decide)
  have hline := congrArg String.toList h
  rw [hchars, hchars] at hline
  obtain ⟨hcode, hline⟩ := eq_of_append_cons_eq hf.code hg.code hline
  obtain ⟨hrule, hline⟩ := eq_of_append_cons_eq hf.rule hg.rule hline
  simp only [List.cons.injEq, true_and] at hline
  -- A colon can be in the name of the file, but there is none behind the last one.
  obtain ⟨hfile, hnumber⟩ := eq_of_append_cons_eq_of_last (hcolon f.line) (hcolon g.line) hline
  rw [String.toList_inj] at hcode hrule hfile hnumber
  exact ⟨hcode, hrule, congrArg Path.mk hfile, toString_inj hnumber⟩

/-- The second line tells severity and message. -/
theorem says_eq {f g : Finding}
    (h : "  " ++ f.severity.word ++ ": " ++ f.message =
      "  " ++ g.severity.word ++ ": " ++ g.message) :
    f.severity = g.severity ∧ f.message = g.message := by
  have hchars : ∀ e : Finding, ("  " ++ e.severity.word ++ ": " ++ e.message).toList =
      ' ' :: ' ' :: (e.severity.word.toList ++ ':' :: (' ' :: e.message.toList)) := by
    intro e
    simp [String.toList_append]
  have hcolon : ∀ s : Severity, ':' ∉ s.word.toList := by
    intro s
    cases s <;> decide
  have hword : ∀ s t : Severity, s.word = t.word → s = t := by
    intro s t
    cases s <;> cases t <;> decide
  have hline := congrArg String.toList h
  rw [hchars, hchars] at hline
  simp only [List.cons.injEq, true_and] at hline
  obtain ⟨hseverity, hline⟩ := eq_of_append_cons_eq (hcolon _) (hcolon _) hline
  exact ⟨hword _ _ (String.toList_inj.mp hseverity),
    String.toList_inj.mp (List.cons.inj hline).2⟩

/-- In front of an empty line, a tip is told by its own line, which is not empty. -/
theorem tip_eq {tip tip' : Option String} {rest rest' : List String}
    (h : (tip.map fun tip => "  = tip: " ++ tip).toList ++ "" :: rest =
      (tip'.map fun tip => "  = tip: " ++ tip).toList ++ "" :: rest') :
    tip = tip' ∧ rest = rest' := by
  have hmarked : ∀ tip : String, "  = tip: " ++ tip ≠ "" := by
    intro tip htip
    simpa [String.toList_append] using congrArg String.toList htip
  cases tip with
  | none =>
      cases tip' with
      | none => exact ⟨rfl, (List.cons.inj h).2⟩
      | some tip' => exact absurd (List.cons.inj h).1.symm (hmarked tip')
  | some tip =>
      cases tip' with
      | none => exact absurd (List.cons.inj h).1 (hmarked tip)
      | some tip' =>
          obtain ⟨htip, hrest⟩ := List.cons.inj h
          exact ⟨congrArg some ((String.append_right_inj _).mp htip), (List.cons.inj hrest).2⟩

/-- In front of an empty line, a legible finding is shown by no other lines. -/
theorem eq_of_shown_append {f g : Finding} (hf : f.IsLegible) (hg : g.IsLegible)
    {rest rest' : List String} (h : f.shown ++ "" :: rest = g.shown ++ "" :: rest') :
    f = g ∧ rest = rest' := by
  simp only [shown, List.cons_append, List.nil_append, List.cons.injEq] at h
  obtain ⟨hplace, hsays, hidentifier, htip⟩ := h
  obtain ⟨hcode, hrule, hfile, hline⟩ := hf.place_eq hg hplace
  obtain ⟨hseverity, hmessage⟩ := says_eq hsays
  have hidentifier := (String.append_right_inj _).mp hidentifier
  obtain ⟨htip, hrest⟩ := tip_eq htip
  refine ⟨?_, hrest⟩
  cases f
  cases g
  simp only [mk.injEq]
  exact ⟨hcode, hrule, hidentifier, hseverity, hfile, hline, hmessage, htip⟩

theorem eq_of_flatMap_shown {fs gs : List Finding} (hfs : ∀ f ∈ fs, f.IsLegible)
    (hgs : ∀ g ∈ gs, g.IsLegible)
    (h : (fs.flatMap fun f => f.shown ++ [""]) = gs.flatMap fun g => g.shown ++ [""]) :
    fs = gs := by
  induction fs generalizing gs with
  | nil =>
      cases gs with
      | nil => rfl
      | cons g gs => cases h
  | cons f fs ih =>
      cases gs with
      | nil => cases h
      | cons g gs =>
          obtain ⟨hf, hfs⟩ := List.forall_mem_cons.mp hfs
          obtain ⟨hg, hgs⟩ := List.forall_mem_cons.mp hgs
          rw [List.flatMap_cons, List.flatMap_cons, List.append_assoc, List.append_assoc,
            List.singleton_append, List.singleton_append] at h
          obtain ⟨heq, hrest⟩ := eq_of_shown_append hf hg h
          rw [heq, ih hfs hgs hrest]

end Finding

/-! ### Messages -/

/-- The findings that reach a threshold, in the order of the report. -/
def Report.reaching (r : Report) (threshold : Severity) : List Finding :=
  r.findings.filter fun f => threshold.rank ≤ f.severity.rank

namespace TestGate

/-- The lines of a message about some findings: their number, what is shown of each of them, and
three totals with the number of classes. -/
def messageLines (failing : List Finding) (errors warnings infos classes : Nat) : List String :=
  ["", "=== entity-lint: " ++ toString failing.length ++ " finding(s) ===", ""] ++
    (failing.flatMap fun f => f.shown ++ [""]) ++
    ["Total: " ++ toString errors ++ " error(s), " ++ toString warnings ++ " warning(s), " ++
      toString infos ++ " info(s) in " ++ toString classes ++ " class(es)"]

/-- The message is about the findings that reach the threshold, in their order. -/
theorem message_eq_ofLines (r : Report) (threshold : Severity) :
    (Failure.findings r threshold).message =
      ofLines (messageLines (r.reaching threshold) (r.count .error) (r.count .warning)
        (r.count .info) r.classesChecked) := by
  have hhead : "\n=== entity-lint: " = "\n" ++ "=== entity-lint: " := by decide
  have hend : " finding(s) ===\n\n" = " finding(s) ===" ++ ("\n" ++ "\n") := by decide
  have hblocks : ∀ failing : List Finding,
      ofLines (failing.flatMap fun f => f.shown ++ [""]) =
        String.join (failing.map fun f => f.block ++ "\n") := by
    intro failing
    simp only [ofLines_flatMap, ofLines_append, ofLines_cons, ofLines_nil, Finding.block_eq_ofLines,
      String.empty_append, String.append_empty]
  show r.failureText threshold = _
  unfold Report.failureText Report.tally messageLines
  dsimp only
  simp only [ofLines_append, hblocks, ofLines_cons, ofLines_nil, hhead, hend,
    Digits.natText_eq_toString, String.append_assoc, String.empty_append, String.append_empty]
  rfl

theorem isOneLine_of_mem_messageLines {failing : List Finding}
    (h : ∀ f ∈ failing, f.IsLegible) (errors warnings infos classes : Nat) :
    ∀ line ∈ messageLines failing errors warnings infos classes, IsOneLine line := by
  have hmarks : ∀ mark ∈ ["", "=== entity-lint: ", " finding(s) ===", "Total: ", " error(s), ",
      " warning(s), ", " info(s) in ", " class(es)"], IsOneLine mark := by
    decide
  simp only [List.forall_mem_cons] at hmarks
  simp only [messageLines, List.forall_mem_append, List.forall_mem_cons, isOneLine_append, hmarks,
    isOneLine_toString, List.not_mem_nil, false_implies, implies_true, and_self, true_and, and_true]
  intro line hline
  obtain ⟨f, hf, hline⟩ := List.mem_flatMap.mp hline
  rcases List.mem_append.mp hline with hline | hline
  · exact (h f hf).isOneLine_of_mem_shown line hline
  · rw [List.mem_singleton.mp hline]
    exact hmarks.1

/-- A message about legible findings is about no others. -/
theorem reaching_eq_of_message_eq {r r' : Report} {threshold threshold' : Severity}
    (h : ∀ f ∈ r.reaching threshold, f.IsLegible) (h' : ∀ f ∈ r'.reaching threshold', f.IsLegible)
    (heq : (Failure.findings r threshold).message = (Failure.findings r' threshold').message) :
    r.reaching threshold = r'.reaching threshold' := by
  rw [message_eq_ofLines, message_eq_ofLines,
    ofLines_inj (isOneLine_of_mem_messageLines h _ _ _ _)
      (isOneLine_of_mem_messageLines h' _ _ _ _)] at heq
  simp only [messageLines, List.cons_append, List.nil_append, List.cons.injEq, true_and] at heq
  exact Finding.eq_of_flatMap_shown h h' (List.append_inj' heq.2 rfl).1

end TestGate

end EntityConventions
