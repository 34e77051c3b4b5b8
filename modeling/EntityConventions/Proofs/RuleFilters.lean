import EntityConventions.CommandLine.Run
import EntityConventions.Proofs.Checking
import EntityConventions.Proofs.Paths
import Mathlib.Algebra.BigOperators.Ring.List
import Mathlib.Data.List.TakeWhile

/-! # Rules chosen by a filter

Commas separate a filter into segments (`CommandLine.Separates`), and a segment mentions the rule
that its text, without the blanks around it, names (`CommandLine.Mentions`).  A text names at most
one rule (`Rule.IsNamed.unique`), so a filter chooses one rule for every segment that mentions one,
in the order of the segments, and fails if there is none (`CommandLine.selectRules_mentioned`).

A rule that two segments mention is chosen twice.  Whatever a rule finds is reported as often as the
rule is chosen (`Analyzer.count_findings`), so such a filter repeats findings
(`CommandLine.selectRules_repeats`). -/

namespace EntityConventions

/-! ### Blanks around a word -/

namespace Text.Blank

/-- A word is what is left of a text without the blanks at its two ends. -/
structure Trims (text word : String) : Prop where
  surrounded : ∃ front back : List Char, text.toList = front ++ (word.toList ++ back) ∧
    (∀ c ∈ front, isBlank c = true) ∧ ∀ c ∈ back, isBlank c = true
  head : ∀ c, word.toList.head? = some c → isBlank c = false
  last : ∀ c, word.toList.getLast? = some c → isBlank c = false

theorem trimEnd_append_blanks {cs back : List Char} (hback : ∀ c ∈ back, isBlank c = true) :
    trimEnd (cs ++ back) = trimEnd cs := by
  have hblanks : ∀ c ∈ back.reverse, isBlank c = true := fun c hc =>
    hback c (List.mem_reverse.mp hc)
  rw [trimEnd, trimEnd, List.reverse_append, List.dropWhile_append_of_pos hblanks]

theorem dropWhile_isBlank_eq_self {cs : List Char}
    (h : ∀ c, cs.head? = some c → isBlank c = false) : cs.dropWhile isBlank = cs := by
  cases cs with
  | nil => rfl
  | cons c cs => exact List.dropWhile_cons_of_neg (by simp [h c rfl])

theorem trimEnd_eq_self {cs : List Char} (h : ∀ c, cs.getLast? = some c → isBlank c = false) :
    trimEnd cs = cs := by
  have hlast : cs.reverse.dropWhile isBlank = cs.reverse :=
    dropWhile_isBlank_eq_self fun c hc => h c (List.head?_reverse ▸ hc)
  rw [trimEnd, hlast, List.reverse_reverse]

/-- What is dropped at the end are blanks, and what is left ends with none. -/
theorem exists_eq_trimEnd_append (cs : List Char) :
    (∃ back, cs = trimEnd cs ++ back ∧ ∀ c ∈ back, isBlank c = true) ∧
      ∀ c, (trimEnd cs).getLast? = some c → isBlank c = false := by
  constructor
  · refine ⟨(cs.reverse.takeWhile isBlank).reverse, ?_, fun c hc => ?_⟩
    · rw [trimEnd, ← List.reverse_append, List.takeWhile_append_dropWhile, List.reverse_reverse]
    · exact List.mem_takeWhile_imp (List.mem_reverse.mp hc)
  · intro c hc
    rw [trimEnd, List.getLast?_reverse] at hc
    have hhead := List.head?_dropWhile_not isBlank cs.reverse
    rwa [hc] at hhead

/-- Trimming leaves the word of a text, and there is no other one. -/
theorem trims_iff {text word : String} : Trims text word ↔ trim text = word := by
  constructor
  · rintro ⟨⟨front, back, htext, hfront, hback⟩, hhead, hlast⟩
    rw [← String.toList_inj, trim, String.toList_ofList, htext,
      List.dropWhile_append_of_pos hfront]
    by_cases hword : word.toList = []
    · -- A text of nothing but blanks is dropped from its beginning.
      rw [hword, List.nil_append, List.dropWhile_eq_nil_iff.mpr hback]
      rfl
    · obtain ⟨c, cs, hcs⟩ := List.exists_cons_of_ne_nil hword
      have hstarts : (word.toList ++ back).dropWhile isBlank = word.toList ++ back :=
        dropWhile_isBlank_eq_self fun d hd => hhead d (by rw [hcs] at hd ⊢; exact hd)
      rw [hstarts, trimEnd_append_blanks hback, trimEnd_eq_self hlast]
  · rintro rfl
    obtain ⟨⟨back, hback, hblanks⟩, hlast⟩ :=
      exists_eq_trimEnd_append (text.toList.dropWhile isBlank)
    refine ⟨⟨text.toList.takeWhile isBlank, back, ?_, fun c => List.mem_takeWhile_imp, hblanks⟩,
      fun c hc => ?_, ?_⟩
    · rw [trim, String.toList_ofList, ← hback, List.takeWhile_append_dropWhile]
    · have hhead := List.head?_dropWhile_not isBlank text.toList
      rw [trim, String.toList_ofList] at hc
      rw [hback, List.head?_append, hc] at hhead
      exact hhead
    · rw [trim, String.toList_ofList]
      exact hlast

end Text.Blank

/-! ### Names of rules -/

namespace Rule

/-- A text names a rule: it is the rule's name, or its code with letters in any case. -/
structure IsNamed (text : String) (r : Rule) : Prop where
  mem_all : r ∈ all
  named : text = r.name ∨ lower text = lower r.code

/-- A text names one rule at most: names differ, codes differ, and no name is a code. -/
theorem IsNamed.unique {text : String} {r s : Rule} (hr : IsNamed text r) (hs : IsNamed text s) :
    r = s := by
  have hnames : ∀ r ∈ all, ∀ s ∈ all, r.name = s.name → r = s := by decide +kernel
  have hcodes : ∀ r ∈ all, ∀ s ∈ all, lower r.code = lower s.code → r = s := by decide +kernel
  have hnone : ∀ r ∈ all, ∀ s ∈ all, lower r.name ≠ lower s.code := by decide +kernel
  rcases hr.named with rfl | hcode
  · rcases hs.named with hname | hcode
    · exact hnames r hr.mem_all s hs.mem_all hname
    · exact absurd hcode (hnone r hr.mem_all s hs.mem_all)
  · rcases hs.named with rfl | hcode'
    · exact absurd hcode (hnone s hs.mem_all r hr.mem_all)
    · exact hcodes r hr.mem_all s hs.mem_all (hcode.symm.trans hcode')

theorem find?_eq_some_iff {text : String} {r : Rule} : find? text = some r ↔ IsNamed text r := by
  have hnamed : ∀ {s : Rule}, find? text = some s → IsNamed text s := fun h => by
    have hs := List.find?_some h
    rw [Bool.or_eq_true, beq_iff_eq, beq_iff_eq] at hs
    exact ⟨List.mem_of_find?_eq_some h, hs.imp Eq.symm Eq.symm⟩
  refine ⟨hnamed, fun h => ?_⟩
  cases hfind : find? text with
  | some s => rw [(hnamed hfind).unique h]
  | none =>
      have hr := List.find?_eq_none.mp hfind r h.mem_all
      rw [Bool.or_eq_true, beq_iff_eq, beq_iff_eq] at hr
      exact absurd (h.named.imp Eq.symm Eq.symm) hr

end Rule

/-! ### Repeated rules -/

namespace Analyzer

section repeated

variable (root : Path) (config : Config) (classifier : Classifier) (models : List Model)

/-- What is due under the code of a rule is due as often as the rule is registered. -/
theorem count_due {S : List Rule} (hsub : S ⊆ Rule.all) {r : Rule} (hr : r ∈ Rule.all)
    {f : Finding} (hf : f.code = r.code) :
    ((build root S config classifier).due models).count f =
      S.count r * ((build root [r] config classifier).due models).count f := by
  have hentry : ∀ e, ((build root S config classifier).dueAbout models e).count f =
      S.count r * ((build root [r] config classifier).dueAbout models e).count f := by
    intro e
    unfold dueAbout
    cases e.declaration? with
    | none => rfl
    | some d =>
        simp only [build, List.map_cons, List.map_nil, List.flatMap_singleton, List.flatMap_map,
          List.count_flatMap]
        refine List.sum_map_eq_nsmul_single r _ fun s hne hs => List.count_eq_zero.mpr fun hmem => ?_
        -- Another rule has another code, and so have its findings.
        apply hne
        apply eq_of_code_eq s (hsub hs) r hr
        rw [← hf, code_of_mem_dueBy hmem, code_configureFrom]
  rw [due_eq_flatMap, due_eq_flatMap, List.count_flatMap, List.count_flatMap]
  rw [← List.sum_map_mul_left]
  exact congrArg List.sum (List.map_congr_left fun e _ => hentry e)

/-- A finding is reported as often as its rule is registered, compared with all rules. -/
theorem count_findings {S : List Rule} (hsub : S ⊆ Rule.all) (f : Finding) :
    ((build root S config classifier).checkModels models).findings.count f =
      (S.countP fun r => r.code = f.code) *
        ((build root Rule.all config classifier).checkModels models).findings.count f := by
  by_cases hcode : ∃ r ∈ Rule.all, r.code = f.code
  · obtain ⟨r, hr, hcode⟩ := hcode
    have hcount : (S.countP fun s => s.code = f.code) = S.count r := by
      rw [List.count_eq_countP]
      refine List.countP_congr fun s hs => ?_
      rw [decide_eq_true_iff, beq_iff_eq, ← hcode]
      exact ⟨eq_of_code_eq s (hsub hs) r hr, congrArg Rule.code⟩
    have honce : Rule.all.count r = 1 := List.count_eq_one_of_mem (by decide) hr
    rw [(checkModels_isStableSort _ models).perm.count_eq,
      (checkModels_isStableSort _ models).perm.count_eq, hcount,
      count_due root config classifier models hsub hr hcode.symm,
      count_due root config classifier models (List.Subset.refl _) hr hcode.symm, honce, one_mul]
  · -- No rule has the code, so there is no such finding.
    have hnone : ∀ s ∈ S, s.code ≠ f.code := fun s hs heq => hcode ⟨s, hsub hs, heq⟩
    have hzero : (S.countP fun r => r.code = f.code) = 0 :=
      List.countP_eq_zero.mpr fun s hs => by simpa using hnone s hs
    rw [hzero, zero_mul, List.count_eq_zero]
    intro hf
    obtain ⟨e, -, d, -, r, hr, hf⟩ := exists_rule_of_mem_checkModels hf
    obtain ⟨s, hs, rfl⟩ := List.mem_map.mp hr
    apply hnone s hs
    rw [code_of_mem_dueBy hf, code_configureFrom]

end repeated

end Analyzer

/-! ### What a filter mentions -/

namespace CommandLine

open Text.Blank

/-- The segments of a filter: commas between them spell it, and there is no comma in them. -/
structure Separates (filter : String) (segments : List String) : Prop where
  ne_nil : segments ≠ []
  commaless : ∀ segment ∈ segments, ',' ∉ segment.toList
  joined : filter = ",".intercalate segments

/-- A segment mentions the rule that its text names, the blanks around it left out. -/
def Mentions (segment : String) (r : Rule) : Prop :=
  ∃ word, Trims segment word ∧ r.IsNamed word

/-- The rules that some segments mention: one for every segment that mentions a rule, in the order
of the segments. -/
inductive Mentioned : List String → List Rule → Prop
  | nil : Mentioned [] []
  | mention {segment : String} {r : Rule} {segments : List String} {rules : List Rule} :
      Mentions segment r → Mentioned segments rules → Mentioned (segment :: segments) (r :: rules)
  | other {segment : String} {segments : List String} {rules : List Rule} :
      (∀ r, ¬ Mentions segment r) → Mentioned segments rules →
        Mentioned (segment :: segments) rules

theorem mentions_iff {segment : String} {r : Rule} :
    Mentions segment r ↔ Rule.find? (trim segment) = some r := by
  simp only [Mentions, trims_iff, Rule.find?_eq_some_iff, exists_eq_left']

theorem Mentions.unique {segment : String} {r s : Rule} (hr : Mentions segment r)
    (hs : Mentions segment s) : r = s :=
  Option.some.inj ((mentions_iff.mp hr).symm.trans (mentions_iff.mp hs))

namespace Mentioned

variable {segments : List String} {rules : List Rule} (h : Mentioned segments rules)
include h

theorem mem_iff {r : Rule} : r ∈ rules ↔ ∃ segment ∈ segments, Mentions segment r := by
  induction h with
  | nil => simp
  | @mention segment s segments rules hs _ ih =>
      have hhead : Mentions segment r ↔ r = s := ⟨fun hr => hr.unique hs, fun heq => heq ▸ hs⟩
      rw [List.mem_cons, List.exists_mem_cons_iff, ih, hhead]
  | other hnone _ ih => rw [List.exists_mem_cons_iff, ih, or_iff_right (hnone r)]

theorem ne_nil_iff : rules ≠ [] ↔ ∃ segment ∈ segments, ∃ r, Mentions segment r := by
  constructor
  · intro hne
    obtain ⟨r, hr⟩ := List.exists_mem_of_ne_nil rules hne
    obtain ⟨segment, hsegment, hmentions⟩ := h.mem_iff.mp hr
    exact ⟨segment, hsegment, r, hmentions⟩
  · rintro ⟨segment, hsegment, r, hmentions⟩
    exact List.ne_nil_of_mem (h.mem_iff.mpr ⟨segment, hsegment, hmentions⟩)

theorem subset_all : rules ⊆ Rule.all := by
  intro r hr
  obtain ⟨_, -, _, -, hnamed⟩ := h.mem_iff.mp hr
  exact hnamed.mem_all

/-- No rule is chosen twice exactly if no two segments mention the same one. -/
theorem nodup_iff :
    rules.Nodup ↔ segments.Pairwise fun s t => ∀ r, Mentions s r → ¬ Mentions t r := by
  induction h with
  | nil => simp
  | @mention segment r segments rules hr hrest ih =>
      rw [List.nodup_cons, List.pairwise_cons, ih, hrest.mem_iff]
      refine and_congr_left fun _ => ⟨fun hnone t ht s hs ht' => ?_, ?_⟩
      · exact hnone ⟨t, ht, hs.unique hr ▸ ht'⟩
      · rintro hnone ⟨t, ht, ht'⟩
        exact hnone t ht r hr ht'
  | other hnone _ ih =>
      rw [List.pairwise_cons, ih]
      exact (and_iff_right fun _ _ r hr => absurd hr (hnone r)).symm

end Mentioned

/-- The segments of a filter, and the rules that are found for them. -/
theorem exists_separates (filter : String) :
    ∃ segments, Separates filter segments ∧
      (filterWords filter).filterMap Rule.find? =
        segments.filterMap fun segment => Rule.find? (trim segment) := by
  refine ⟨(filter.toList.splitOn ',').map String.ofList, ⟨?_, ?_, ?_⟩, ?_⟩
  · exact fun h => List.splitOn_ne_nil _ _ (List.map_eq_nil_iff.mp h)
  · intro segment hsegment hcomma
    obtain ⟨cs, hcs, rfl⟩ := List.mem_map.mp hsegment
    rw [String.toList_ofList] at hcomma
    exact (Path.mem_of_mem_splitOn hcs ',' hcomma).2 rfl
  · rw [← String.toList_inj, String.toList_intercalate, List.map_map]
    have hid : String.toList ∘ String.ofList = id := funext fun cs => String.toList_ofList
    rw [hid, List.map_id]
    exact (List.intercalate_splitOn ',').symm
  · -- An empty word names no rule, so leaving it out changes nothing.
    rw [filterWords, List.filterMap_filter, List.filterMap_map, List.filterMap_map]
    refine List.filterMap_congr fun cs _ => ?_
    simp only [Function.comp]
    split
    · rfl
    · rename_i hempty
      have hword : trim (String.ofList cs) = "" := by simpa using hempty
      rw [hword]
      rfl

theorem mentioned_filterMap (segments : List String) :
    Mentioned segments (segments.filterMap fun segment => Rule.find? (trim segment)) := by
  induction segments with
  | nil => exact .nil
  | cons segment segments ih =>
      rw [List.filterMap_cons]
      cases hfind : Rule.find? (trim segment) with
      | none =>
          refine .other (fun r hr => ?_) ih
          rw [mentions_iff, hfind] at hr
          cases hr
      | some r => exact .mention (mentions_iff.mpr hfind) ih

/-- A filter is refused if nothing is found for its words, and chooses what is found otherwise. -/
theorem selectRules_filter (config : Config) (filter : String) :
    selectRules config (some filter) =
      if (filterWords filter).filterMap Rule.find? = [] then .error (.noKnownRules filter)
      else .ok ((filterWords filter).filterMap Rule.find?) := by
  unfold selectRules
  dsimp only
  split
  · rename_i hnil
    rw [if_pos hnil]
  · rename_i hne
    rw [if_neg hne]

/-- **What a filter chooses.**  Commas separate it into segments.  It is refused exactly if no
segment mentions a rule; otherwise it chooses one rule for every segment that mentions one, in their
order, and so exactly the rules that are mentioned.  No rule is chosen twice exactly if no two
segments mention the same one; and each finding of the report for all rules is reported as often as
its rule is chosen. -/
theorem selectRules_mentioned (config : Config) (filter : String) :
    ∃ segments rules, Separates filter segments ∧ Mentioned segments rules ∧
      (selectRules config (some filter) = .error (.noKnownRules filter) ↔
        ¬ ∃ segment ∈ segments, ∃ r, Mentions segment r) ∧
      (selectRules config (some filter) = .ok rules ↔
        ∃ segment ∈ segments, ∃ r, Mentions segment r) ∧
      (∀ r, r ∈ rules ↔ ∃ segment ∈ segments, Mentions segment r) ∧
      (rules.Nodup ↔ segments.Pairwise fun s t => ∀ r, Mentions s r → ¬ Mentions t r) ∧
      ∀ (root : Path) (classifier : Classifier) (models : List Model) (f : Finding),
        ((Analyzer.build root rules config classifier).checkModels models).findings.count f =
          (rules.countP fun r => r.code = f.code) *
            ((Analyzer.build root Rule.all config classifier).checkModels
              models).findings.count f := by
  obtain ⟨segments, hsegments, hfound⟩ := exists_separates filter
  have hrules := mentioned_filterMap segments
  have hselect := selectRules_filter config filter
  rw [hfound] at hselect
  refine ⟨segments, _, hsegments, hrules, ?_, ?_, fun r => hrules.mem_iff, hrules.nodup_iff,
    fun root classifier models f =>
      Analyzer.count_findings root config classifier models hrules.subset_all f⟩
  · rw [← hrules.ne_nil_iff, hselect, not_not]
    split
    · rename_i hnil
      exact iff_of_true rfl hnil
    · rename_i hne
      exact iff_of_false nofun hne
  · rw [← hrules.ne_nil_iff, hselect]
    split
    · rename_i hnil
      exact iff_of_false nofun (not_not_intro hnil)
    · rename_i hne
      exact iff_of_true rfl hne

/-- A filter that mentions a rule by its code and by its name chooses it twice, and what the rule
finds is reported twice. -/
theorem selectRules_repeats :
    selectRules .default (some "EL001") = .ok [Rule.columnComment] ∧
      selectRules .default (some "EL001,entity-column-comment") =
        .ok [Rule.columnComment, Rule.columnComment] ∧
      ∃ f, ((Analyzer.build ⟨"/app"⟩ [Rule.columnComment] .default .conventions).checkModels
            [Analyzer.mutableDay]).findings = [f] ∧
        ((Analyzer.build ⟨"/app"⟩ [Rule.columnComment, Rule.columnComment] .default
            .conventions).checkModels [Analyzer.mutableDay]).findings = [f, f] := by
  have hchosen : (filterWords "EL001").filterMap Rule.find? = [Rule.columnComment] ∧
      (filterWords "EL001,entity-column-comment").filterMap Rule.find? =
        [Rule.columnComment, Rule.columnComment] := by
    decide +kernel
  have hdue : ∃ f, (Analyzer.build ⟨"/app"⟩ [Rule.columnComment] .default .conventions).due
        [Analyzer.mutableDay] = [f] ∧
      (Analyzer.build ⟨"/app"⟩ [Rule.columnComment, Rule.columnComment] .default
        .conventions).due [Analyzer.mutableDay] = [f, f] :=
    ⟨_, rfl, rfl⟩
  obtain ⟨f, honce, htwice⟩ := hdue
  refine ⟨?_, ?_, f, ?_, ?_⟩
  · rw [selectRules_filter, hchosen.1, if_neg (List.cons_ne_nil _ _)]
  · rw [selectRules_filter, hchosen.2, if_neg (List.cons_ne_nil _ _)]
  · have hperm := (Analyzer.checkModels_isStableSort _ _).perm.trans (.of_eq honce)
    exact hperm.eq_singleton
  · have hperm := (Analyzer.checkModels_isStableSort _ _).perm.trans (.of_eq htwice)
    exact List.perm_replicate.mp (show List.Perm _ (List.replicate 2 f) from hperm)

end CommandLine

end EntityConventions
