import EntityConventions.Proofs.Walking

/-! # What patterns with `**` match

A plain text as a pattern matches itself (`Glob.isMatch_plain_iff`).  Behind a plain directory `/**`
matches all that begins with the directory and a slash (`Glob.isMatch_below_iff`).  With `**/` in
front as well, a pattern matches the texts that have the directory and a slash at their beginning or
right behind a slash (`Glob.isMatch_anywhere_iff`).

Where a pattern has no wildcard but `**`, a match splits the text at the ends of its plain pieces
(`Glob.matchTokens_map_char`, `Glob.matchTokens_anyParts_iff`). -/

namespace EntityConventions.Glob

/-! ### Tokens -/

/-- A plain directory and all that is below it. -/
def tokensBelow (cs : List Char) : List Token :=
  cs.map .char ++ [.char '/', .anyParts]

theorem tokens_below {cs : List Char} (h : IsPlain cs) {fuel : Nat} (hfuel : cs.length + 2 ≤ fuel)
    (position : Nat) (before : Option Char) :
    tokens fuel position before (cs ++ ['/', '*', '*']) = .ok (tokensBelow cs) := by
  have hplain : IsPlain (cs ++ ['/']) := by
    intro c hc
    rcases List.mem_append.mp hc with hc | hc
    · exact h c hc
    · rw [List.mem_singleton.mp hc]
      decide
  obtain ⟨more, rfl⟩ := Nat.exists_eq_add_of_le hfuel
  have htokens := tokens_append_of_isPlain hplain (more + 1) position before ['*', '*']
  simp only [List.length_append, List.length_singleton, List.append_assoc, List.singleton_append,
    List.getLast?_append, List.getLast?_singleton, Option.some_or, List.map_append] at htokens
  rw [show cs.length + 2 + more = cs.length + 1 + (more + 1) by omega, htokens]
  simp [tokens, tokensBelow, Except.map]

theorem compile_plain {d : String} (h : IsPlain d.toList) :
    compile d = .ok (d.toList.map .char) :=
  tokens_of_isPlain h (Nat.le_succ _) 0 none

theorem compile_below {d : String} (h : IsPlain d.toList) :
    compile (d ++ "/**") = .ok (tokensBelow d.toList) := by
  rw [compile, String.toList_append]
  exact tokens_below h (by simp) 0 none

theorem compile_anywhere {d : String} (h : IsPlain d.toList) :
    compile ("**/" ++ d ++ "/**") = .ok (.anyParts :: tokensBelow d.toList) := by
  have htext :
      ("**/" ++ d ++ "/**").toList = '*' :: '*' :: '/' :: (d.toList ++ ['/', '*', '*']) := by
    simp [String.toList_append]
  have hfuel : d.toList.length + 2 ≤ d.toList.length + 6 := by omega
  have hbelow := tokens_below h hfuel 3 (some '/')
  rw [compile, htext, show ('*' :: '*' :: '/' :: (d.toList ++ ['/', '*', '*'])).length + 1 =
    d.toList.length + 6 + 1 by simp, tokens]
  simp [hbelow]

/-! ### Matching tokens -/

theorem mem_tails_iff {α : Type} {s l : List α} : s ∈ tails l ↔ s <:+ l := by
  induction l with
  | nil => simp [tails]
  | cons a l ih => rw [tails, List.mem_cons, ih, List.suffix_cons_iff]

theorem matchTokens_char_cons (c : Char) (ts : List Token) :
    matchTokens (.char c :: ts) = startsWith (c == ·) (matchTokens ts) :=
  matchTokens_cons (by simp) (by simp) ts

/-- Characters match themselves, and what follows them matches what is behind. -/
theorem matchTokens_map_char (cs : List Char) (ts : List Token) (text : List Char) :
    matchTokens (cs.map .char ++ ts) text = true ↔
      ∃ rest, text = cs ++ rest ∧ matchTokens ts rest = true := by
  induction cs generalizing text with
  | nil => simp
  | cons c cs ih =>
      rw [List.map_cons, List.cons_append, matchTokens_char_cons]
      cases text with
      | nil => simp [startsWith]
      | cons d text =>
          simp only [startsWith, Bool.and_eq_true, beq_iff_eq, ih, List.cons_append,
            List.cons.injEq]
          grind

theorem matchTokens_tokensBelow (cs text : List Char) :
    matchTokens (tokensBelow cs) text = true ↔ ∃ rest, text = cs ++ '/' :: rest := by
  have hsplit : tokensBelow cs = (cs ++ ['/']).map .char ++ [.anyParts] := by
    simp [tokensBelow]
  rw [hsplit, matchTokens_map_char]
  simp [matchTokens]

theorem behindSlash_eq_true_iff {p : List Char → Bool} {s : List Char} :
    behindSlash p s = true ↔ ∃ rest, s = '/' :: rest ∧ p rest = true := by
  unfold behindSlash
  split
  · simp
  · rename_i h
    simp only [Bool.false_eq_true, false_iff, not_exists, not_and]
    exact fun rest hrest => absurd hrest (h rest)

/-- Any number of parts is nothing, or reaches up to some slash. -/
theorem matchTokens_anyParts_iff {ts : List Token} (hts : ts ≠ []) (text : List Char) :
    matchTokens (.anyParts :: ts) text = true ↔ ∃ before rest, text = before ++ rest ∧
      (before = [] ∨ ∃ front, before = front ++ ['/']) ∧ matchTokens ts rest = true := by
  simp only [matchTokens_anyParts, Bool.or_eq_true, List.isEmpty_iff, hts, false_or,
    List.any_eq_true, mem_tails_iff, behindSlash_eq_true_iff]
  constructor
  · rintro (h | ⟨_, ⟨front, rfl⟩, rest, rfl, h⟩)
    · exact ⟨[], text, rfl, .inl rfl, h⟩
    · exact ⟨front ++ ['/'], rest, by simp, .inr ⟨front, rfl⟩, h⟩
  · rintro ⟨_, rest, rfl, rfl | ⟨front, rfl⟩, h⟩
    · exact .inl h
    · exact .inr ⟨'/' :: rest, ⟨front, by simp⟩, rest, rfl, h⟩

/-! ### Matching texts -/

theorem isMatch_eq_true_iff {pattern text : String} {ts : List Token}
    (h : compile pattern = .ok ts) :
    isMatch pattern text = true ↔ matchTokens ts text.toList = true := by
  rw [isMatch, h, ← matchesAll_eq]

theorem isMatch_plain_iff {d : String} (h : IsPlain d.toList) (text : String) :
    isMatch d text = true ↔ text = d := by
  have hchars := matchTokens_map_char d.toList [] text.toList
  rw [List.append_nil] at hchars
  rw [isMatch_eq_true_iff (compile_plain h), hchars, ← String.toList_inj]
  simp [matchTokens]

theorem isMatch_below_iff {d : String} (h : IsPlain d.toList) (text : String) :
    isMatch (d ++ "/**") text = true ↔ ∃ rest, text = d ++ "/" ++ rest := by
  rw [isMatch_eq_true_iff (compile_below h), matchTokens_tokensBelow]
  constructor
  · rintro ⟨rest, hrest⟩
    exact ⟨String.ofList rest, by simp [← String.toList_inj, hrest]⟩
  · rintro ⟨rest, rfl⟩
    exact ⟨rest.toList, by simp⟩

theorem isMatch_anywhere_iff {d : String} (h : IsPlain d.toList) (text : String) :
    isMatch ("**/" ++ d ++ "/**") text = true ↔ ∃ before after,
      text = before ++ d ++ "/" ++ after ∧ (before = "" ∨ ∃ front, before = front ++ "/") := by
  rw [isMatch_eq_true_iff (compile_anywhere h), matchTokens_anyParts_iff (by simp [tokensBelow])]
  simp only [matchTokens_tokensBelow]
  constructor
  · rintro ⟨before, _, htext, hbefore, after, rfl⟩
    refine ⟨String.ofList before, String.ofList after, by simp [← String.toList_inj, htext], ?_⟩
    rcases hbefore with rfl | ⟨front, rfl⟩
    · exact .inl rfl
    · exact .inr ⟨String.ofList front, by simp⟩
  · rintro ⟨before, after, rfl, hbefore⟩
    refine ⟨before.toList, d.toList ++ '/' :: after.toList, by simp, ?_, after.toList, rfl⟩
    rcases hbefore with rfl | ⟨front, rfl⟩
    · exact .inl rfl
    · exact .inr ⟨front.toList, by simp⟩

end EntityConventions.Glob
