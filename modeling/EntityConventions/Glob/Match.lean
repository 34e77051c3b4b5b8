import EntityConventions.Glob.Pattern

/-! # Matching glob patterns

`Glob.matchTokens` says whether tokens match a whole text; here a slash is a character like any
other.  Trying every way of splitting the text at each wildcard may take very long, so that
`Glob.matchEnds` finds the answers for all ends of the text at once, token by token from the last
one.  `matchEnds_eq_map_tails` says that both agree, and `isMatch` is the first of the answers. -/

namespace EntityConventions.Glob

/-- Whether a character is in a set. -/
def inSet (set : List CharRange) (c : Char) : Bool :=
  set.any fun r => r.low ≤ c && c ≤ r.high

/-- Whether a token that stands for one character accepts it. -/
def Token.accepts : Token → Char → Bool
  | .char a, c => a == c
  | .anyChar, _ => true
  | .within set, c => inSet set c
  | .except set, c => !inSet set c
  | .anySequence, _ => false
  | .anyParts, _ => false

/-- A list and all its ends, the longest first. -/
def tails {α : Type} : List α → List (List α)
  | [] => [[]]
  | a :: as => (a :: as) :: tails as

/-- Whether a predicate holds behind a slash in front. -/
def behindSlash (p : List Char → Bool) : List Char → Bool
  | '/' :: rest => p rest
  | _ => false

/-- Whether tokens match a whole text.  Any number of parts is nothing, or everything up to some
slash; at the end of a pattern it is whatever is left. -/
def matchTokens : List Token → List Char → Bool
  | [], cs => cs.isEmpty
  | .anySequence :: ts, cs => (tails cs).any fun rest => matchTokens ts rest
  | .anyParts :: ts, cs =>
      ts.isEmpty || matchTokens ts cs ||
        (tails cs).any (behindSlash fun rest => matchTokens ts rest)
  | _ :: _, [] => false
  | t :: ts, c :: cs => t.accepts c && matchTokens ts cs

/-! ### All ends of a text at once -/

/-- From answers for all ends of a text, the answers for one character and then an end. -/
def behindChar (p : Char → Bool) : List Char → List Bool → List Bool
  | [], _ => [false]
  | c :: cs, answers => (p c && answers.tail.headD false) :: behindChar p cs answers.tail

/-- From answers for all ends of a text, the answers for some end of each. -/
def someEnd : List Bool → List Bool
  | [] => []
  | b :: bs =>
      let rest := someEnd bs
      (b || rest.headD false) :: rest

/-- For every end of a text, the longest first, whether tokens match it. -/
def matchEnds : List Token → List Char → List Bool
  | [], cs => (tails cs).map List.isEmpty
  | .anySequence :: ts, cs => someEnd (matchEnds ts cs)
  | .anyParts :: ts, cs =>
      let answers := matchEnds ts cs
      List.zipWith (fun here behind => ts.isEmpty || here || behind) answers
        (someEnd (behindChar (· == '/') cs answers))
  | t :: ts, cs => behindChar t.accepts cs (matchEnds ts cs)

/-- Whether a compiled pattern matches a whole text. -/
def matchesAll (ts : List Token) (cs : List Char) : Bool :=
  (matchEnds ts cs).headD false

/-- Whether a pattern matches a whole text; a pattern that does not compile matches none. -/
def isMatch (pattern text : String) : Bool :=
  match compile pattern with
  | .ok ts => matchesAll ts text.toList
  | .error _ => false

/-! ### Both ways agree -/

theorem head?_tails {α : Type} (as : List α) : (tails as).head? = some as := by
  cases as <;> rfl

theorem someEnd_map_tails {α : Type} (f : List α → Bool) (as : List α) :
    someEnd ((tails as).map f) = (tails as).map fun s => (tails s).any f := by
  induction as with
  | nil => simp [tails, someEnd]
  | cons a as ih => simp [tails, someEnd, ih, head?_tails]

/-- What one character and then a text satisfies. -/
def startsWith (p : Char → Bool) (f : List Char → Bool) : List Char → Bool
  | [] => false
  | c :: cs => p c && f cs

theorem behindChar_map_tails (p : Char → Bool) (f : List Char → Bool) (cs : List Char) :
    behindChar p cs ((tails cs).map f) = (tails cs).map (startsWith p f) := by
  induction cs with
  | nil => rfl
  | cons c cs ih => simp [tails, behindChar, startsWith, ih, head?_tails]

theorem startsWith_slash (f : List Char → Bool) : startsWith (· == '/') f = behindSlash f := by
  funext s
  unfold behindSlash
  split
  · simp [startsWith]
  · rename_i h
    cases s with
    | nil => rfl
    | cons c cs =>
        have hc : c ≠ '/' := fun e => h cs (by rw [e])
        simp [startsWith, hc]

theorem matchTokens_anySequence (ts : List Token) :
    matchTokens (.anySequence :: ts) = fun s => (tails s).any (matchTokens ts) := by
  funext s
  rw [matchTokens]

theorem matchTokens_anyParts (ts : List Token) :
    matchTokens (.anyParts :: ts) = fun s =>
      ts.isEmpty || matchTokens ts s || (tails s).any (behindSlash (matchTokens ts)) := by
  funext s
  rw [matchTokens]

/-- Any other token stands for one character. -/
theorem matchTokens_cons {t : Token} (hs : t ≠ .anySequence) (hp : t ≠ .anyParts)
    (ts : List Token) : matchTokens (t :: ts) = startsWith t.accepts (matchTokens ts) := by
  funext s
  cases s <;> rw [matchTokens, startsWith] <;> simp_all

/-- The answers for all ends of a text are those of the tokens. -/
theorem matchEnds_eq_map_tails (ts : List Token) (cs : List Char) :
    matchEnds ts cs = (tails cs).map (matchTokens ts) := by
  induction ts with
  | nil =>
      have h : matchTokens [] = List.isEmpty := by
        funext s
        rw [matchTokens]
      rw [matchEnds, h]
  | cons t ts ih =>
      by_cases hs : t = .anySequence
      · rw [hs, matchEnds, ih, someEnd_map_tails, matchTokens_anySequence]
      · by_cases hp : t = .anyParts
        · rw [hp, matchEnds, ih, behindChar_map_tails, startsWith_slash, someEnd_map_tails,
            matchTokens_anyParts, List.zipWith_map, List.zipWith_self]
        · rw [matchEnds, ih, behindChar_map_tails, matchTokens_cons hs hp]
          · exact hs
          · exact hp

/-- A compiled pattern matches a text if its tokens do. -/
theorem matchesAll_eq (ts : List Token) (cs : List Char) :
    matchesAll ts cs = matchTokens ts cs := by
  simp [matchesAll, matchEnds_eq_map_tails, head?_tails]

end EntityConventions.Glob
