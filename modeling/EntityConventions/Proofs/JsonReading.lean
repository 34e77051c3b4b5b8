import EntityConventions.Proofs.JsonGrammar
import Mathlib.Data.List.DropRight

/-! # Every text of a value is read

Each reader, put in front of what the grammar derives, returns the value and stops exactly there
(`pieces_written`, `number_written`, `value_written`).  A number ends only where something follows
that cannot be more of it, so values are read in front of a `Delimited` rest; everything that
follows a value inside a text is.  The bound on nested calls is no obstacle, because a text is
longer than its values nest.  `Json.parse` therefore accepts every text (`parse_of_isText`). -/

namespace EntityConventions.Json

open Decimal

/-! ### Blanks -/

theorem isSpace_iff (c : Char) : Reader.isSpace c = true ↔ c ∈ [' ', '\n', '\r', '\t'] := by
  simp [Reader.isSpace, or_assoc]

theorem skipSpace_blank {b : List Char} (hb : Blank b) (cs : List Char) :
    Reader.skipSpace (b ++ cs) = Reader.skipSpace cs := by
  unfold Reader.skipSpace
  rw [List.dropWhile_append_of_pos fun c hc => (isSpace_iff c).mpr (hb c hc)]

theorem skipSpace_eq_nil {b : List Char} (hb : Blank b) : Reader.skipSpace b = [] := by
  have h := skipSpace_blank hb []
  rw [List.append_nil] at h
  exact h

theorem skipSpace_cons {c : Char} (hc : Reader.isSpace c = false) (cs : List Char) :
    Reader.skipSpace (c :: cs) = c :: cs := by
  simp [Reader.skipSpace, hc]

theorem skipSpace_before {b : List Char} (hb : Blank b) (c : Char)
    (hc : Reader.isSpace c = false) (cs : List Char) :
    Reader.skipSpace (b ++ c :: cs) = c :: cs := by
  rw [skipSpace_blank hb, skipSpace_cons hc]

/-! ### Strings -/

theorem HexDigit.lt {v : Nat} {c : Char} (h : HexDigit v c) : v < 16 := by
  rcases h with h | h <;> exact (List.getElem?_eq_some_iff.mp h).1

theorem hexValue?_hexDigit {v : Nat} {c : Char} (h : HexDigit v c) :
    Reader.hexValue? c = some v := by
  have hv : v < 16 := h.lt
  interval_cases v <;> simp [HexDigit] at h <;> rcases h with rfl | rfl <;> rfl

theorem escaped?_of_mem {letter c : Char} (h : (letter, c) ∈ shortEscapes) :
    Reader.escaped? letter = some c := by
  simp only [shortEscapes, List.mem_cons, Prod.mk.injEq, List.not_mem_nil, or_false] at h
  rcases h with h | h | h | h | h | h | h | h <;> obtain ⟨rfl, rfl⟩ := h <;> rfl

theorem pieces_plain {c : Char} (hquote : c ≠ '"') (hback : c ≠ '\\') (hcontrol : 0x20 ≤ c.toNat)
    (cs : List Char) :
    Reader.pieces (c :: cs) = (Reader.pieces cs).map fun p => (.char c :: p.1, p.2) := by
  rw [Reader.pieces.eq_def]
  split
  · simp_all
  · simp_all
  · simp_all
  · simp_all
  · rename_i heq
    obtain ⟨rfl, rfl⟩ := List.cons.inj heq
    rw [if_neg (by simp [hback]; omega)]
    cases Reader.pieces _ <;> rfl

theorem pieces_short {letter c : Char} (h : (letter, c) ∈ shortEscapes) (cs : List Char) :
    Reader.pieces ('\\' :: letter :: cs) =
      (Reader.pieces cs).map fun p => (.char c :: p.1, p.2) := by
  have hu : letter ≠ 'u' := by
    rintro rfl
    simp [shortEscapes] at h
  rw [Reader.pieces.eq_def]
  split
  · simp_all
  · simp_all
  · simp_all
  · rename_i heq
    simp only [List.cons.injEq, true_and] at heq
    obtain ⟨rfl, rfl⟩ := heq
    rw [escaped?_of_mem h]
    cases Reader.pieces _ <;> rfl
  · rename_i hnone heq
    simp only [List.cons.injEq] at heq
    obtain ⟨rfl, rfl⟩ := heq
    exact absurd rfl (hnone letter cs rfl)

theorem pieces_unit {n : Nat} {ds : List Char} (h : UnitWritten n ds) (cs : List Char) :
    Reader.pieces ('\\' :: 'u' :: ds ++ cs) =
      (Reader.pieces cs).map fun p => (.ofUnit n :: p.1, p.2) := by
  obtain ⟨ha, hb, hc, hd⟩ := h
  rename_i v w x y a b c d
  have hval : Reader.hexValue4? a b c d = some (v * 4096 + w * 256 + x * 16 + y) := by
    simp only [Reader.hexValue4?, hexValue?_hexDigit ha, hexValue?_hexDigit hb,
      hexValue?_hexDigit hc, hexValue?_hexDigit hd]
    simp
    omega
  simp only [List.cons_append, List.nil_append]
  rw [Reader.pieces, hval]
  cases Reader.pieces _ <;> rfl

theorem pieces_written {ps : List Reader.Piece} {cs : List Char} (h : PiecesWritten ps cs)
    (rest : List Char) : Reader.pieces (cs ++ '"' :: rest) = some (ps, rest) := by
  induction h with
  | nil => rfl
  | plain hquote hback hcontrol _ ih =>
      rw [List.cons_append, pieces_plain hquote hback hcontrol, ih]
      rfl
  | short h _ ih =>
      rw [List.cons_append, List.cons_append, pieces_short h, ih]
      rfl
  | unit h _ ih =>
      rw [List.append_assoc, pieces_unit h, ih]
      rfl

theorem ofUnit_toNat (c : Char) : Reader.Piece.ofUnit c.toNat = .char c := by
  have hvalid : c.toNat < 0xD800 ∨ 0xDFFF < c.toNat ∧ c.toNat < 0x110000 := c.valid
  rw [Reader.Piece.ofUnit, if_neg (by omega), Char.ofNat_toNat]

/-- The two units of a surrogate pair stand for the character they were made from. -/
theorem join_pair {c : Char} (hc : 0x10000 ≤ c.toNat) (ps : List Reader.Piece) :
    Reader.join (.ofUnit (0xD800 + (c.toNat - 0x10000) / 0x400) ::
        .ofUnit (0xDC00 + (c.toNat - 0x10000) % 0x400) :: ps) =
      (Reader.join ps).map (c :: ·) := by
  have hvalid : c.toNat < 0xD800 ∨ 0xDFFF < c.toNat ∧ c.toNat < 0x110000 := c.valid
  rw [Reader.Piece.ofUnit, if_pos (by omega), Reader.Piece.ofUnit, if_pos (by omega), Reader.join,
    if_pos (by omega)]
  have hback : 0x10000 + (0xD800 + (c.toNat - 0x10000) / 0x400 - 0xD800) * 0x400 +
      (0xDC00 + (c.toNat - 0x10000) % 0x400 - 0xDC00) = c.toNat := by omega
  rw [hback, Char.ofNat_toNat]

/-- What is written for some characters is read as pieces that join to them. -/
theorem exists_pieces {s cs : List Char} (h : CharsWritten s cs) :
    ∃ ps, PiecesWritten ps cs ∧ Reader.join ps = some s := by
  induction h with
  | nil => exact ⟨[], .nil, rfl⟩
  | @cons c s cs ds hc _ ih =>
      obtain ⟨ps, hps, hjoin⟩ := ih
      cases hc with
      | plain hquote hback hcontrol =>
          exact ⟨.char c :: ps, .plain hquote hback hcontrol hps, by rw [Reader.join, hjoin]; rfl⟩
      | short hmem => exact ⟨.char c :: ps, .short hmem hps, by rw [Reader.join, hjoin]; rfl⟩
      | unit hunit =>
          refine ⟨_, .unit hunit hps, ?_⟩
          rw [ofUnit_toNat, Reader.join, hjoin]
          rfl
      | pair hlarge hhigh hlow =>
          refine ⟨_, by simpa using PiecesWritten.unit hhigh (.unit hlow hps), ?_⟩
          rw [join_pair hlarge, hjoin]
          rfl

theorem string_written {t : Option String} {cs : List Char} (h : StringWritten t cs)
    (rest : List Char) : Reader.string (cs ++ '"' :: rest) = some (t, rest) := by
  cases h with
  | text h =>
      obtain ⟨ps, hps, hjoin⟩ := exists_pieces h
      simp [Reader.string, pieces_written hps, hjoin]
  | broken h hlone => simp [Reader.string, pieces_written h, hlone]

/-! ### Numbers -/

/-- What follows is not more of a number. -/
def Unnumeric (rest : List Char) : Prop :=
  ∀ c ∈ rest.head?, c.isDigit = false ∧ c ≠ '.' ∧ c ≠ 'e' ∧ c ≠ 'E'

theorem digits_written {ds : List Char} (h : IsDigits ds) {rest : List Char}
    (hrest : ∀ c ∈ rest.head?, c.isDigit = false) :
    Reader.digits (ds ++ rest) = some (ds, rest) := by
  have htake : rest.takeWhile Char.isDigit = [] := by
    cases rest with
    | nil => rfl
    | cons c rest => simp [hrest c rfl]
  have hdrop : rest.dropWhile Char.isDigit = rest := by
    cases rest with
    | nil => rfl
    | cons c rest => simp [hrest c rfl]
  unfold Reader.digits
  rw [List.takeWhile_append_of_pos h.2, List.dropWhile_append_of_pos h.2, htake, hdrop,
    List.append_nil]
  split
  · exact absurd rfl h.1
  · rfl

theorem fraction_written {f : Option (List Char)} {fs : List Char} (h : FractionWritten f fs)
    {rest : List Char} (hrest : ∀ c ∈ rest.head?, c.isDigit = false ∧ c ≠ '.') :
    Reader.fraction (fs ++ rest) = some (f, rest) := by
  cases h with
  | absent =>
      cases rest with
      | nil => rfl
      | cons c rest =>
          have hc := (hrest c rfl).2
          rw [List.nil_append, Reader.fraction]
          rintro cs ⟨⟩
          exact hc rfl
  | digits h =>
      rw [List.cons_append, Reader.fraction, digits_written h fun c hc => (hrest c hc).1]
      rfl

theorem sign_of_digits {ds : List Char} (h : IsDigits ds) (rest : List Char) :
    Reader.sign (ds ++ rest) = (false, ds ++ rest) := by
  obtain ⟨hne, hdigit⟩ := h
  cases ds with
  | nil => exact absurd rfl hne
  | cons d ds =>
      have hd := hdigit d List.mem_cons_self
      rw [List.cons_append, Reader.sign]
      · rintro cs ⟨⟩
        revert hd
        decide
      · rintro cs ⟨⟩
        revert hd
        decide

theorem exponent_written {e : Option Int} {es : List Char} (h : ExponentWritten e es)
    {rest : List Char} (hrest : Unnumeric rest) :
    Reader.exponent (es ++ rest) = some (e, rest) := by
  have hdigit : ∀ c ∈ rest.head?, c.isDigit = false := fun c hc => (hrest c hc).1
  cases h with
  | absent =>
      cases rest with
      | nil => rfl
      | cons c rest =>
          obtain ⟨-, -, he, hE⟩ := hrest c rfl
          simp [Reader.exponent, he, hE]
  | unsigned hmark h =>
      simp [Reader.exponent, hmark, sign_of_digits h, digits_written h hdigit]
  | plus hmark h =>
      simp [Reader.exponent, hmark, Reader.sign, digits_written h hdigit]
  | minus hmark h =>
      simp [Reader.exponent, hmark, Reader.sign, digits_written h hdigit]

/-- Neither digits nor a point follow where an exponent may stand. -/
theorem head?_exponent {e : Option Int} {es : List Char} (h : ExponentWritten e es)
    {rest : List Char} (hrest : Unnumeric rest) :
    ∀ c ∈ (es ++ rest).head?, c.isDigit = false ∧ c ≠ '.' := by
  intro c hc
  have hmarked : ∀ mark : Char, mark = 'e' ∨ mark = 'E' → mark.isDigit = false ∧ mark ≠ '.' := by
    rintro mark (rfl | rfl) <;> decide
  cases h with
  | absent => exact ⟨(hrest c hc).1, (hrest c hc).2.1⟩
  | unsigned hmark _ => exact hmarked c (Option.some.inj hc ▸ hmark)
  | plus hmark _ => exact hmarked c (Option.some.inj hc ▸ hmark)
  | minus hmark _ => exact hmarked c (Option.some.inj hc ▸ hmark)

/-- No digit follows where a fraction may stand. -/
theorem head?_fraction {f : Option (List Char)} {fs : List Char} (h : FractionWritten f fs)
    {rest : List Char} (hrest : ∀ c ∈ rest.head?, c.isDigit = false) :
    ∀ c ∈ (fs ++ rest).head?, c.isDigit = false := by
  intro c hc
  cases h with
  | absent => exact hrest c hc
  | digits _ =>
      obtain rfl := Option.some.inj hc
      rfl

theorem unsigned_written (negative : Bool) {ds fs es : List Char} {f : Option (List Char)}
    {e : Option Int} (h : IsWhole ds) (hf : FractionWritten f fs) (he : ExponentWritten e es)
    {rest : List Char} (hrest : Unnumeric rest) :
    Reader.unsigned negative (ds ++ (fs ++ (es ++ rest))) =
      some (match f, e with
        | none, none => .integer negative (Digits.toNat ds)
        | f, e => .decimal negative (Digits.toNat (ds ++ f.getD [])) (f.getD []).length (e.getD 0),
        rest) := by
  have hexp := head?_exponent he hrest
  have hwhole : ¬ (ds.head? = some '0' ∧ ds.length ≠ 1) := fun hz => hz.2 (h.2 hz.1)
  simp only [Reader.unsigned, digits_written h.1 (head?_fraction hf fun c hc => (hexp c hc).1),
    fraction_written hf hexp, exponent_written he hrest, Option.bind_eq_bind, Option.bind_some,
    if_neg hwhole]
  cases f <;> cases e <;> rfl

theorem number_of_minus (negative : Bool) {ds : List Char} (h : IsDigits ds) (rest : List Char) :
    Reader.number (minus negative ++ ds ++ rest) = Reader.unsigned negative (ds ++ rest) := by
  cases negative with
  | true => rfl
  | false =>
      obtain ⟨hne, hdigit⟩ := h
      cases ds with
      | nil => exact absurd rfl hne
      | cons d ds =>
          have hd := hdigit d List.mem_cons_self
          show Reader.number (d :: (ds ++ rest)) = _
          rw [Reader.number]
          · rfl
          · rintro cs ⟨⟩
            revert hd
            decide

theorem number_written {n : Numeral} {cs : List Char} (h : NumberWritten n cs) {rest : List Char}
    (hrest : Unnumeric rest) : Reader.number (cs ++ rest) = some (n, rest) := by
  cases h with
  | @integer negative ds h =>
      have hread := unsigned_written negative h .absent .absent hrest
      rw [number_of_minus negative h.1]
      exact hread
  | @decimal negative ds fs es f e h hf he hsome =>
      have hread := unsigned_written negative h hf he hrest
      rw [List.append_assoc, List.append_assoc, number_of_minus negative h.1, hread]
      cases f <;> cases e <;> simp_all

/-- A number starts with a minus or a digit. -/
theorem head?_number {n : Numeral} {cs : List Char} (h : NumberWritten n cs) :
    ∃ c rest, cs = c :: rest ∧ (c = '-' ∨ c.isDigit = true) := by
  have hstart : ∀ (negative : Bool) (ds rest : List Char), IsWhole ds →
      ∃ c rest', minus negative ++ ds ++ rest = c :: rest' ∧ (c = '-' ∨ c.isDigit = true) := by
    intro negative ds rest hds
    cases negative with
    | true => exact ⟨'-', ds ++ rest, rfl, Or.inl rfl⟩
    | false =>
        obtain ⟨⟨hne, hdigit⟩, -⟩ := hds
        cases ds with
        | nil => exact absurd rfl hne
        | cons d ds => exact ⟨d, ds ++ rest, rfl, Or.inr (hdigit d List.mem_cons_self)⟩
  cases h with
  | @integer negative ds h =>
      have := hstart negative ds [] h
      rwa [List.append_nil] at this
  | @decimal negative ds fs es f e h hf he hsome =>
      have := hstart negative ds (fs ++ es) h
      rwa [← List.append_assoc] at this

/-! ### Values -/

/-- What follows is nothing, a blank, a comma or a closing bracket. -/
def Delimited (rest : List Char) : Prop :=
  ∀ c ∈ rest.head?, c ∈ [' ', '\n', '\r', '\t', ',', ']', '\x7d']

theorem Delimited.unnumeric {rest : List Char} (h : Delimited rest) : Unnumeric rest := by
  intro c hc
  have hmem := h c hc
  simp only [List.mem_cons, List.not_mem_nil, or_false] at hmem
  rcases hmem with rfl | rfl | rfl | rfl | rfl | rfl | rfl <;> decide

theorem delimited_blank_cons {b : List Char} (hb : Blank b) {c : Char}
    (hc : c ∈ [',', ']', '\x7d']) (rest : List Char) : Delimited (b ++ c :: rest) := by
  intro x hx
  cases b with
  | nil =>
      obtain rfl := Option.some.inj hx
      simp only [List.mem_cons, List.not_mem_nil, or_false] at hc ⊢
      tauto
  | cons y b =>
      obtain rfl := Option.some.inj hx
      have := hb y List.mem_cons_self
      simp only [List.mem_cons, List.not_mem_nil, or_false] at this ⊢
      tauto

/-- A value starts with a character that is neither blank nor closes anything. -/
theorem head?_written {j : Json} {cs : List Char} (h : Written j cs) :
    ∃ c rest, cs = c :: rest ∧ Reader.isSpace c = false ∧ c ≠ ']' ∧ c ≠ '\x7d' := by
  cases h with
  | number h =>
      obtain ⟨c, rest, rfl, hc⟩ := head?_number h
      refine ⟨c, rest, rfl, ?_⟩
      rcases hc with rfl | hc
      · decide
      · refine ⟨?_, ?_, ?_⟩
        · rw [Bool.eq_false_iff]
          intro hspace
          rw [isSpace_iff] at hspace
          simp only [List.mem_cons, List.not_mem_nil, or_false] at hspace
          rcases hspace with rfl | rfl | rfl | rfl <;> exact absurd hc (by decide)
        · rintro rfl
          exact absurd hc (by decide)
        · rintro rfl
          exact absurd hc (by decide)
  | _ => exact ⟨_, _, rfl, by decide⟩

theorem skipSpace_skipSpace (cs : List Char) :
    Reader.skipSpace (Reader.skipSpace cs) = Reader.skipSpace cs :=
  List.dropWhile_idempotent _ _

theorem value_skipSpace (fuel : Nat) (cs : List Char) :
    Reader.value fuel (Reader.skipSpace cs) = Reader.value fuel cs := by
  cases fuel with
  | zero => rfl
  | succ fuel => rw [Reader.value, Reader.value, skipSpace_skipSpace]

theorem value_blank (fuel : Nat) {b : List Char} (hb : Blank b) (cs : List Char) :
    Reader.value fuel (b ++ cs) = Reader.value fuel cs := by
  rw [← value_skipSpace, skipSpace_blank hb, value_skipSpace]

theorem elements_skipSpace (fuel : Nat) (cs : List Char) :
    Reader.elements fuel (Reader.skipSpace cs) = Reader.elements fuel cs := by
  cases fuel with
  | zero => rfl
  | succ fuel => rw [Reader.elements, Reader.elements, value_skipSpace]

theorem entries_skipSpace (fuel : Nat) (cs : List Char) :
    Reader.entries fuel (Reader.skipSpace cs) = Reader.entries fuel cs := by
  cases fuel with
  | zero => rfl
  | succ fuel => rw [Reader.entries, Reader.entries, skipSpace_skipSpace]

/-- Behind an opening bracket that is not closed at once, elements are read. -/
theorem value_array {fuel : Nat} {cs : List Char} (h : (Reader.skipSpace cs).head? ≠ some ']') :
    Reader.value (fuel + 1) ('[' :: cs) =
      (Reader.elements fuel cs).map fun r => (.array r.1, r.2) := by
  rw [Reader.value, skipSpace_cons (by decide)]
  simp only
  split
  · simp_all
  · rw [elements_skipSpace]
    cases Reader.elements fuel cs <;> rfl

/-- Behind an opening brace that is not closed at once, members are read. -/
theorem value_object {fuel : Nat} {cs : List Char}
    (h : (Reader.skipSpace cs).head? ≠ some '\x7d') :
    Reader.value (fuel + 1) ('\x7b' :: cs) =
      (Reader.entries fuel cs).map fun r => (.object r.1, r.2) := by
  rw [Reader.value, skipSpace_cons (by decide)]
  simp only
  split
  · simp_all
  · rw [entries_skipSpace]
    cases Reader.entries fuel cs <;> rfl

theorem value_number {fuel : Nat} {c : Char} (hc : c = '-' ∨ c.isDigit = true) (cs : List Char)
    (hspace : Reader.isSpace c = false) :
    Reader.value (fuel + 1) (c :: cs) =
      (Reader.number (c :: cs)).map fun r => (.number r.1, r.2) := by
  have hstart : ∀ d ∈ ['n', 't', 'f', '"', '[', '\x7b'], c ≠ d := by
    intro d hd hcd
    subst hcd
    simp only [List.mem_cons, List.not_mem_nil, or_false] at hd
    rcases hc with rfl | hc
    · revert hd
      decide
    · rcases hd with rfl | rfl | rfl | rfl | rfl | rfl <;> exact absurd hc (by decide)
  simp only [List.mem_cons, List.not_mem_nil, or_false, forall_eq_or_imp, forall_eq] at hstart
  rw [Reader.value, skipSpace_cons hspace]
  split <;> simp_all
  cases Reader.number (c :: cs) <;> rfl

/-- Elements do not start with what closes an array. -/
theorem head?_items {items : List Json} {cs : List Char} (h : ItemsWritten items cs)
    (rest : List Char) : (Reader.skipSpace (cs ++ rest)).head? ≠ some ']' := by
  have hstart : ∀ {j : Json} {b cs : List Char} (tail : List Char), Blank b → Written j cs →
      (Reader.skipSpace (b ++ (cs ++ tail))).head? ≠ some ']' := by
    intro j b cs tail hb hcs
    obtain ⟨c, cs', rfl, hspace, hclose, -⟩ := head?_written hcs
    rw [skipSpace_blank hb, List.cons_append, skipSpace_cons hspace]
    simpa using hclose
  cases h with
  | last hb h _ => simpa only [List.append_assoc] using hstart _ hb h
  | more hb h _ _ => simpa only [List.append_assoc] using hstart _ hb h

/-- Members start with a quote. -/
theorem head?_members {members : List (Option String × Json)} {cs : List Char}
    (h : MembersWritten members cs) (rest : List Char) :
    (Reader.skipSpace (cs ++ rest)).head? ≠ some '\x7d' := by
  have hstart : ∀ {b : List Char} (tail : List Char), Blank b →
      (Reader.skipSpace (b ++ '"' :: tail)).head? ≠ some '\x7d' := by
    intro b tail hb
    rw [skipSpace_blank hb, skipSpace_cons (by decide)]
    simp
  cases h with
  | last hb _ _ _ _ _ => simpa only [List.append_assoc, List.cons_append] using hstart _ hb
  | more hb _ _ _ _ _ _ => simpa only [List.append_assoc, List.cons_append] using hstart _ hb

-- One theorem for each reader, by recursion on the fuel as the readers go about it themselves.
-- Each bound leaves as much fuel as the nested calls ask for.
mutual

theorem value_written : ∀ (fuel : Nat) {j : Json} {cs : List Char}, Written j cs →
    ∀ rest : List Char, cs.length ≤ fuel → Delimited rest →
      Reader.value fuel (cs ++ rest) = some (j, rest)
  | 0, _, _, h, _, hfuel, _ => by
      obtain ⟨c, cs, rfl, -⟩ := head?_written h
      simp at hfuel
  | fuel + 1, _, _, h, rest, hfuel, hrest => by
      cases h with
      | null => rfl
      | yes => rfl
      | no => rfl
      | number h =>
          obtain ⟨c, cs, rfl, hc⟩ := head?_number h
          obtain ⟨_, _, heq, hspace, -⟩ := head?_written (.number h)
          obtain ⟨rfl, rfl⟩ := List.cons.inj heq
          rw [List.cons_append, value_number hc _ hspace, ← List.cons_append,
            number_written h hrest.unnumeric]
          rfl
      | string h =>
          simp only [List.cons_append, List.append_assoc, List.nil_append]
          rw [Reader.value, skipSpace_cons (by decide)]
          simp [string_written h]
      | emptyArray hb =>
          simp only [List.cons_append, List.append_assoc, List.nil_append]
          rw [Reader.value, skipSpace_cons (by decide)]
          simp [skipSpace_before hb ']' rfl]
      | emptyObject hb =>
          simp only [List.cons_append, List.append_assoc, List.nil_append]
          rw [Reader.value, skipSpace_cons (by decide)]
          simp [skipSpace_before hb '\x7d' rfl]
      | array h =>
          simp only [List.length_append, List.length_cons, List.length_nil] at hfuel
          simp only [List.cons_append, List.append_assoc, List.nil_append]
          rw [value_array (head?_items h _), elements_written fuel h rest (by omega)]
          rfl
      | object h =>
          simp only [List.length_append, List.length_cons, List.length_nil] at hfuel
          simp only [List.cons_append, List.append_assoc, List.nil_append]
          rw [value_object (head?_members h _), entries_written fuel h rest (by omega)]
          rfl
termination_by structural fuel => fuel

theorem elements_written : ∀ (fuel : Nat) {items : List Json} {cs : List Char},
    ItemsWritten items cs → ∀ rest : List Char, cs.length + 1 ≤ fuel →
      Reader.elements fuel (cs ++ ']' :: rest) = some (items, rest)
  | 0, _, _, _, _, hfuel => by omega
  | fuel + 1, _, _, h, rest, hfuel => by
      cases h with
      | @last j b cs b' hb h hb' =>
          simp only [List.length_append] at hfuel
          have hread := value_written fuel h (b' ++ ']' :: rest) (by omega)
            (delimited_blank_cons hb' (by decide) _)
          simp only [List.append_assoc]
          rw [Reader.elements, value_blank fuel hb, hread]
          simp [skipSpace_before hb' ']' rfl]
      | @more j items b cs b' ds hb h hb' hs =>
          simp only [List.length_append, List.length_cons] at hfuel
          have hread := value_written fuel h (b' ++ ',' :: (ds ++ ']' :: rest)) (by omega)
            (delimited_blank_cons hb' (by decide) _)
          have hmore := elements_written fuel hs rest (by omega)
          simp only [List.append_assoc, List.cons_append]
          rw [Reader.elements, value_blank fuel hb, hread]
          simp [skipSpace_before hb' ',' rfl, hmore]
termination_by structural fuel => fuel

theorem entries_written : ∀ (fuel : Nat) {members : List (Option String × Json)} {cs : List Char},
    MembersWritten members cs → ∀ rest : List Char, cs.length ≤ fuel →
      Reader.entries fuel (cs ++ '\x7d' :: rest) = some (members, rest)
  | 0, _, _, h, _, hfuel => by
      cases h <;> simp only [List.length_append, List.length_cons] at hfuel <;> omega
  | fuel + 1, _, _, h, rest, hfuel => by
      cases h with
      | @last name j b ns b' c cs c' hb hn hb' hc h hc' =>
          simp only [List.length_append, List.length_cons] at hfuel
          have hread := value_written fuel h (c' ++ '\x7d' :: rest) (by omega)
            (delimited_blank_cons hc' (by decide) _)
          simp only [List.append_assoc, List.cons_append]
          rw [Reader.entries, skipSpace_before hb '"' rfl]
          simp [string_written hn, skipSpace_before hb' ':' rfl, value_blank fuel hc, hread,
            skipSpace_before hc' '\x7d' rfl]
      | @more name j members b ns b' c cs c' ds hb hn hb' hc h hc' hs =>
          simp only [List.length_append, List.length_cons] at hfuel
          have hread := value_written fuel h (c' ++ ',' :: (ds ++ '\x7d' :: rest)) (by omega)
            (delimited_blank_cons hc' (by decide) _)
          have hmore := entries_written fuel hs rest (by omega)
          simp only [List.append_assoc, List.cons_append]
          rw [Reader.entries, skipSpace_before hb '"' rfl]
          simp [string_written hn, skipSpace_before hb' ':' rfl, value_blank fuel hc, hread,
            skipSpace_before hc' ',' rfl, hmore]
termination_by structural fuel => fuel

end

/-- **Every text of a value is read as that value.** -/
theorem parse_of_isText {j : Json} {text : String} (h : IsText j text) :
    Json.parse text = some j := by
  obtain ⟨b, cs, b', hb, hcs, hb', htext⟩ := h
  have hdelimited : Delimited b' := by
    intro c hc
    have := hb' c (List.mem_of_mem_head? hc)
    simp only [List.mem_cons, List.not_mem_nil, or_false] at this ⊢
    tauto
  have hlength : cs.length ≤ 2 * text.toList.length + 2 := by
    rw [htext]
    simp only [List.length_append]
    omega
  have hread := value_written (2 * text.toList.length + 2) hcs b' hlength hdelimited
  unfold Json.parse
  simp only
  nth_rewrite 2 [htext]
  rw [List.append_assoc, value_blank _ hb, hread]
  simp [skipSpace_eq_nil hb']

end EntityConventions.Json
