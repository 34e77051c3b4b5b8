import EntityConventions.Json.Printer
import EntityConventions.Proofs.JsonReading

/-! # What is printed can be read

The text of a value without blanks is one of its texts (`written_flat`), whatever characters its
strings hold and however its numbers are written.  So is the text on lines of its own
(`written_tall`), whose new lines and indentation are blanks between tokens.  Reading what was
printed therefore gives back the value (`parse_compact`, `parse_pretty_append`). -/

namespace EntityConventions.Json

open Decimal Text

theorem blank_nil : Blank [] := by
  simp [Blank]

/-! ### Strings -/

theorem hexDigit_quoted {v : Nat} (h : v < 16) : HexDigit v (Quoted.hexDigit v) := by
  interval_cases v <;> exact Or.inl rfl

theorem charWritten_escape (c : Char) : CharWritten c (Printer.escape c) := by
  unfold Printer.escape
  split_ifs with hquote hback hn hr ht hb hf hcontrol
  · exact .short (by subst hquote; decide)
  · exact .short (by subst hback; decide)
  · exact .short (by subst hn; decide)
  · exact .short (by subst hr; decide)
  · exact .short (by subst ht; decide)
  · exact .short (by subst hb; decide)
  · exact .short (by subst hf; decide)
  · have hunit := UnitWritten.mk (v := 0) (w := 0) (a := '0') (b := '0') (Or.inl rfl) (Or.inl rfl)
      (hexDigit_quoted (v := c.toNat / 16) (by omega))
      (hexDigit_quoted (Nat.mod_lt c.toNat (by decide)))
    have hvalue : 0 * 4096 + 0 * 256 + c.toNat / 16 * 16 + c.toNat % 16 = c.toNat := by omega
    rw [hvalue] at hunit
    exact .unit hunit
  · exact .plain hquote hback (by omega)

theorem charsWritten_escape (s : List Char) : CharsWritten s (s.flatMap Printer.escape) := by
  induction s with
  | nil => exact .nil
  | cons c s ih =>
      rw [List.flatMap_cons]
      exact .cons (charWritten_escape c) ih

/-- Between its quotes, what is printed for a string is a way of writing it. -/
theorem string_eq (t : Option String) :
    ∃ cs, Printer.string t = '"' :: cs ++ ['"'] ∧ StringWritten t cs := by
  cases t with
  | some s => exact ⟨s.toList.flatMap Printer.escape, rfl, .text (charsWritten_escape s.toList)⟩
  | none =>
      have hunit : UnitWritten 0xD800 ['d', '8', '0', '0'] :=
        UnitWritten.mk (v := 13) (w := 8) (x := 0) (y := 0) (Or.inl rfl) (Or.inl rfl) (Or.inl rfl)
          (Or.inl rfl)
      exact ⟨['\\', 'u', 'd', '8', '0', '0'], rfl, .broken (.unit hunit .nil) rfl⟩

/-! ### Numbers -/

theorem isDigits_ofNat (n : Nat) : IsDigits (Digits.ofNat n) :=
  ⟨Digits.ofNat_ne_nil n, Digits.isDigit_of_mem_ofNat n⟩

theorem isWhole_ofNat (n : Nat) : IsWhole (Digits.ofNat n) :=
  ⟨isDigits_ofNat n, Digits.length_ofNat_of_head?_zero⟩

theorem exponentWritten_ofInt (e : Int) : ExponentWritten (some e) ('e' :: Digits.ofInt e) := by
  cases e with
  | ofNat n =>
      have h := @ExponentWritten.unsigned 'e' _ (Or.inl rfl) (isDigits_ofNat n)
      rwa [Digits.toNat_ofNat] at h
  | negSucc n =>
      have h := @ExponentWritten.minus 'e' _ (Or.inl rfl) (isDigits_ofNat (n + 1))
      rwa [Digits.toNat_ofNat] at h

theorem numberWritten_number (n : Numeral) : NumberWritten n (Printer.number n) := by
  cases n with
  | integer negative n =>
      have h := @NumberWritten.integer negative _ (isWhole_ofNat n)
      rwa [Digits.toNat_ofNat] at h
  | decimal negative c p e =>
      have hwhole : IsWhole (Numeral.digits c p).1 := isWhole_ofNat _
      have hexp := exponentWritten_ofInt e
      by_cases hp : p = 0
      · subst hp
        have hvalue : Digits.toNat (Numeral.digits c 0).1 = c := by
          have := Numeral.toNat_digits c 0
          simpa [Numeral.digits] using this
        have h := @NumberWritten.decimal negative _ _ _ _ _ hwhole .absent hexp (Or.inr (by simp))
        rw [Option.getD_none, List.append_nil, hvalue, Option.getD_some] at h
        simpa [Printer.number, minus] using h
      · have hfraction : IsDigits (Numeral.digits c p).2 := by
          have hlength := Numeral.length_digits_snd c p
          refine ⟨fun hnil => hp (by rw [← hlength, hnil]; rfl), ?_⟩
          simp only [Numeral.digits, if_neg hp]
          exact Digits.isDigit_of_mem_padded _ _
        have h := @NumberWritten.decimal negative _ _ _ _ _ hwhole (.digits hfraction) hexp
          (Or.inl (by simp))
        rw [Option.getD_some, Numeral.toNat_digits, Numeral.length_digits_snd, Option.getD_some] at h
        simpa [Printer.number, hp, minus] using h

/-! ### Values -/

mutual

theorem written_flat : ∀ j : Json, Written j (Printer.flat j)
  | .null => .null
  | .bool true => .yes
  | .bool false => .no
  | .number n => .number (numberWritten_number n)
  | .string t => by
      obtain ⟨cs, heq, h⟩ := string_eq t
      show Written (.string t) (Printer.string t)
      rw [heq]
      exact .string h
  | .array [] => .emptyArray blank_nil
  | .array (j :: js) => .array (itemsWritten_flat (j :: js) (by simp))
  | .object [] => .emptyObject blank_nil
  | .object (m :: ms) => .object (membersWritten_flat (m :: ms) (by simp))

theorem itemsWritten_flat : ∀ items : List Json, items ≠ [] →
    ItemsWritten items (Printer.flatItems items)
  | [], hne => absurd rfl hne
  | [j], _ => by
      have h := ItemsWritten.last blank_nil (written_flat j) blank_nil
      simpa [Printer.flatItems] using h
  | j :: k :: js, _ => by
      have h := ItemsWritten.more blank_nil (written_flat j) blank_nil
        (itemsWritten_flat (k :: js) (by simp))
      simpa [Printer.flatItems] using h

theorem membersWritten_flat : ∀ members : List (Option String × Json), members ≠ [] →
    MembersWritten members (Printer.flatMembers members)
  | [], hne => absurd rfl hne
  | [(name, j)], _ => by
      obtain ⟨ns, heq, hn⟩ := string_eq name
      have h := MembersWritten.last blank_nil hn blank_nil blank_nil (written_flat j) blank_nil
      simpa [Printer.flatMembers, heq] using h
  | (name, j) :: m :: ms, _ => by
      obtain ⟨ns, heq, hn⟩ := string_eq name
      have h := MembersWritten.more blank_nil hn blank_nil blank_nil (written_flat j) blank_nil
        (membersWritten_flat (m :: ms) (by simp))
      simpa [Printer.flatMembers, heq] using h

end

theorem isText_compact (j : Json) : IsText j j.compact :=
  ⟨[], Printer.flat j, [], blank_nil, written_flat j, blank_nil, by simp [compact]⟩

/-- Reading the text of a value gives back the value. -/
theorem parse_compact (j : Json) : Json.parse j.compact = some j :=
  parse_of_isText (isText_compact j)

/-! ### Values on lines of their own -/

theorem blank_space : Blank [' '] := by
  simp [Blank]

theorem blank_newline (level : Nat) : Blank (Printer.newline level) := by
  intro c hc
  rcases List.mem_cons.mp hc with rfl | hc
  · simp
  · rw [List.eq_of_mem_replicate hc]
    simp

-- The new line in front of a closing bracket or brace follows the last element or member, so the
-- statements about these are made with blanks behind them.
mutual

theorem written_tall (level : Nat) : ∀ j : Json, Written j (Printer.tall level j)
  | .null => .null
  | .bool true => .yes
  | .bool false => .no
  | .number n => .number (numberWritten_number n)
  | .string t => by
      obtain ⟨cs, heq, h⟩ := string_eq t
      show Written (.string t) (Printer.string t)
      rw [heq]
      exact .string h
  | .array [] => .emptyArray blank_nil
  | .array (j :: js) =>
      .array (itemsWritten_tall (level + 1) (j :: js) (by simp) (blank_newline level))
  | .object [] => .emptyObject blank_nil
  | .object (m :: ms) =>
      .object (membersWritten_tall (level + 1) (m :: ms) (by simp) (blank_newline level))

theorem itemsWritten_tall (level : Nat) : ∀ items : List Json, items ≠ [] → ∀ {b : List Char},
    Blank b → ItemsWritten items (Printer.tallItems level items ++ b)
  | [], hne, _, _ => absurd rfl hne
  | [j], _, _, hb => by
      have h := ItemsWritten.last (blank_newline level) (written_tall level j) hb
      simpa [Printer.tallItems] using h
  | j :: k :: js, _, _, hb => by
      have h := ItemsWritten.more (blank_newline level) (written_tall level j) blank_nil
        (itemsWritten_tall level (k :: js) (by simp) hb)
      simpa [Printer.tallItems] using h

theorem membersWritten_tall (level : Nat) : ∀ members : List (Option String × Json),
    members ≠ [] → ∀ {b : List Char}, Blank b →
      MembersWritten members (Printer.tallMembers level members ++ b)
  | [], hne, _, _ => absurd rfl hne
  | [(name, j)], _, _, hb => by
      obtain ⟨ns, heq, hn⟩ := string_eq name
      have h := MembersWritten.last (blank_newline level) hn blank_nil blank_space
        (written_tall level j) hb
      simpa [Printer.tallMembers, heq] using h
  | (name, j) :: m :: ms, _, _, hb => by
      obtain ⟨ns, heq, hn⟩ := string_eq name
      have h := MembersWritten.more (blank_newline level) hn blank_nil blank_space
        (written_tall level j) blank_nil (membersWritten_tall level (m :: ms) (by simp) hb)
      simpa [Printer.tallMembers, heq] using h

end

/-- Blanks may follow the text of a value on lines of its own. -/
theorem isText_pretty_append (j : Json) {b : List Char} (hb : Blank b) :
    IsText j (j.pretty ++ String.ofList b) :=
  ⟨[], Printer.tall 0 j, b, blank_nil, written_tall 0 j, hb, by simp [pretty]⟩

/-- Reading the text of a value on lines of its own gives back the value, whatever blanks follow. -/
theorem parse_pretty_append (j : Json) {b : List Char} (hb : Blank b) :
    Json.parse (j.pretty ++ String.ofList b) = some j :=
  parse_of_isText (isText_pretty_append j hb)

end EntityConventions.Json
