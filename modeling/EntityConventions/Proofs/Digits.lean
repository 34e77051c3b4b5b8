import EntityConventions.Json.Numeral
import Mathlib.Data.List.Induction
import Mathlib.Tactic.Ring
import Mathlib.Tactic.IntervalCases

/-! # Digits denote their number

The digits of a number are digits, start with a zero only for zero itself, and denote the number
(`toNat_ofNat`); padding with zeros changes none of this (`toNat_padded`).  A run of digits
behind another one shifts the value of the first (`toNat_append`), so the digits of a decimal
before and behind its point give back its coefficient (`toNat_digits`).  Every number of at most
sixty-four bits is far from too large for a floating-point number
(`overflows_integer_eq_false`). -/

namespace EntityConventions.Decimal.Digits

theorem digitValue_digitChar {n : Nat} (h : n < 10) : digitValue (digitChar n) = n := by
  interval_cases n <;> rfl

theorem isDigit_digitChar {n : Nat} (h : n < 10) : (digitChar n).isDigit = true := by
  interval_cases n <;> rfl

theorem digitChar_eq_zero_iff {n : Nat} (h : n < 10) : digitChar n = '0' ↔ n = 0 := by
  interval_cases n <;> decide

/-! ### Values of runs of digits -/

theorem toNat_nil : toNat [] = 0 := rfl

theorem toNat_concat (cs : List Char) (c : Char) :
    toNat (cs ++ [c]) = 10 * toNat cs + digitValue c := by
  simp [toNat]

theorem toNat_append (cs ds : List Char) :
    toNat (cs ++ ds) = toNat cs * 10 ^ ds.length + toNat ds := by
  induction ds using List.reverseRecOn with
  | nil => simp [toNat]
  | append_singleton ds d ih =>
      rw [← List.append_assoc, toNat_concat, ih, toNat_concat, List.length_append,
        List.length_singleton, pow_succ]
      ring

theorem toNat_replicate_zero (n : Nat) : toNat (List.replicate n '0') = 0 := by
  induction n with
  | zero => rfl
  | succ n ih =>
      rw [List.replicate_succ', toNat_concat, ih]
      rfl

/-! ### The digits of a number -/

theorem ofNat_ne_nil (n : Nat) : ofNat n ≠ [] := by
  rw [ofNat]
  split <;> simp

theorem isDigit_of_mem_ofNat (n : Nat) : ∀ c ∈ ofNat n, c.isDigit = true := by
  induction n using ofNat.induct with
  | case1 n h =>
      rw [ofNat, if_pos h]
      simpa using isDigit_digitChar h
  | case2 n h ih =>
      rw [ofNat, if_neg h]
      intro c hc
      rcases List.mem_append.mp hc with hc | hc
      · exact ih c hc
      · rw [List.mem_singleton.mp hc]
        exact isDigit_digitChar (Nat.mod_lt _ (by decide))

theorem toNat_ofNat (n : Nat) : toNat (ofNat n) = n := by
  induction n using ofNat.induct with
  | case1 n h =>
      rw [ofNat, if_pos h]
      simp [toNat, digitValue_digitChar h]
  | case2 n h ih =>
      rw [ofNat, if_neg h, toNat_concat, ih, digitValue_digitChar (Nat.mod_lt _ (by decide))]
      omega

theorem digitChar_eq {n : Nat} (h : n < 10) : digitChar n = n.digitChar := by
  interval_cases n <;> rfl

/-- The text of a number is the usual one in base ten. -/
theorem natText_eq_toString (n : Nat) : natText n = toString n := by
  have hdigits : ofNat n = Nat.toDigits 10 n := by
    induction n using ofNat.induct with
    | case1 n h => rw [ofNat, if_pos h, Nat.toDigits_of_lt_base h, digitChar_eq h]
    | case2 n h ih =>
        rw [ofNat, if_neg h, Nat.toDigits_of_base_le (by decide) (Nat.le_of_not_lt h), ih,
          digitChar_eq (Nat.mod_lt _ (by decide))]
  rw [natText, hdigits, Nat.toString_eq_repr, Nat.repr_eq_ofList_toDigits]

/-- Only zero starts with a zero. -/
theorem head?_ofNat_ne_zero {n : Nat} (hn : n ≠ 0) : (ofNat n).head? ≠ some '0' := by
  induction n using ofNat.induct with
  | case1 n h =>
      rw [ofNat, if_pos h]
      intro h0
      exact hn ((digitChar_eq_zero_iff h).mp (Option.some.inj h0))
  | case2 n h ih =>
      rw [ofNat, if_neg h]
      have hrest := ih (by omega)
      cases hds : ofNat (n / 10) with
      | nil => exact absurd hds (ofNat_ne_nil _)
      | cons d ds =>
          rw [hds] at hrest
          exact hrest

theorem length_ofNat_of_head?_zero {n : Nat} (h : (ofNat n).head? = some '0') :
    (ofNat n).length = 1 := by
  by_cases hn : n = 0
  · subst hn
    simp [ofNat]
  · exact absurd h (head?_ofNat_ne_zero hn)

/-- A number below a power of ten has no more digits than the exponent says. -/
theorem length_ofNat_le {n width : Nat} (hw : 0 < width) (h : n < 10 ^ width) :
    (ofNat n).length ≤ width := by
  induction n using ofNat.induct generalizing width with
  | case1 n hn =>
      rw [ofNat, if_pos hn]
      exact hw
  | case2 n hn ih =>
      rw [ofNat, if_neg hn, List.length_append, List.length_singleton]
      obtain ⟨w, rfl⟩ : ∃ w, width = w + 1 := ⟨width - 1, by omega⟩
      have hw' : 0 < w := by
        rcases Nat.eq_zero_or_pos w with rfl | hpos
        · omega
        · exact hpos
      have := ih hw' (by rw [pow_succ] at h; omega)
      omega

/-! ### Padded digits -/

theorem toNat_padded (width n : Nat) : toNat (padded width n) = n := by
  rw [padded, toNat_append, toNat_replicate_zero, toNat_ofNat]
  omega

theorem isDigit_of_mem_padded (width n : Nat) : ∀ c ∈ padded width n, c.isDigit = true := by
  intro c hc
  rcases List.mem_append.mp hc with hc | hc
  · rw [(List.mem_replicate.mp hc).2]
    rfl
  · exact isDigit_of_mem_ofNat n c hc

theorem length_padded {width n : Nat} (hw : 0 < width) (h : n < 10 ^ width) :
    (padded width n).length = width := by
  have := length_ofNat_le hw h
  rw [padded, List.length_append, List.length_replicate]
  omega

end EntityConventions.Decimal.Digits

namespace EntityConventions.Numeral

open Decimal

/-! ### Decimals -/

theorem length_digits_snd (c p : Nat) : (digits c p).2.length = p := by
  simp only [digits]
  split
  · simp_all
  · exact Digits.length_padded (by omega) (Nat.mod_lt _ (Nat.pow_pos (by decide)))

/-- The digits of a decimal on both sides of the point are those of its coefficient. -/
theorem toNat_digits (c p : Nat) : Digits.toNat ((digits c p).1 ++ (digits c p).2) = c := by
  rw [Digits.toNat_append, length_digits_snd]
  simp only [digits]
  split
  · simp_all [Digits.toNat_ofNat, Digits.toNat_nil]
  · rw [Digits.toNat_ofNat, Digits.toNat_padded]
    exact Nat.div_add_mod' c (10 ^ p)

/-! ### Integers that are not too large -/

theorem appendDigits_eq (ds : List Char) : ∀ n : Nat,
    n * 10 ^ ds.length + Digits.toNat ds < 18446744073709551616 →
      appendDigits n ds = (n * 10 ^ ds.length + Digits.toNat ds, ds.length) := by
  induction ds with
  | nil =>
      intro n _
      simp [appendDigits, Digits.toNat]
  | cons d ds ih =>
      intro n h
      have hcons : Digits.toNat (d :: ds) =
          Digits.digitValue d * 10 ^ ds.length + Digits.toNat ds := by
        rw [← List.singleton_append, Digits.toNat_append]
        simp [Digits.toNat]
      have hval : n * 10 ^ (d :: ds).length + Digits.toNat (d :: ds) =
          (10 * n + Digits.digitValue d) * 10 ^ ds.length + Digits.toNat ds := by
        rw [hcons, List.length_cons, pow_succ]
        ring
      rw [hval] at h ⊢
      have hmore : 10 * n + Digits.digitValue d < 18446744073709551616 := by
        have := Nat.le_mul_of_pos_right (10 * n + Digits.digitValue d)
          (Nat.pow_pos (n := ds.length) (show 0 < 10 by decide))
        omega
      simp only [appendDigits]
      rw [if_pos hmore, ih _ h]
      rfl

theorem approximate_integer {n : Nat} (h : n < 18446744073709551616) :
    approximate n 0 0 = (n, 0) := by
  have hwhole : appendDigits 0 (Digits.ofNat n) = (n, (Digits.ofNat n).length) := by
    rw [appendDigits_eq _ 0 (by simpa [Digits.toNat_ofNat] using h), Digits.toNat_ofNat]
    simp
  simp only [approximate, digits, if_true, Nat.pow_eq, pow_zero, Nat.div_one, hwhole, appendDigits]
  simp

theorem isInfinite_ofRatio {negative : Bool} {num den : Nat} (h : num.log2 ≤ 200) :
    (Binary64.ofRatio negative num den).isInfinite = false := by
  unfold Binary64.ofRatio
  split
  · rfl
  · have hexp : Binary64.exponentFor num den ≤ 200 := by
      unfold Binary64.exponentFor Binary64.minExponent
      dsimp only
      split <;> omega
    -- Rounding up adds at most one to the exponent.
    have hround : ∀ m : Nat, (if m = 2 * Binary64.normalMantissa then
        (Binary64.normalMantissa, Binary64.exponentFor num den + 1)
        else (m, Binary64.exponentFor num den)).2 ≤ Binary64.maxExponent := by
      intro m
      unfold Binary64.maxExponent
      split <;> dsimp only <;> omega
    dsimp only
    rw [if_neg (not_lt.mpr (hround _))]
    rfl

theorem roundAt_le (num den : Nat) (e : Int) :
    Binary64.roundAt num den e ≤ num * 2 ^ (-e).toNat + 1 := by
  unfold Binary64.roundAt
  have := Nat.div_le_self (num * Nat.pow 2 (-e).toNat) (den * Nat.pow 2 e.toNat)
  simp only [Nat.pow_eq] at this ⊢
  split <;> omega

/-- A word is represented with a mantissa and an exponent that are far from the limits. -/
theorem ofInt_word {n : Nat} (hn : n ≠ 0) (h : n < 18446744073709551616) :
    ∃ m e, Binary64.ofInt n = .finite false m e ∧ m < 2 ^ 120 ∧ e ≤ 12 := by
  have hlog : n.log2 < 64 := (Nat.log2_lt hn).mpr h
  have hexp : -53 ≤ Binary64.exponentFor n 1 ∧ Binary64.exponentFor n 1 ≤ 11 := by
    unfold Binary64.exponentFor Binary64.minExponent
    have h1 : Nat.log2 1 = 0 := by decide
    dsimp only
    rw [h1]
    split <;> omega
  have hmant : Binary64.roundAt n 1 (Binary64.exponentFor n 1) < 2 ^ 120 := by
    have hround := roundAt_le n 1 (Binary64.exponentFor n 1)
    have hpow : 2 ^ (-Binary64.exponentFor n 1).toNat ≤ 2 ^ 53 :=
      Nat.pow_le_pow_right (by decide) (by omega)
    have := Nat.mul_le_mul_left n hpow
    omega
  have hfinite : ¬ Binary64.maxExponent < 12 := by decide
  unfold Binary64.ofInt Binary64.ofRatio
  simp only [Int.natAbs_natCast, hn, if_false]
  rw [show decide ((n : Int) < 0) = false from by simp]
  by_cases hm : Binary64.roundAt n 1 (Binary64.exponentFor n 1) = 2 * Binary64.normalMantissa
  · simp only [hm, if_true]
    rw [if_neg (by omega)]
    exact ⟨_, _, rfl, by decide, by omega⟩
  · simp only [hm, if_false]
    rw [if_neg (by omega)]
    exact ⟨_, _, rfl, hmant, by omega⟩

/-- No integer of at most sixty-four bits is too large. -/
theorem overflows_integer_eq_false (negative : Bool) {n : Nat} (h : n < 18446744073709551616) :
    (Numeral.integer negative n).overflows = false := by
  simp only [overflows, approximate_integer h, exceeds]
  by_cases hn : n = 0
  · simp [hn]
  · obtain ⟨m, e, hword, hm, he⟩ := ofInt_word hn h
    have hone : Binary64.ofDecimal false 1 0 = .finite false 4503599627370496 (-52) := by decide
    rw [if_neg (by omega), if_neg (by omega), hword, hone]
    apply isInfinite_ofRatio
    have hshift : (e + -52).toNat = 0 := by omega
    rw [hshift]
    by_cases hm0 : m = 0
    · subst hm0
      decide
    · apply Nat.le_of_lt
      rw [Nat.log2_lt (by simpa using hm0)]
      calc m * 4503599627370496 * Nat.pow 2 0 < 2 ^ 120 * 4503599627370496 * Nat.pow 2 0 := by
            simp only [Nat.pow_eq]
            omega
        _ ≤ 2 ^ 200 := by norm_num

end EntityConventions.Numeral
