import Mathlib
import TextMode.Proofs.Text.Quoting
import TextMode.Proofs.Text.Runs

/-!
# Digits and the numbers they denote

The digits of a number are as many as it needs, so only zero starts with a zero.  Zeros in front
of digits do not count, and zeros behind them can be dropped and put back.
-/

namespace TextMode.Text

theorem ofDigits_eq_ofDigitChars (digits : Text) :
    ofDigits digits = Nat.ofDigitChars 10 digits 0 := by
  rw [Nat.ofDigitChars_eq_foldl]
  rfl

theorem ofDigits_append (left right : Text) :
    ofDigits (left ++ right) = ofDigits left * 10 ^ right.length + ofDigits right := by
  rw [ofDigits_eq_ofDigitChars, Nat.ofDigitChars_append, Nat.ofDigitChars_eq_ofDigitChars_zero,
    ofDigits_eq_ofDigitChars, ofDigits_eq_ofDigitChars, Nat.mul_comm]

theorem ofDigits_zeros (count : Nat) : ofDigits (List.replicate count '0') = 0 := by
  rw [ofDigits_eq_ofDigitChars, Nat.ofDigitChars_replicate_zero, Nat.mul_zero]

theorem ofDigits_padZeros (width : Nat) (digits : Text) :
    ofDigits (padZeros width digits) = ofDigits digits := by
  rw [padZeros, ofDigits_append, ofDigits_zeros, Nat.zero_mul, Nat.zero_add]

theorem ofDigits_lt {digits : Text} (hdigits : ∀ c ∈ digits, c.isDigit) :
    ofDigits digits < 10 ^ digits.length := by
  induction digits using List.reverseRecOn with
  | nil => decide
  | append_singleton digits c ih =>
      have hbefore := ih fun d hd => hdigits d (List.mem_append_left _ hd)
      have hc : c.isDigit := hdigits c (by simp)
      have hlast : ofDigits [c] < 10 := by
        simp only [Char.isDigit, Bool.and_eq_true, decide_eq_true_eq, ge_iff_le,
          UInt32.le_iff_toNat_le] at hc
        have hhigh : c.toNat ≤ 57 := hc.2
        change 10 * 0 + (c.toNat - 48) < 10
        omega
      rw [ofDigits_append, List.length_append, List.length_singleton, pow_one, pow_succ]
      omega

theorem length_decimal_le_iff {n width : Nat} (hwidth : 0 < width) :
    (decimal n).length ≤ width ↔ n < 10 ^ width :=
  Nat.length_toDigits_le_iff (by decide) hwidth

/-- No number but zero is written with a leading zero.  Without its zero the number would be
written in fewer digits than it needs. -/
theorem decimal_of_head? {n : Nat} (hhead : (decimal n).head? = some '0') : decimal n = ['0'] := by
  obtain ⟨digits, hdigits⟩ := List.head?_eq_some_iff.mp hhead
  rw [hdigits]
  by_contra hne
  have hlength : 0 < digits.length := by
    rw [List.length_pos_iff]
    exact fun hnil => hne (by rw [hnil])
  have hvalue : n = ofDigits digits := by
    rw [← ofDigits_decimal n, hdigits]
    rfl
  have hlt : n < 10 ^ digits.length := by
    rw [hvalue]
    apply ofDigits_lt
    intro c hc
    exact isDigit_of_mem_decimal (by rw [hdigits]; exact List.mem_cons_of_mem _ hc)
  have hle := (length_decimal_le_iff hlength).mpr hlt
  rw [hdigits, List.length_cons] at hle
  omega

theorem dropTrailingZeros_eq_nil_iff {digits : Text} :
    dropTrailingZeros digits = [] ↔ ∀ c ∈ digits, c = '0' := by
  change digits.rdropWhile (· = '0') = [] ↔ _
  simp only [List.rdropWhile_eq_nil_iff, decide_eq_true_eq]

theorem dropTrailingZeros_cons {c : Char} {digits : Text} (hne : ¬ ∀ d ∈ c :: digits, d = '0') :
    dropTrailingZeros (c :: digits) = c :: dropTrailingZeros digits := by
  change (c :: digits).rdropWhile (· = '0') = c :: digits.rdropWhile (· = '0')
  rw [rdropWhile_cons]
  split
  next hnil =>
    have hzeros : ∀ d ∈ digits, d = '0' := dropTrailingZeros_eq_nil_iff.mp hnil
    have hc : ¬ decide (c = '0') = true := by
      rw [decide_eq_true_eq]
      exact fun hc => hne (List.forall_mem_cons.mpr ⟨hc, hzeros⟩)
    rw [hnil, List.rdropWhile_singleton, if_neg hc]
  next => rfl

/-- Zeros behind digits can be dropped and put back, if their number is known. -/
theorem exists_dropTrailingZeros (digits : Text) :
    ∃ count, digits = dropTrailingZeros digits ++ List.replicate count '0' := by
  have hzeros : ∀ c ∈ digits.rtakeWhile (· = '0'), c = '0' := by
    intro c hc
    simpa using List.mem_rtakeWhile_imp hc
  refine ⟨(digits.rtakeWhile (· = '0')).length, ?_⟩
  rw [← List.eq_replicate_of_mem hzeros]
  exact List.rdropWhile_append_rtakeWhile.symm

theorem getLast?_dropTrailingZeros (digits : Text) :
    (dropTrailingZeros digits).getLast? ≠ some '0' := by
  intro hlast
  rw [dropTrailingZeros, List.getLast?_reverse] at hlast
  have hhead := head?_dropWhile (· = '0') digits.reverse
  rw [hlast] at hhead
  exact absurd hhead (by decide)

end TextMode.Text
