import Mathlib
import TextMode.Number.Rendering
import TextMode.Proofs.Number.Rounding
import TextMode.Proofs.Text.Digits

/-!
# Six significant digits

The exponent of the first digit of a value is found from the lengths of numerator and
denominator and one comparison.  At that exponent the value is rounded to six digits, which may
carry into a seventh.  Either way the result is the value in units of its sixth digit, rounded.
-/

namespace TextMode

/-- The value rounded to six significant digits, a tie going to the even last digit. -/
inductive RoundsToSixDigits : ℚ → ℚ → Prop where
  | zero : RoundsToSixDigits 0 0
  | digits {x : ℚ} (exponent n : ℤ) :
      10 ^ exponent ≤ |x| → |x| < 10 ^ (exponent + 1) → RoundsToEven (x / 10 ^ (exponent - 5)) n →
      RoundsToSixDigits x (n * 10 ^ (exponent - 5))

namespace RoundsToSixDigits

theorem unique {x r r' : ℚ} (hr : RoundsToSixDigits x r) (hr' : RoundsToSixDigits x r') :
    r = r' := by
  have hpos : ∀ exponent : ℤ, ¬ (10 : ℚ) ^ exponent ≤ |0| := by
    intro exponent
    rw [abs_zero, not_le]
    positivity
  cases hr with
  | zero =>
      cases hr' with
      | zero => rfl
      | digits exponent n hlow _ _ => exact absurd hlow (hpos exponent)
  | digits exponent n hlow hhigh hn =>
      cases hr' with
      | zero => exact absurd hlow (hpos exponent)
      | digits exponent' n' hlow' hhigh' hn' =>
          have hlt := (zpow_lt_zpow_iff_right₀ (by norm_num : (1 : ℚ) < 10)).mp
            (hlow.trans_lt hhigh')
          have hlt' := (zpow_lt_zpow_iff_right₀ (by norm_num : (1 : ℚ) < 10)).mp
            (hlow'.trans_lt hhigh)
          obtain rfl : exponent = exponent' := by omega
          rw [hn.unique hn']

theorem signed {x r : ℚ} (hr : RoundsToSixDigits x r) (negative : Bool) :
    RoundsToSixDigits (signed negative x) (signed negative r) := by
  cases hr with
  | zero =>
      cases negative with
      | false => exact .zero
      | true => simpa [TextMode.signed] using zero
  | digits exponent n hlow hhigh hn =>
      rw [mul_comm, ← mul_signed, ← cast_signed, mul_comm]
      refine .digits exponent _ ?_ ?_ ?_
      · rwa [abs_signed]
      · rwa [abs_signed]
      · rw [div_eq_inv_mul, mul_signed, ← div_eq_inv_mul]
        exact hn.signed negative

end RoundsToSixDigits

/-! ## The first digit -/

theorem Text.pow_length_decimal {n : ℕ} (hn : 0 < n) :
    (10 : ℚ) ^ ((Text.decimal n).length - 1 : ℤ) ≤ n ∧
      (n : ℚ) < 10 ^ ((Text.decimal n).length : ℤ) := by
  have hlength : 0 < (Text.decimal n).length := Nat.length_toDigits_pos
  obtain ⟨width, hwidth⟩ := Nat.exists_eq_add_of_lt hlength
  have hhigh := (Text.length_decimal_le_iff hlength).mp le_rfl
  have hlow : 10 ^ width ≤ n := by
    rcases Nat.eq_zero_or_pos width with rfl | hpos
    · exact hn
    · by_contra hlt
      have hshort := (Text.length_decimal_le_iff hpos).mpr (not_le.mp hlt)
      omega
  have hexponent : ((Text.decimal n).length - 1 : ℤ) = width := by omega
  rw [hexponent, zpow_natCast, zpow_natCast]
  exact ⟨by exact_mod_cast hlow, by exact_mod_cast hhigh⟩

namespace Binary64

variable {numerator denominator : ℕ} (hnumerator : 0 < numerator) (hdenominator : 0 < denominator)

include hdenominator in
/-- A quotient in units of a power of ten, as it is written with natural numbers. -/
theorem scaled_eq (numerator : ℕ) (exponent : ℤ) :
    ((numerator * Nat.pow 10 (-exponent).toNat : ℕ) : ℚ) /
        (denominator * Nat.pow 10 exponent.toNat : ℕ) =
      (numerator : ℚ) / denominator / 10 ^ exponent := by
  have hdenominator' : (denominator : ℚ) ≠ 0 := Nat.cast_ne_zero.mpr hdenominator.ne'
  rw [zpow_eq_toNat_div (by norm_num), Nat.pow_eq, Nat.pow_eq]
  push_cast
  field_simp

include hnumerator hdenominator in
/-- The exponent of the first digit is the one of the greatest power of ten that is not
above the value. -/
theorem decimalExponent_spec :
    (10 : ℚ) ^ decimalExponent numerator denominator ≤ (numerator : ℚ) / denominator ∧
      (numerator : ℚ) / denominator < 10 ^ (decimalExponent numerator denominator + 1) := by
  obtain ⟨hlow, hhigh⟩ := Text.pow_length_decimal hnumerator
  obtain ⟨hlow', hhigh'⟩ := Text.pow_length_decimal hdenominator
  have hpos : (0 : ℚ) < denominator := Nat.cast_pos.mpr hdenominator
  rw [decimalExponent]
  generalize hguess :
    ((Text.decimal numerator).length - (Text.decimal denominator).length : ℤ) = guess
  have hbelow : (10 : ℚ) ^ (guess - 1) ≤ numerator / denominator := by
    rw [le_div_iff₀ hpos]
    calc
      (10 : ℚ) ^ (guess - 1) * denominator ≤
          10 ^ (guess - 1) * 10 ^ ((Text.decimal denominator).length : ℤ) := by gcongr
      _ = 10 ^ ((Text.decimal numerator).length - 1 : ℤ) := by
          rw [← zpow_add₀ (by norm_num), ← hguess]
          congr 1
          omega
      _ ≤ numerator := hlow
  have habove : (numerator : ℚ) / denominator < 10 ^ (guess + 1) := by
    rw [div_lt_iff₀ hpos]
    calc
      (numerator : ℚ) < 10 ^ ((Text.decimal numerator).length : ℤ) := hhigh
      _ = 10 ^ (guess + 1) * 10 ^ ((Text.decimal denominator).length - 1 : ℤ) := by
          rw [← zpow_add₀ (by norm_num), ← hguess]
          congr 1
          omega
      _ ≤ 10 ^ (guess + 1) * denominator := by gcongr
  have hcompare : numerator * Nat.pow 10 (-guess).toNat < denominator * Nat.pow 10 guess.toNat ↔
      (numerator : ℚ) / denominator < 10 ^ guess := by
    have hscaled : 0 < denominator * Nat.pow 10 guess.toNat :=
      Nat.mul_pos hdenominator (Nat.pow_pos (by decide))
    have hunit : (0 : ℚ) < 10 ^ guess := by positivity
    rw [← div_lt_one hunit, ← scaled_eq hdenominator, div_lt_one (Nat.cast_pos.mpr hscaled),
      Nat.cast_lt]
  split
  · next hlt =>
      rw [sub_add_cancel]
      exact ⟨hbelow, hcompare.mp hlt⟩
  · next hge => exact ⟨not_lt.mp (mt hcompare.mpr hge), habove⟩

/-- The last of six digits stands five places behind the first, so its unit is smaller by a
factor of a hundred thousand. -/
theorem pow_first_eq (first : ℤ) : (10 : ℚ) ^ first = 100000 * 10 ^ (first - 5) := by
  rw [zpow_sub₀ (by norm_num)]
  norm_num
  ring

include hnumerator hdenominator in
/-- The digits are six, even if the last of them is rounded up to a seventh.  In that case
the six digits are those of the next power of ten. -/
theorem sixDigits_spec {digits : ℕ} {first : ℤ}
    (hdigits : sixDigits numerator denominator = (digits, first)) :
    100000 ≤ digits ∧ digits < 1000000 ∧
      RoundsToSixDigits ((numerator : ℚ) / denominator) (digits * 10 ^ (first - 5)) := by
  obtain ⟨hlow, hhigh⟩ := decimalExponent_spec hnumerator hdenominator
  rw [sixDigits] at hdigits
  generalize decimalExponent numerator denominator = exponent at hlow hhigh hdigits
  have hscaled : 0 < denominator * Nat.pow 10 (exponent - 5).toNat :=
    Nat.mul_pos hdenominator (Nat.pow_pos (by decide))
  have hrounds := roundsToEven_roundQuotient
    (numerator * Nat.pow 10 (-(exponent - 5)).toNat) hscaled
  rw [scaled_eq hdenominator, neg_sub] at hrounds
  generalize roundQuotient _ _ = rounded at hrounds hdigits
  have hnonneg : |(numerator : ℚ) / denominator| = numerator / denominator :=
    abs_of_nonneg (by positivity)
  have hvalue : RoundsToSixDigits ((numerator : ℚ) / denominator) (rounded * 10 ^ (exponent - 5)) :=
    .digits exponent rounded (by rwa [hnonneg]) (by rwa [hnonneg]) hrounds
  have hunit : (0 : ℚ) < 10 ^ (exponent - 5) := by positivity
  have hfirst := pow_first_eq exponent
  have hsix : 100000 ≤ rounded := by
    have hle : ((100000 : ℤ) : ℚ) ≤ numerator / denominator / 10 ^ (exponent - 5) := by
      rw [le_div_iff₀ hunit]
      calc
        ((100000 : ℤ) : ℚ) * 10 ^ (exponent - 5) = 10 ^ exponent := hfirst.symm
        _ ≤ numerator / denominator := hlow
    exact_mod_cast (RoundsToEven.intCast 100000).mono hrounds hle
  have hseven : rounded ≤ 1000000 := by
    have hle : numerator / denominator / 10 ^ (exponent - 5) ≤ ((1000000 : ℤ) : ℚ) := by
      rw [div_le_iff₀ hunit]
      calc
        (numerator : ℚ) / denominator ≤ 10 ^ (exponent + 1) := hhigh.le
        _ = ((1000000 : ℤ) : ℚ) * 10 ^ (exponent - 5) := by
          rw [zpow_add_one₀ (by norm_num), hfirst]
          push_cast
          ring
    exact_mod_cast hrounds.mono (RoundsToEven.intCast 1000000) hle
  split at hdigits
  · next hcarry =>
      obtain ⟨rfl, rfl⟩ := Prod.mk.inj hdigits
      have hcarried : ((100000 : ℕ) : ℚ) * 10 ^ (exponent + 1 - 5) =
          ((rounded : ℤ) : ℚ) * 10 ^ (exponent - 5) := by
        rw [hcarry, add_sub_right_comm, zpow_add_one₀ (by norm_num)]
        push_cast
        ring
      rw [hcarried]
      exact ⟨le_rfl, by decide, hvalue⟩
  · next hne =>
      obtain ⟨rfl, rfl⟩ := Prod.mk.inj hdigits
      exact ⟨hsix, by omega, hvalue⟩

end Binary64

end TextMode
