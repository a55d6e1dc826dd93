import Mathlib
import TextMode.Number.Binary64

/-!
# Exact values and their rounding

A finite number in double precision has a rational value.  Renderings round multiples of it to
the nearest integer, a tie going to the even one.  This leaves one integer for every value, and
a larger value never has a smaller one.
-/

namespace TextMode

/-- The integer is nearest to the value, and even if another one is just as near. -/
def RoundsToEven (x : ℚ) (n : ℤ) : Prop :=
  |x - n| ≤ 1 / 2 ∧ (|x - n| = 1 / 2 → Even n)

namespace RoundsToEven

variable {x y : ℚ} {m n : ℤ}

/-- A larger value is not rounded to a smaller integer.  Otherwise both values would be the
midpoint between two neighbours, and both neighbours would be even. -/
theorem mono (hx : RoundsToEven x m) (hy : RoundsToEven y n) (hle : x ≤ y) : m ≤ n := by
  by_contra hlt
  have hstep : (n : ℚ) + 1 ≤ m := by exact_mod_cast not_le.mp hlt
  have hlow := (abs_le.mp hx.1).1
  have hhigh := (abs_le.mp hy.1).2
  have hxm : x - m = -(1 / 2) := by linarith
  have hyn : y - n = 1 / 2 := by linarith
  have hm : Even m := hx.2 (by rw [hxm]; norm_num)
  have hn : Even n := hy.2 (by rw [hyn]; norm_num)
  have hneighbour : m = n + 1 := by
    have : (m : ℚ) = n + 1 := by linarith
    exact_mod_cast this
  rw [hneighbour] at hm
  exact Int.not_even_iff_odd.mpr hn.add_one hm

theorem unique (hm : RoundsToEven x m) (hn : RoundsToEven x n) : m = n :=
  le_antisymm (hm.mono hn le_rfl) (hn.mono hm le_rfl)

theorem neg (hx : RoundsToEven x n) : RoundsToEven (-x) (-n) := by
  have hdistance : |-x - ((-n : ℤ) : ℚ)| = |x - n| := by
    rw [Int.cast_neg, neg_sub_neg, abs_sub_comm]
  rw [RoundsToEven, hdistance, even_neg]
  exact hx

theorem of_abs_lt (hnear : |x - n| < 1 / 2) : RoundsToEven x n :=
  ⟨hnear.le, fun hhalf => absurd hhalf hnear.ne⟩

theorem intCast (n : ℤ) : RoundsToEven n n :=
  of_abs_lt (by norm_num)

end RoundsToEven

/-- The quotient of two natural numbers is rounded by whole-number division.  What is left
over is compared with half of the denominator, so no value in between is needed. -/
theorem roundsToEven_roundQuotient (numerator : ℕ) {denominator : ℕ} (hpos : 0 < denominator) :
    RoundsToEven ((numerator : ℚ) / denominator) (roundQuotient numerator denominator) := by
  have hpos' : (0 : ℚ) < denominator := Nat.cast_pos.mpr hpos
  have hvalue : (numerator : ℚ) / denominator =
      (numerator / denominator : ℕ) + ((numerator % denominator : ℕ) : ℚ) / denominator := by
    rw [div_eq_iff hpos'.ne', add_mul, div_mul_cancel₀ _ hpos'.ne']
    exact_mod_cast (Nat.div_add_mod' numerator denominator).symm
  have hrest : numerator % denominator < denominator := Nat.mod_lt numerator hpos
  rw [hvalue, roundQuotient]
  generalize numerator / denominator = quotient
  generalize numerator % denominator = rest at hrest
  have hnonneg : 0 ≤ (rest : ℚ) / denominator := by positivity
  split_ifs with hlow hhigh
  · have hbelow : (rest : ℚ) / denominator < 1 / 2 := by
      have : (2 * rest : ℚ) < denominator := by exact_mod_cast hlow
      rw [div_lt_iff₀ hpos']
      linarith
    apply RoundsToEven.of_abs_lt
    rw [abs_lt, Int.cast_natCast]
    constructor <;> linarith
  · have habove : 1 / 2 < (rest : ℚ) / denominator := by
      have : (denominator : ℚ) < 2 * rest := by exact_mod_cast hhigh
      rw [lt_div_iff₀ hpos']
      linarith
    have hone : (rest : ℚ) / denominator < 1 := by
      rw [div_lt_one hpos']
      exact_mod_cast hrest
    apply RoundsToEven.of_abs_lt
    rw [abs_lt, Int.cast_natCast, Nat.cast_add_one]
    constructor <;> linarith
  · have hhalf : (rest : ℚ) / denominator = 1 / 2 := by
      have : (2 * rest : ℚ) = denominator := by exact_mod_cast (by omega : 2 * rest = denominator)
      rw [div_eq_iff hpos'.ne']
      linarith
    rw [hhalf]
    rcases Nat.even_or_odd quotient with heven | hodd
    · rw [Nat.even_iff.mp heven, add_zero]
      exact ⟨by norm_num, fun _ => by exact_mod_cast heven⟩
    · rw [Nat.odd_iff.mp hodd]
      exact ⟨by norm_num, fun _ => by exact_mod_cast hodd.add_one⟩

/-! ## Exact values -/

/-- A magnitude behind its sign. -/
def signed {α : Type} [Neg α] (negative : Bool) (x : α) : α :=
  if negative then -x else x

theorem abs_signed (negative : Bool) (x : ℚ) : |signed negative x| = |x| := by
  cases negative with
  | false => rfl
  | true => exact abs_neg x

theorem mul_signed (negative : Bool) (x y : ℚ) :
    x * signed negative y = signed negative (x * y) := by
  cases negative with
  | false => rfl
  | true => exact mul_neg x y

theorem cast_signed (negative : Bool) (n : ℤ) :
    (signed negative n : ℤ) = signed negative (n : ℚ) := by
  cases negative with
  | false => rfl
  | true => exact Int.cast_neg n

theorem RoundsToEven.signed {x : ℚ} {n : ℤ} (hx : RoundsToEven x n) (negative : Bool) :
    RoundsToEven (signed negative x) (signed negative n) := by
  cases negative with
  | false => exact hx
  | true => exact hx.neg

/-- A power is a quotient of natural powers, of which one is one.  So a value with an
exponent of either sign is written with natural numbers. -/
theorem zpow_eq_toNat_div {base : ℚ} (hbase : base ≠ 0) (exponent : ℤ) :
    base ^ exponent = base ^ exponent.toNat / base ^ (-exponent).toNat := by
  rw [← zpow_natCast, ← zpow_natCast, ← zpow_sub₀ hbase]
  congr 1
  omega

namespace Binary64

/-- The rational number that a finite number stands for. -/
def value? : Binary64 → Option ℚ
  | finite negative significand exponent _ =>
      some (signed negative (significand * 2 ^ exponent))
  | infinite _ | nan => none

theorem numerator_div_denominator (significand : ℕ) (exponent : ℤ) :
    (numerator significand exponent : ℚ) / denominator exponent = significand * 2 ^ exponent := by
  rw [zpow_eq_toNat_div two_ne_zero, numerator, denominator, Nat.pow_eq, Nat.pow_eq]
  push_cast
  ring

theorem denominator_pos (exponent : ℤ) : 0 < denominator exponent :=
  Nat.pow_pos (by decide)

/-- A finite number has its value as the quotient that the renderings work with, behind its
sign. -/
theorem exists_of_value? {m : Binary64} {x : ℚ} (hx : m.value? = some x) :
    ∃ negative significand exponent canonical, m = finite negative significand exponent canonical ∧
      x = signed negative ((numerator significand exponent : ℚ) / denominator exponent) := by
  cases m with
  | finite negative significand exponent canonical =>
      refine ⟨negative, significand, exponent, canonical, rfl, ?_⟩
      rw [numerator_div_denominator]
      exact (Option.some.inj hx).symm
  | infinite negative => cases hx
  | nan => cases hx

end Binary64

end TextMode
