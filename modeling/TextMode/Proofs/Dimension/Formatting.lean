import Mathlib
import TextMode.Proofs.Dimension.Decimals

/-!
# Lengths with three decimals

A length in ems is shown as its exact value, rounded to thousandths.  What is nearer to zero than
a fixed bound is shown as zero, and since the bound is above half a thousandth nothing else is.
So the order of lengths shows in what is written for them.
-/

namespace TextMode

/-! ## Thousandths -/

namespace Numeral

/-- A numeral without a plus, without needless zeros before or behind, and with three decimals at
most. -/
structure IsPlain (numeral : Numeral) : Prop where
  sign : numeral.sign = none ∨ numeral.sign = some '-'
  whole_ne_nil : numeral.whole ≠ []
  whole : AreDigits numeral.whole
  leadingZero : numeral.whole.head? = some '0' → numeral.whole = ['0']
  fraction : ∀ digits ∈ numeral.fraction, AreDigits digits ∧ digits ≠ [] ∧ digits.length ≤ 3 ∧
    digits.getLast? ≠ some '0'

def ofThousandths (negative : Bool) (n : ℕ) : Numeral :=
  ofDigits negative (Text.decimal (n / 1000)) (Text.padZeros 3 (Text.decimal (n % 1000)))

/-- The numeral of a number of thousandths is written as the number is shown. -/
theorem text_ofThousandths (negative : Bool) (n : ℕ) :
    (ofThousandths negative n).text = Binary64.signText negative ++ Binary64.thousandthsText n :=
  text_ofDigits negative _ _

theorem wellFormed_ofThousandths (negative : Bool) (n : ℕ) :
    (ofThousandths negative n).WellFormed :=
  wellFormed_ofDigits negative Nat.toDigits_ne_nil (.decimal _) (.padZeros 3 (.decimal _))

theorem length_padZeros_thousandths (n : ℕ) :
    (Text.padZeros 3 (Text.decimal (n % 1000))).length = 3 := by
  have hlt : n % 1000 < 10 ^ 3 := Nat.mod_lt n (by decide)
  have hle := (Text.length_decimal_le_iff (by decide)).mpr hlt
  rw [Text.padZeros, List.length_append, List.length_replicate]
  omega

/-- The digits before and behind the point are those of the number of thousandths, so
nothing is lost when it is divided by a thousand. -/
theorem value_ofThousandths (negative : Bool) (n : ℕ) :
    (ofThousandths negative n).value = (signed negative (n : ℤ) : ℤ) / 1000 := by
  have hdigits : Text.ofDigits (Text.decimal (n / 1000) ++
      Text.padZeros 3 (Text.decimal (n % 1000))) = n := by
    rw [Text.ofDigits_append, Text.ofDigits_padZeros, Text.ofDigits_decimal, Text.ofDigits_decimal,
      length_padZeros_thousandths]
    exact Nat.div_add_mod' n 1000
  rw [ofThousandths, value_ofDigits, hdigits, length_padZeros_thousandths, cast_signed,
    Int.cast_natCast, div_eq_inv_mul, div_eq_inv_mul, mul_signed]
  norm_num

/-- The whole part is written without leading zeros and the fraction without trailing ones.
Three digits are all that a thousandth needs. -/
theorem isPlain_ofThousandths (negative : Bool) (n : ℕ) : (ofThousandths negative n).IsPlain where
  sign := by cases negative <;> simp [ofThousandths, ofDigits]
  whole_ne_nil := Nat.toDigits_ne_nil
  whole := .decimal _
  leadingZero := Text.decimal_of_head?
  fraction := by
    intro digits hdigits
    have hshown : digits ∈ shownFraction (Text.padZeros 3 (Text.decimal (n % 1000))) := hdigits
    obtain ⟨hne, rfl⟩ := mem_shownFraction_iff.mp hshown
    refine ⟨(AreDigits.padZeros 3 (.decimal _)).dropTrailingZeros, hne, ?_,
      Text.getLast?_dropTrailingZeros _⟩
    calc
      _ ≤ (Text.padZeros 3 (Text.decimal (n % 1000))).length :=
          (List.rdropWhile_prefix _ _).length_le
      _ = 3 := length_padZeros_thousandths n

end Numeral

/-! ## The bound for zero -/

namespace Binary64

/-- The exact value of the double precision number nearest to `0.0006`. -/
def zeroBound : ℚ :=
  5534023222112865 / 2 ^ 63

/-- The bound is not `0.0006` itself but the double precision number nearest to it, which is
a little smaller. -/
theorem value?_shownAsZero : shownAsZero.value? = some zeroBound := by
  have hbound : shownAsZero = finite false 5534023222112865 (-63) (by decide) := by
    decide +kernel
  rw [hbound, value?, zeroBound, zpow_neg, ← div_eq_mul_inv]
  rfl

variable {m m' : Binary64} {x x' : ℚ}

/-- Magnitudes are compared by their exact values.  Both quotients are brought to one
denominator, so nothing is rounded. -/
theorem magnitudeLt_iff (hx : m.value? = some x) (hx' : m'.value? = some x') :
    m.magnitudeLt m' = true ↔ |x| < |x'| := by
  obtain ⟨s, significand, exponent, canonical, rfl, rfl⟩ := exists_of_value? hx
  obtain ⟨s', significand', exponent', canonical', rfl, rfl⟩ := exists_of_value? hx'
  have hpos : (0 : ℚ) < denominator exponent := Nat.cast_pos.mpr (denominator_pos exponent)
  have hpos' : (0 : ℚ) < denominator exponent' := Nat.cast_pos.mpr (denominator_pos exponent')
  rw [abs_signed, abs_signed, abs_of_nonneg (by positivity), abs_of_nonneg (by positivity),
    div_lt_div_iff₀ hpos hpos', magnitudeLt, decide_eq_true_iff]
  exact_mod_cast Iff.rfl

/-- The number of thousandths that is shown for a value. -/
def ShownThousandths (x : ℚ) (n : ℤ) : Prop :=
  (|x| < zeroBound ∧ n = 0) ∨ (zeroBound ≤ |x| ∧ RoundsToEven (1000 * x) n)

/-- A larger value is never shown as fewer thousandths.  Rounding keeps the order, and zero
lies between what the two signs round to. -/
theorem ShownThousandths.mono {n n' : ℤ} (hn : ShownThousandths x n) (hn' : ShownThousandths x' n')
    (hle : x ≤ x') : n ≤ n' := by
  have hbound : 0 < zeroBound := by norm_num [zeroBound]
  have hzero : RoundsToEven 0 0 := by simpa using RoundsToEven.intCast 0
  rcases hn with ⟨hbelow, rfl⟩ | ⟨habove, hn⟩
  · rcases hn' with ⟨-, rfl⟩ | ⟨habove', hn'⟩
    · exact le_rfl
    · have hpos : zeroBound ≤ x' := by
        rcases le_abs.mp habove' with hpos | hneg
        · exact hpos
        · linarith [(abs_lt.mp hbelow).1]
      exact hzero.mono hn' (by linarith)
  · rcases hn' with ⟨hbelow', rfl⟩ | ⟨-, hn'⟩
    · have hneg : zeroBound ≤ -x := by
        rcases le_abs.mp habove with hpos | hneg
        · linarith [(abs_lt.mp hbelow').2]
        · exact hneg
      exact hn.mono hzero (by linarith)
    · exact hn.mono hn' (by linarith)

theorem magnitudeLt_shownAsZero_iff (hx : m.value? = some x) :
    m.magnitudeLt shownAsZero = true ↔ |x| < zeroBound := by
  have hbound : |zeroBound| = zeroBound := abs_of_pos (by norm_num [zeroBound])
  rw [magnitudeLt_iff hx value?_shownAsZero, hbound]

theorem formatEm_of_lt (hx : m.value? = some x) (hbelow : |x| < zeroBound) :
    formatEm m = "0em".toList := by
  rw [formatEm, if_pos ((magnitudeLt_shownAsZero_iff hx).mpr hbelow)]

/-- A value from the bound on is rounded to thousandths, a tie going to the even one. -/
theorem exists_formatEm_of_le (hx : m.value? = some x) (habove : zeroBound ≤ |x|) :
    ∃ negative, ∃ n : ℕ, RoundsToEven (1000 * x) (signed negative (n : ℤ)) ∧
      formatEm m = (Numeral.ofThousandths negative n).text ++ LengthUnit.em.symbol := by
  have hnear : ¬ m.magnitudeLt shownAsZero = true :=
    mt (magnitudeLt_shownAsZero_iff hx).mp (not_lt.mpr habove)
  obtain ⟨negative, significand, exponent, canonical, rfl, rfl⟩ := exists_of_value? hx
  have hrounds := (roundsToEven_roundQuotient (numerator significand exponent * 1000)
    (denominator_pos exponent)).signed negative
  have hscaled : ((numerator significand exponent * 1000 : ℕ) : ℚ) / denominator exponent =
      1000 * (numerator significand exponent / denominator exponent) := by
    push_cast
    ring
  rw [hscaled, ← mul_signed] at hrounds
  refine ⟨negative, _, hrounds, ?_⟩
  rw [formatEm, if_neg hnear, Numeral.text_ofThousandths]
  rfl

/-- Every finite length is shown as a number of thousandths, which is matched as a whole.
Zero is shown without a fraction and so is no exception. -/
theorem exists_formatEm (hx : m.value? = some x) :
    ∃ negative, ∃ n : ℕ, ShownThousandths x (signed negative (n : ℤ)) ∧
      formatEm m = (Numeral.ofThousandths negative n).text ++ LengthUnit.em.symbol ∧
      matchLiteral? (formatEm m) =
        some ⟨.ofThousandths negative n, .em, (formatEm m).length⟩ := by
  have hshown : ∃ negative, ∃ n : ℕ, ShownThousandths x (signed negative (n : ℤ)) ∧
      formatEm m = (Numeral.ofThousandths negative n).text ++ LengthUnit.em.symbol := by
    rcases lt_or_ge |x| zeroBound with hbelow | habove
    · exact ⟨false, 0, .inl ⟨hbelow, rfl⟩, formatEm_of_lt hx hbelow⟩
    · obtain ⟨negative, n, hrounds, hformat⟩ := exists_formatEm_of_le hx habove
      exact ⟨negative, n, .inr ⟨habove, hrounds⟩, hformat⟩
  obtain ⟨negative, n, hrounds, hformat⟩ := hshown
  refine ⟨negative, n, hrounds, hformat, ?_⟩
  rw [hformat]
  exact Numeral.matchLiteral?_text (Numeral.wellFormed_ofThousandths negative n) .em

/-- The bound is above half a thousandth, so what is not below it is not rounded to zero. -/
theorem ShownThousandths.ne_zero {n : ℤ} (hn : ShownThousandths x n) (habove : zeroBound ≤ |x|) :
    RoundsToEven (1000 * x) n ∧ n ≠ 0 := by
  rcases hn with ⟨hbelow, -⟩ | ⟨-, hn⟩
  · exact absurd hbelow (not_lt.mpr habove)
  · refine ⟨hn, ?_⟩
    rintro rfl
    have hnear := hn.1
    rw [Int.cast_zero, sub_zero, abs_mul] at hnear
    norm_num [zeroBound] at hnear habove
    linarith

end Binary64

/-- Lengths are shown as their exact values to the thousandth.

The bound for zero is the double precision number nearest to `0.0006`.  Every finite length is
shown as a plain numeral in front of `em`, and the match of the whole text gives the numeral back.
Below the bound this is zero.  From the bound on it denotes the exact value rounded to thousandths,
a tie going to the even one, and is not zero.  A larger length is never shown as a smaller
number. -/
theorem lengths_shown_in_order :
    shownAsZero.value? = some Binary64.zeroBound ∧
    (∀ (m : Binary64) (x : ℚ), m.value? = some x → ∃ numeral : Numeral,
      formatEm m = numeral.text ++ "em".toList ∧ numeral.IsPlain ∧
      matchLiteral? (formatEm m) = some ⟨numeral, .em, (formatEm m).length⟩ ∧
      (|x| < Binary64.zeroBound → formatEm m = "0em".toList) ∧
      (Binary64.zeroBound ≤ |x| →
        ∃ n : ℤ, RoundsToEven (1000 * x) n ∧ n ≠ 0 ∧ numeral.value = n / 1000)) ∧
    ∀ (m m' : Binary64) (x x' : ℚ), m.value? = some x → m'.value? = some x' → x ≤ x' →
      ∀ found found', matchLiteral? (formatEm m) = some found →
        matchLiteral? (formatEm m') = some found' →
        found.numeral.value ≤ found'.numeral.value := by
  refine ⟨Binary64.value?_shownAsZero, ?_, ?_⟩
  · intro m x hx
    obtain ⟨negative, n, hshown, hformat, hfound⟩ := Binary64.exists_formatEm hx
    refine ⟨_, hformat, Numeral.isPlain_ofThousandths negative n, hfound,
      Binary64.formatEm_of_lt hx, ?_⟩
    intro habove
    obtain ⟨hrounds, hne⟩ := hshown.ne_zero habove
    exact ⟨_, hrounds, hne, Numeral.value_ofThousandths negative n⟩
  · intro m m' x x' hx hx' hle found found' hfound hfound'
    obtain ⟨negative, n, hshown, -, hread⟩ := Binary64.exists_formatEm hx
    obtain ⟨negative', n', hshown', -, hread'⟩ := Binary64.exists_formatEm hx'
    obtain rfl := Option.some.inj (hread.symm.trans hfound)
    obtain rfl := Option.some.inj (hread'.symm.trans hfound')
    have hmono := hshown.mono hshown' hle
    rw [Numeral.value_ofThousandths, Numeral.value_ofThousandths]
    gcongr

/-- A length half way between two thousandths is shown as the even one, and as a smaller number
than the bound for zero. -/
theorem lengths_shown_in_order_tie :
    ∃ (m : Binary64) (shown bound : Numeral),
      m.value? = some (-1.1875) ∧ formatEm m = shown.text ++ "em".toList ∧
      shown.value = -1.188 ∧
      matchLiteral? (formatEm shownAsZero) =
        some ⟨bound, .em, (formatEm shownAsZero).length⟩ ∧
      shown.value ≤ bound.value := by
  have hvalue : Binary64.value? (.finite true (19 * 2 ^ 48) (-52) (by decide)) =
      some (-1.1875) := by
    rw [Binary64.value?]
    norm_num [signed]
  obtain ⟨hbound, hplain, hmono⟩ := lengths_shown_in_order
  obtain ⟨shown, htext, -, hfound, -, hrounds⟩ := hplain _ _ hvalue
  obtain ⟨bound, -, -, hfound', -, -⟩ := hplain _ _ hbound
  obtain ⟨n, hn, -, hshown⟩ := hrounds (by norm_num [Binary64.zeroBound, abs_of_neg])
  have htie : RoundsToEven (1000 * -1.1875) (-1188) :=
    ⟨by norm_num [abs_of_pos], fun _ => by decide⟩
  have hle := hmono _ _ _ _ hvalue hbound (by norm_num [Binary64.zeroBound]) _ _ hfound hfound'
  refine ⟨_, shown, bound, hvalue, htext, ?_, hfound', hle⟩
  rw [hshown, hn.unique htie]
  norm_num

end TextMode
