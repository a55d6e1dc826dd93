import Mathlib
import TextMode.Proofs.Dimension.Decimals
import TextMode.Proofs.Dimension.Sequences
import TextMode.Proofs.Number.SixDigits

/-!
# Dimensions with six digits

The text of a dimension shows its magnitude in six significant digits.  Digits and a point are a
numeral that denotes the rounded magnitude.  A numeral before an exponent is not followed by a
unit, although units may start with the same letter, and the name of an infinite magnitude starts
with no numeral.  So just the dimensions of moderate size can be read back.
-/

namespace TextMode

namespace Binary64

/-! ## Digits around a point -/

/-- Digits with a point among them or zeros in front of them.  The fraction ends with the
sixth digit, so it is as long as the exponent says. -/
theorem exists_positionalText {digits : Text} {first : ℤ} (hdigits : AreDigits digits)
    (hlength : digits.length = 6) (hfirst : first < 6) :
    ∃ whole fraction, positionalText digits first = whole ++ Text.fractionPart fraction ∧
      whole ≠ [] ∧ AreDigits whole ∧ AreDigits fraction ∧
      (Text.ofDigits (whole ++ fraction) : ℚ) / 10 ^ fraction.length =
        Text.ofDigits digits * 10 ^ (first - 5) := by
  have hscaled : ∀ whole fraction : Text, first - 5 = -(fraction.length : ℤ) →
      Text.ofDigits (whole ++ fraction) = Text.ofDigits digits →
      (Text.ofDigits (whole ++ fraction) : ℚ) / 10 ^ fraction.length =
        Text.ofDigits digits * 10 ^ (first - 5) := by
    intro whole fraction hexponent hvalue
    rw [hexponent, zpow_neg, zpow_natCast, hvalue, div_eq_mul_inv]
  rw [positionalText]
  split
  · have hzeros : AreDigits (List.replicate (-first - 1).toNat '0') := by
      intro c hc
      obtain rfl := List.eq_of_mem_replicate hc
      decide
    refine ⟨['0'], List.replicate (-first - 1).toNat '0' ++ digits, rfl, by simp,
      List.forall_mem_singleton.mpr (by decide), hzeros.append hdigits, hscaled _ _ ?_ ?_⟩
    · rw [List.length_append, List.length_replicate, hlength]
      omega
    · rw [List.singleton_append, ← List.cons_append, ← List.replicate_succ, Text.ofDigits_append,
        Text.ofDigits_zeros, Nat.zero_mul, Nat.zero_add]
  · refine ⟨digits.take (first.toNat + 1), digits.drop (first.toNat + 1), rfl, ?_,
      fun c hc => hdigits c (List.mem_of_mem_take hc),
      fun c hc => hdigits c (List.mem_of_mem_drop hc), hscaled _ _ ?_ ?_⟩
    · rw [← List.length_pos_iff, List.length_take]
      omega
    · rw [List.length_drop, hlength]
      omega
    · rw [List.take_append_drop]

/-- The exponent of the first of six digits tells the size of the number. -/
theorem exponent_of_size {digits : ℕ} {first : ℤ} (hlow : 100000 ≤ digits)
    (hhigh : digits < 1000000) (negative : Bool) :
    (1 / 10000 ≤ |signed negative ((digits : ℚ) * 10 ^ (first - 5))| ∧
        |signed negative ((digits : ℚ) * 10 ^ (first - 5))| < 1000000) ↔
      -4 ≤ first ∧ first < 6 := by
  have hbelow : (10 : ℚ) ^ first ≤ digits * 10 ^ (first - 5) := by
    rw [pow_first_eq first]
    gcongr
    exact_mod_cast hlow
  have habove : (digits : ℚ) * 10 ^ (first - 5) < 10 ^ (first + 1) := by
    have hdigits : (digits : ℚ) < 1000000 := by exact_mod_cast hhigh
    calc
      (digits : ℚ) * 10 ^ (first - 5) < 1000000 * 10 ^ (first - 5) := by gcongr
      _ = 10 ^ (first + 1) := by
        rw [zpow_add_one₀ (by norm_num), pow_first_eq first]
        ring
  have hbase : (1 : ℚ) < 10 := by norm_num
  have hleast : (1 : ℚ) / 10000 = 10 ^ (-4 : ℤ) := by norm_num
  have hmost : (1000000 : ℚ) = 10 ^ (6 : ℤ) := by norm_num
  rw [abs_signed, abs_of_nonneg (by positivity), hleast, hmost]
  constructor
  · rintro ⟨hmin, hmax⟩
    have hmin' := (zpow_lt_zpow_iff_right₀ hbase).mp (hmin.trans_lt habove)
    have hmax' := (zpow_lt_zpow_iff_right₀ hbase).mp (hbelow.trans_lt hmax)
    omega
  · rintro ⟨hmin, hmax⟩
    exact ⟨(zpow_le_zpow_right₀ hbase.le hmin).trans hbelow,
      habove.trans_le (zpow_le_zpow_right₀ hbase.le (by omega))⟩

/-! ## Texts of magnitudes -/

variable {m : Binary64} {x r : ℚ}

/-- Zero is shown as the digit alone, with the sign that it has. -/
theorem exists_generalText_of_zero (hx : m.value? = some 0) :
    ∃ negative, m.generalText = signText negative ++ ['0'] := by
  obtain ⟨negative, significand, exponent, canonical, rfl, hvalue⟩ := exists_of_value? hx
  have hzero : significand = 0 := by
    by_contra hne
    have hpos : (0 : ℚ) < significand := Nat.cast_pos.mpr (Nat.pos_of_ne_zero hne)
    have habs := abs_signed negative ((numerator significand exponent : ℚ) / denominator exponent)
    rw [← hvalue, abs_zero, numerator_div_denominator] at habs
    exact absurd habs (by positivity)
  exact ⟨negative, by rw [generalText, if_pos hzero]⟩

/-- Six digits and the exponent of the first make up what is shown of a value but zero. -/
theorem exists_generalText (hx : m.value? = some x) (hne : x ≠ 0) :
    ∃ (negative : Bool) (digits : ℕ) (first : ℤ), 100000 ≤ digits ∧ digits < 1000000 ∧
      RoundsToSixDigits x (signed negative ((digits : ℚ) * 10 ^ (first - 5))) ∧
      m.generalText = signText negative ++
        if -4 ≤ first ∧ first < 6 then positionalText (Text.decimal digits) first
        else scientificText (Text.decimal digits) first := by
  obtain ⟨negative, significand, exponent, canonical, rfl, rfl⟩ := exists_of_value? hx
  have hpos : significand ≠ 0 := by
    rintro rfl
    apply hne
    rw [numerator_div_denominator, Nat.cast_zero, zero_mul]
    cases negative <;> simp [signed]
  have hnumerator : 0 < numerator significand exponent :=
    Nat.mul_pos (Nat.pos_of_ne_zero hpos) (Nat.pow_pos (by decide))
  cases hdigits : sixDigits (numerator significand exponent) (denominator exponent) with
  | mk digits first =>
      obtain ⟨hlow, hhigh, hrounds⟩ :=
        sixDigits_spec hnumerator (denominator_pos exponent) hdigits
      refine ⟨negative, digits, first, hlow, hhigh, hrounds.signed negative, ?_⟩
      rw [generalText, if_neg hpos, hdigits]

/-- The magnitude is zero, or rounded to six significant digits it is a ten-thousandth or more
and less than a million. -/
def RoundsModerately (m : Binary64) (r : ℚ) : Prop :=
  ∃ x, m.value? = some x ∧ RoundsToSixDigits x r ∧ (x = 0 ∨ (1 / 10000 ≤ |r| ∧ |r| < 1000000))

/-- A value of moderate size is shown as a well-formed numeral that denotes what the value
is rounded to. -/
theorem RoundsModerately.exists_numeral (hm : m.RoundsModerately r) :
    ∃ numeral : Numeral, numeral.WellFormed ∧ m.generalText = numeral.text ∧ numeral.value = r := by
  obtain ⟨x, hx, hrounds, hsize⟩ := hm
  rcases eq_or_ne x 0 with rfl | hne
  · obtain ⟨negative, htext⟩ := exists_generalText_of_zero hx
    refine ⟨.ofDigits negative ['0'] [], Numeral.wellFormed_ofDigits negative (by simp)
      (List.forall_mem_singleton.mpr (by decide)) .nil, ?_, ?_⟩
    · rw [htext, Numeral.text_ofDigits]
      rfl
    · rw [hrounds.unique .zero, Numeral.value_ofDigits]
      cases negative <;> norm_num [signed, Text.ofDigits, Text.digitValue]
  · obtain ⟨negative, digits, first, hlow, hhigh, hdigits, htext⟩ := exists_generalText hx hne
    obtain rfl := hrounds.unique hdigits
    have hfirst := (exponent_of_size hlow hhigh negative).mp (hsize.resolve_left hne)
    have hlength : (Text.decimal digits).length = 6 := by
      have hmost := (Text.length_decimal_le_iff (by decide : 0 < 6)).mpr hhigh
      have hleast := mt (Text.length_decimal_le_iff (by decide : 0 < 5)).mp (not_lt.mpr hlow)
      omega
    obtain ⟨whole, fraction, hshown, hwhole, hareWhole, hareFraction, hvalue⟩ :=
      exists_positionalText (.decimal digits) hlength hfirst.2
    refine ⟨.ofDigits negative whole fraction,
      Numeral.wellFormed_ofDigits negative hwhole hareWhole hareFraction, ?_, ?_⟩
    · rw [htext, if_pos hfirst, hshown, Numeral.text_ofDigits]
    · rw [Numeral.value_ofDigits, hvalue, Text.ofDigits_decimal]

/-! ## Exponents -/

/-- No unit starts with the letter of an exponent and the sign behind it.  So a text with an
exponent is not read, although a numeral stands in front. -/
theorem readLiteral?_scientificText (negative : Bool) {digits : Text} (hdigits : AreDigits digits)
    (hne : digits ≠ []) (first : ℤ) (rest : Text) :
    readLiteral? (signText negative ++ scientificText digits first ++ rest) = none := by
  have hwell : (Numeral.ofDigits negative (digits.take 1) (digits.drop 1)).WellFormed :=
    Numeral.wellFormed_ofDigits negative (by simpa using hne)
      (fun c hc => hdigits c (List.mem_of_mem_take hc))
      (fun c hc => hdigits c (List.mem_of_mem_drop hc))
  have hunit : ∀ (sign : Char) (rest : Text), sign = '-' ∨ sign = '+' →
      LengthUnit.read? ('e' :: sign :: rest) = none := by
    rintro _ rest (rfl | rfl) <;> rfl
  have hsign : (if first < 0 then '-' else '+') = '-' ∨ (if first < 0 then '-' else '+') = '+' := by
    split
    · exact .inl rfl
    · exact .inr rfl
  have hends : ∀ rest : Text, Numeral.EndsNumeral ('e' :: rest) := by
    rintro rest c ⟨⟩
    simp [IsSeparator]
  have hblank : ∀ rest : Text, ∀ c ∈ ('e' :: rest).head?, Text.isBlank c = false := by
    rintro rest c ⟨⟩
    decide
  have hshown := Numeral.readLiteral?_text_append hwell (hends _) (hblank _)
    (hunit _ (Text.padZeros 2 (Text.decimal first.natAbs) ++ rest) hsign)
  rw [Numeral.text_ofDigits] at hshown
  simpa only [scientificText, List.append_assoc, List.cons_append] using hshown

/-- Infinity is written in letters, and no numeral starts with one. -/
theorem readLiteral?_infiniteText (negative : Bool) (unit : LengthUnit) :
    readLiteral? (infiniteText negative ++ unit.symbol) = none := by
  cases negative <;> cases unit <;> rfl

/-- What is not of moderate size is shown with an exponent or in letters, and neither is
read as a literal. -/
theorem readLiteral?_generalText (hm : ¬ ∃ r, m.RoundsModerately r) (unit : LengthUnit) :
    readLiteral? (m.generalText ++ unit.symbol) = none := by
  cases hx : m.value? with
  | none =>
      cases m with
      | finite negative significand exponent canonical => cases hx
      | infinite negative => exact readLiteral?_infiniteText negative unit
      | nan => cases unit <;> rfl
  | some x =>
      have hne : x ≠ 0 := by
        rintro rfl
        exact hm ⟨0, 0, hx, .zero, .inl rfl⟩
      obtain ⟨negative, digits, first, hlow, hhigh, hdigits, htext⟩ := exists_generalText hx hne
      have hfirst : ¬ (-4 ≤ first ∧ first < 6) := fun hfirst =>
        hm ⟨_, x, hx, hdigits, .inr ((exponent_of_size hlow hhigh negative).mpr hfirst)⟩
      rw [htext, if_neg hfirst]
      exact readLiteral?_scientificText negative (.decimal digits) Nat.toDigits_ne_nil first _

/-- Every finite magnitude is rounded to six digits in one way. -/
theorem existsUnique_roundsToSixDigits (hx : m.value? = some x) : ∃! r, RoundsToSixDigits x r := by
  have hexists : ∃ r, RoundsToSixDigits x r := by
    rcases eq_or_ne x 0 with rfl | hne
    · exact ⟨0, .zero⟩
    · obtain ⟨negative, digits, first, -, -, hdigits, -⟩ := exists_generalText hx hne
      exact ⟨_, hdigits⟩
  obtain ⟨r, hr⟩ := hexists
  exact ⟨r, hr, fun r' hr' => hr'.unique hr⟩

end Binary64

/-! ## Reading back -/

namespace Dimension

variable {dimension : Dimension}

/-- The text of a dimension of moderate size is matched as a whole, and what is read has its
unit and its rounded magnitude. -/
theorem exists_read?_text {r : ℚ} (hr : dimension.magnitude.RoundsModerately r) :
    ∃ numeral : Numeral,
      matchLiteral? dimension.text = some ⟨numeral, dimension.unit, dimension.text.length⟩ ∧
      numeral.value = r ∧ read? dimension.text = some ⟨numeral.magnitude, dimension.unit⟩ := by
  obtain ⟨numeral, hwell, htext, hvalue⟩ := hr.exists_numeral
  have hmatch := Numeral.matchLiteral?_text hwell dimension.unit
  rw [← htext] at hmatch
  refine ⟨numeral, hmatch, hvalue, ?_⟩
  rw [read?, text, hmatch]
  rfl

theorem match_text_eq_none (hnone : ¬ ∃ r, dimension.magnitude.RoundsModerately r) :
    matchLiteral? dimension.text = none ∧ matchLeadingLiteral? dimension.text = none := by
  have hread := Binary64.readLiteral?_generalText hnone dimension.unit
  refine ⟨?_, matchLeadingLiteral?_eq_none_iff.mpr hread⟩
  rw [matchLiteral?, text, hread]
  rfl

end Dimension

/-- The text of a dimension is read back if and only if its magnitude is finite and zero, or of
moderate size when it is rounded to six significant digits.  What is read then has the same unit
and denotes the rounded magnitude.  Otherwise the text does not even start with a literal. -/
theorem dimension_text_read_back (dimension : Dimension) :
    (∀ x, dimension.magnitude.value? = some x → ∃! r, RoundsToSixDigits x r) ∧
    ((∃ read, Dimension.read? dimension.text = some read) ↔
      ∃ r, dimension.magnitude.RoundsModerately r) ∧
    (∀ r, dimension.magnitude.RoundsModerately r → ∃ numeral : Numeral,
      matchLiteral? dimension.text = some ⟨numeral, dimension.unit, dimension.text.length⟩ ∧
      numeral.value = r ∧
      Dimension.read? dimension.text = some ⟨numeral.magnitude, dimension.unit⟩) ∧
    ((¬ ∃ r, dimension.magnitude.RoundsModerately r) →
      matchLiteral? dimension.text = none ∧ matchLeadingLiteral? dimension.text = none) := by
  refine ⟨fun x hx => Binary64.existsUnique_roundsToSixDigits hx, ⟨?_, ?_⟩,
    fun r hr => Dimension.exists_read?_text hr, Dimension.match_text_eq_none⟩
  · rintro ⟨read, hread⟩
    by_contra hnone
    have hunread := Dimension.read?_eq_none_iff.mpr (Dimension.match_text_eq_none hnone).1
    rw [hunread] at hread
    cases hread
  · rintro ⟨r, hr⟩
    obtain ⟨numeral, -, -, hread⟩ := Dimension.exists_read?_text hr
    exact ⟨_, hread⟩

/-- Ties go to the even digit.  One is shown without its half, another is rounded to a million. -/
theorem dimension_text_read_back_ties :
    (∃ dimension numeral, Dimension.read? "123456.5em".toList = some dimension ∧
      matchLiteral? dimension.text = some ⟨numeral, .em, dimension.text.length⟩ ∧
      numeral.value = 123456) ∧
    ∃ dimension, Dimension.read? "999999.5em".toList = some dimension ∧
      matchLiteral? dimension.text = none ∧ matchLeadingLiteral? dimension.text = none := by
  have hread : Dimension.read? "123456.5em".toList =
      some ⟨.finite false (246913 * 2 ^ 35) (-36) (by decide), .em⟩ := by
    decide +kernel
  have hread' : Dimension.read? "999999.5em".toList =
      some ⟨.finite false (1999999 * 2 ^ 32) (-33) (by decide), .em⟩ := by
    decide +kernel
  have hvalue : Binary64.value? (.finite false (246913 * 2 ^ 35) (-36) (by decide)) =
      some 123456.5 := by
    rw [Binary64.value?]
    norm_num [signed]
  have hvalue' : Binary64.value? (.finite false (1999999 * 2 ^ 32) (-33) (by decide)) =
      some 999999.5 := by
    rw [Binary64.value?]
    norm_num [signed]
  have hrounds : RoundsToSixDigits 123456.5 123456 := by
    have htie : RoundsToEven ((123456.5 : ℚ) / 10 ^ ((5 : ℤ) - 5)) 123456 :=
      ⟨by norm_num [abs_of_pos], fun _ => by decide⟩
    simpa using RoundsToSixDigits.digits 5 123456 (by norm_num [abs_of_pos])
      (by norm_num [abs_of_pos]) htie
  have hrounds' : RoundsToSixDigits 999999.5 1000000 := by
    have htie : RoundsToEven ((999999.5 : ℚ) / 10 ^ ((5 : ℤ) - 5)) 1000000 :=
      ⟨by norm_num [abs_of_pos], fun _ => by decide⟩
    simpa using RoundsToSixDigits.digits 5 1000000 (by norm_num [abs_of_pos])
      (by norm_num [abs_of_pos]) htie
  refine ⟨?_, _, hread', (dimension_text_read_back _).2.2.2 ?_⟩
  · obtain ⟨numeral, hmatch, hnumeral, -⟩ := (dimension_text_read_back
      ⟨.finite false (246913 * 2 ^ 35) (-36) (by decide), .em⟩).2.2.1 123456
      ⟨_, hvalue, hrounds, .inr (by norm_num [abs_of_pos])⟩
    exact ⟨_, numeral, hread, hmatch, hnumeral⟩
  · rintro ⟨r, x, hx, hr, hsize⟩
    obtain rfl := Option.some.inj (hvalue'.symm.trans hx)
    obtain rfl := hr.unique hrounds'
    norm_num [abs_of_pos] at hsize

end TextMode
