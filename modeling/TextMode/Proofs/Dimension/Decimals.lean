import Mathlib
import TextMode.Proofs.Dimension.Literals
import TextMode.Proofs.Dimension.Rendering
import TextMode.Proofs.Number.Rounding
import TextMode.Proofs.Text.Digits

/-!
# Decimal values of numerals

A numeral denotes a rational number, whatever double precision makes of it.  Zeros at the end of
a fraction do not count, so a numeral that is written without them denotes the same number.  In
front of a unit a numeral is matched with all its digits.
-/

namespace TextMode

/-! ## Numerals -/

namespace Numeral

/-- The number that a numeral denotes exactly. -/
def value (numeral : Numeral) : ℚ :=
  signed (numeral.sign = some '-')
    ((Text.ofDigits (numeral.whole ++ numeral.fraction.getD []) : ℚ) /
      10 ^ (numeral.fraction.getD []).length)

/-- The fraction that is shown for digits behind the point. -/
def shownFraction (digits : Text) : Option Text :=
  match Text.dropTrailingZeros digits with
  | [] => none
  | significant => some significant

/-- The fraction that is shown is what is left of the digits without the zeros at their
end. -/
theorem getD_shownFraction (digits : Text) :
    (shownFraction digits).getD [] = Text.dropTrailingZeros digits := by
  rw [shownFraction]
  split
  · next hnil => exact hnil.symm
  · rfl

theorem mem_shownFraction_iff {digits shown : Text} :
    shown ∈ shownFraction digits ↔ shown ≠ [] ∧ shown = Text.dropTrailingZeros digits := by
  rw [shownFraction]
  cases Text.dropTrailingZeros digits with
  | nil => simp
  | cons c rest =>
      constructor
      · rintro ⟨⟩
        exact ⟨List.cons_ne_nil c rest, rfl⟩
      · rintro ⟨-, rfl⟩
        rfl

theorem pointedFraction_shownFraction (digits : Text) :
    pointedFraction (shownFraction digits) = Text.fractionPart digits := by
  rw [shownFraction, Text.fractionPart]
  cases Text.dropTrailingZeros digits <;> rfl

/-- The numeral that is shown for digits before and behind the point. -/
def ofDigits (negative : Bool) (whole fraction : Text) : Numeral where
  sign := if negative then some '-' else none
  whole := whole
  fraction := shownFraction fraction

section

variable {whole fraction : Text} (negative : Bool)

/-- The numeral of some digits is written as they are shown: the sign, the whole part, and a
fraction part unless it is zero. -/
theorem text_ofDigits (whole fraction : Text) :
    (ofDigits negative whole fraction).text =
      Binary64.signText negative ++ (whole ++ Text.fractionPart fraction) := by
  rw [text_eq, ofDigits, pointedFraction_shownFraction]
  cases negative <;> rfl

theorem wellFormed_ofDigits (hne : whole ≠ []) (hwhole : AreDigits whole)
    (hfraction : AreDigits fraction) : (ofDigits negative whole fraction).WellFormed where
  sign := by cases negative <;> simp [ofDigits, IsSign]
  whole := hwhole
  fraction := by
    rw [ofDigits, getD_shownFraction]
    exact hfraction.dropTrailingZeros
  digits_ne_nil := List.append_ne_nil_of_left_ne_nil hne _

/-- The value is that of all digits, scaled by the length of the fraction.  The zeros that
are not shown add nothing to it. -/
theorem value_ofDigits (whole fraction : Text) :
    (ofDigits negative whole fraction).value =
      signed negative ((Text.ofDigits (whole ++ fraction) : ℚ) / 10 ^ fraction.length) := by
  have hsign : decide ((ofDigits negative whole fraction).sign = some '-') = negative := by
    cases negative <;> rfl
  obtain ⟨count, hzeros⟩ := Text.exists_dropTrailingZeros fraction
  rw [value, hsign, ofDigits, getD_shownFraction]
  congr 1
  conv_rhs => rw [hzeros, ← List.append_assoc, Text.ofDigits_append, Text.ofDigits_zeros]
  rw [List.length_append, List.length_replicate, pow_add]
  push_cast
  rw [add_zero, mul_div_mul_right _ _ (by positivity)]

end

/-! ## Matching -/

open Text (isBlank)

theorem writes_text (numeral : Numeral) : numeral.Writes numeral.text :=
  ⟨_, writesFraction_pointedFraction numeral.fraction, text_eq numeral⟩

variable {numeral : Numeral} (hwell : numeral.WellFormed)

include hwell in
/-- A well-formed numeral is written in the grammar, with a point as its separator. -/
theorem isNumeral_text : IsNumeral numeral.text :=
  isNumeral_of_writes hwell numeral.writes_text

include hwell in
/-- A numeral and a unit are matched as a literal with just these parts.  The unit ends the
numeral, since no unit starts with a digit or a separator. -/
theorem matchLiteral?_text (unit : LengthUnit) :
    matchLiteral? (numeral.text ++ unit.symbol) =
      some ⟨numeral, unit, (numeral.text ++ unit.symbol).length⟩ := by
  have hliteral : IsLiteral numeral.text unit (numeral.text ++ unit.symbol) :=
    ⟨[], [], List.forall_mem_nil _, isNumeral_text hwell, List.forall_mem_nil _, by simp⟩
  have hread := readLiteral?_append hwell numeral.writes_text hliteral []
  rw [List.append_nil] at hread
  exact matchLiteral?_eq_some_iff.mpr ⟨[], hread, List.forall_mem_nil _, rfl⟩

include hwell in
/-- Nothing is matched in front of what is neither blank nor a unit.  Here the numeral is
read and then no unit is found. -/
theorem readLiteral?_text_append {rest : Text} (hrest : EndsNumeral rest)
    (hblank : ∀ c ∈ rest.head?, isBlank c = false) (hunit : LengthUnit.read? rest = none) :
    readLiteral? (numeral.text ++ rest) = none := by
  have hstart := (isNumeral_text hwell).dropLeadingBlanks (List.forall_mem_nil _) rest
  have hbehind : Text.dropLeadingBlanks rest = rest := by
    cases rest with
    | nil => rfl
    | cons c rest => simp [Text.dropLeadingBlanks, hblank c rfl]
  rw [List.nil_append] at hstart
  simp only [readLiteral?, hstart, read?_append hwell numeral.writes_text hrest, hbehind, hunit,
    Option.bind_eq_bind, Option.bind_some, Option.bind_none]

end Numeral

end TextMode
