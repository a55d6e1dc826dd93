import Mathlib
import TextMode.Dimension.Ems
import TextMode.Proofs.Dimension.Numerals
import TextMode.Proofs.Text.Digits
import TextMode.Proofs.Text.Quoting

/-!
# Lengths as they are shown

A length that is finite is shown as a numeral in front of its unit, which reads as a
dimension literal again.  Infinite lengths and the length that is no number have names.

The numeral is what is left of three decimals when the zeros at the end are stripped, and
with them a point that no other digit follows.
-/

namespace TextMode

/-! ## Digits -/

namespace AreDigits

theorem decimal (n : Nat) : AreDigits (Text.decimal n) :=
  fun _ => Text.isDigit_of_mem_decimal

theorem padZeros (width : Nat) {digits : Text} (hdigits : AreDigits digits) :
    AreDigits (Text.padZeros width digits) := by
  apply append _ hdigits
  intro c hc
  obtain rfl := List.eq_of_mem_replicate hc
  decide

theorem dropTrailingZeros {digits : Text} (hdigits : AreDigits digits) :
    AreDigits (Text.dropTrailingZeros digits) := by
  intro c hc
  have hreverse : c ∈ digits.reverse := (List.dropWhile_sublist _).mem (List.mem_reverse.mp hc)
  exact hdigits c (List.mem_reverse.mp hreverse)

end AreDigits

namespace Binary64

end Binary64

/-! ## Three decimals -/

namespace Text

def isZeros (s : Text) : Bool :=
  s ≠ [] && s.all (· = '0')

/-- Whether a text is stripped as a whole: zeros, one at least, with a point in front or
without. -/
def isZeroTail : Text → Bool
  | '.' :: zeros => isZeros zeros
  | zeros => isZeros zeros

/-- Strips the longest end that can be stripped, which is the first that a search from the
left comes to. -/
def stripZeros : Text → Text
  | [] => []
  | c :: rest => if isZeroTail (c :: rest) then [] else c :: stripZeros rest

theorem isZeros_iff {s : Text} : isZeros s ↔ s ≠ [] ∧ ∀ c ∈ s, c = '0' := by
  simp [isZeros]

theorem isZeroTail_of_ne {c : Char} (hpoint : c ≠ '.') (rest : Text) :
    isZeroTail (c :: rest) = isZeros (c :: rest) := by
  rw [isZeroTail]
  rintro _ ⟨⟩
  exact hpoint rfl

/-- Nothing is stripped in front of a point unless the point is.  An end that reaches
further to the left would hold the point behind its first character. -/
theorem stripZeros_append {left right : Text} (hleft : '.' ∉ left) (hright : '.' ∈ right) :
    stripZeros (left ++ right) = left ++ stripZeros right := by
  induction left with
  | nil => rfl
  | cons c left ih =>
      rw [List.mem_cons, not_or] at hleft
      have hkept : ¬ isZeroTail (c :: (left ++ right)) := by
        rw [isZeroTail_of_ne (Ne.symm hleft.1), isZeros_iff]
        rintro ⟨-, hzeros⟩
        have hmem : '.' ∈ c :: (left ++ right) :=
          List.mem_cons_of_mem c (List.mem_append_right left hright)
        exact absurd (hzeros '.' hmem) (by decide)
      rw [List.cons_append, stripZeros, if_neg hkept, ih hleft.2, List.cons_append]

/-- Without a point the zeros at the end are stripped and nothing else. -/
theorem stripZeros_of_not_mem {digits : Text} (hpoint : '.' ∉ digits) :
    stripZeros digits = dropTrailingZeros digits := by
  induction digits with
  | nil => rfl
  | cons c digits ih =>
      rw [List.mem_cons, not_or] at hpoint
      rw [stripZeros, isZeroTail_of_ne (Ne.symm hpoint.1)]
      split
      next hzeros => exact (dropTrailingZeros_eq_nil_iff.mpr (isZeros_iff.mp hzeros).2).symm
      next hzeros =>
        have hne : ¬ ∀ d ∈ c :: digits, d = '0' :=
          fun hall => hzeros (isZeros_iff.mpr ⟨List.cons_ne_nil c digits, hall⟩)
        rw [ih hpoint.2, dropTrailingZeros_cons hne]

/-- A fraction is stripped of its zeros, and if nothing is left of it the point goes with
them. -/
theorem stripZeros_point {digits : Text} (hne : digits ≠ []) (hpoint : '.' ∉ digits) :
    stripZeros ('.' :: digits) = fractionPart digits := by
  have hzeros : isZeros digits ↔ dropTrailingZeros digits = [] := by
    rw [isZeros_iff, dropTrailingZeros_eq_nil_iff]
    exact and_iff_right hne
  rw [stripZeros, isZeroTail, stripZeros_of_not_mem hpoint, fractionPart]
  split
  next hstripped => rw [hzeros.mp hstripped]
  next hkept =>
    split
    next hnil => exact absurd (hzeros.mpr hnil) hkept
    next => rfl

end Text

namespace AreDigits

theorem point_not_mem {digits : Text} (hdigits : AreDigits digits) : '.' ∉ digits :=
  fun hpoint => absurd (hdigits '.' hpoint) (by decide)

end AreDigits

namespace Binary64

/-- A number with exactly three decimals, rounded as the shorter text is. -/
def threeDecimals : Binary64 → Text
  | finite negative significand exponent _ =>
      let thousandths :=
        roundQuotient (numerator significand exponent * 1000) (denominator exponent)
      signText negative ++ Text.decimal (thousandths / 1000) ++
        '.' :: Text.padZeros 3 (Text.decimal (thousandths % 1000))
  | infinite negative => infiniteText negative
  | nan => "nan".toList

/-- The text of a number with at most three decimals is that with exactly three, stripped of
its zeros. -/
theorem stripZeros_threeDecimals (number : Binary64) :
    Text.stripZeros number.threeDecimals = number.fixedText := by
  cases number with
  | finite negative significand exponent canonical =>
      have hsign : '.' ∉ signText negative := by cases negative <;> decide
      rw [threeDecimals, fixedText, thousandthsText, Text.stripZeros_append,
        Text.stripZeros_point, List.append_assoc]
      · simp [Text.padZeros, Text.decimal]
      · exact (AreDigits.padZeros 3 (.decimal _)).point_not_mem
      · rw [List.mem_append, not_or]
        exact ⟨hsign, (AreDigits.decimal _).point_not_mem⟩
      · exact List.mem_cons_self
  | infinite negative => cases negative <;> decide
  | nan => decide

end Binary64

/-- A length is shown with three decimals which are stripped of zeros, unless it is so near
to zero that it is shown as zero. -/
theorem formatEm_eq_stripZeros (magnitude : Binary64) :
    formatEm magnitude =
      if magnitude.magnitudeLt shownAsZero then "0em".toList
      else Text.stripZeros magnitude.threeDecimals ++ "em".toList := by
  rw [formatEm, Binary64.stripZeros_threeDecimals]

/-! ## Lengths -/

end TextMode
