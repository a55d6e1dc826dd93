import Mathlib
import TextMode.Dimension.Ems

/-!
# Lengths in ems

Only a length in pixels can fail to be converted, and only if there are no pixels to an
inch.
-/

namespace TextMode

/-- Only a length in pixels can fail to be converted, and only if there are no pixels to an
inch. -/
theorem Dimension.toEm_eq_error_iff {ratios : UnitRatios} {dimension : Dimension}
    {fault : ConversionFault} :
    dimension.toEm ratios = .error fault ↔
      ratios.pxPerInch.isZero = true ∧ dimension.unit = .px := by
  obtain ⟨magnitude, unit⟩ := dimension
  cases unit with
  | px => by_cases hzero : ratios.pxPerInch.isZero <;> simp [toEm, hzero]
  | em | ex | pt | pc | inch | cm | mm | mu => simp [toEm]

/-- A text fails to be converted if it denotes a length in pixels.  A text that is no
dimension is zero and never fails. -/
theorem emsOfText_eq_error_iff {ratios : UnitRatios} {text : Text} {fault : ConversionFault} :
    emsOfText ratios text = .error fault ↔
      ratios.pxPerInch.isZero = true ∧
        ∃ dimension, Dimension.read? text = some dimension ∧ dimension.unit = .px := by
  cases hread : Dimension.read? text with
  | none => simp [emsOfText, hread]
  | some dimension => simp [emsOfText, hread, Dimension.toEm_eq_error_iff]

/-- With pixels to an inch every text has a length, a dimension or not. -/
theorem exists_emsOfText {ratios : UnitRatios} (hratios : ratios.pxPerInch.isZero = false)
    (text : Text) : ∃ em, emsOfText ratios text = .ok em := by
  cases hems : emsOfText ratios text with
  | ok em => exact ⟨em, rfl⟩
  | error fault =>
      have hzero := (emsOfText_eq_error_iff.mp hems).1
      rw [hratios] at hzero
      exact absurd hzero Bool.false_ne_true

theorem emsOfText_eq_ok_iff {ratios : UnitRatios} {text : Text} {em : Binary64} :
    emsOfText ratios text = .ok em ↔
      (Dimension.read? text = none ∧ em = .zero false) ∨
        ∃ dimension, Dimension.read? text = some dimension ∧ dimension.toEm ratios = .ok em := by
  cases hread : Dimension.read? text with
  | none => simp [emsOfText, hread, eq_comm]
  | some dimension => simp [emsOfText, hread]

end TextMode
