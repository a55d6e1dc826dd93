import Mathlib
import TextMode.Proofs.Text.Quoting

/-!
# Texts that fit on a line

A line holds no line feed.  Quoted texts and numbers are lines whatever they stand for.
-/

namespace TextMode

def IsLine (text : Text) : Prop :=
  '\n' ∉ text

instance (text : Text) : Decidable (IsLine text) :=
  inferInstanceAs (Decidable ('\n' ∉ text))

@[simp]
theorem isLine_nil : IsLine [] :=
  List.not_mem_nil

@[simp]
theorem isLine_cons {c : Char} {text : Text} : IsLine (c :: text) ↔ '\n' ≠ c ∧ IsLine text := by
  simp [IsLine]

@[simp]
theorem isLine_append {left right : Text} :
    IsLine (left ++ right) ↔ IsLine left ∧ IsLine right := by
  simp [IsLine]

theorem isLine_flatMap {α : Type} {values : List α} {written : α → Text} :
    IsLine (values.flatMap written) ↔ ∀ value ∈ values, IsLine (written value) := by
  simp [IsLine]

/-- A class without the line feed makes up lines only.  So digits, letters and the
characters of units fit on a line. -/
theorem isLine_of_class {accepts : Char → Bool} {text : Text} (hfeed : accepts '\n' = false)
    (htext : ∀ c ∈ text, accepts c) : IsLine text := by
  intro hmem
  rw [htext _ hmem] at hfeed
  cases hfeed

namespace Text

theorem isLine_decimal (n : Nat) : IsLine (decimal n) :=
  isLine_of_class rfl fun _ => isDigit_of_mem_decimal

theorem isLine_signedDecimal (n : Int) : IsLine (signedDecimal n) := by
  cases n with
  | ofNat n => exact isLine_decimal n
  | negSucc n => exact isLine_cons.mpr ⟨by decide, isLine_decimal (n + 1)⟩

theorem hexDigit_ne_feed : ∀ n < 16, '\n' ≠ hexDigit n := by
  decide

theorem isLine_hexDigits (width n : Nat) : IsLine (hexDigits width n) := by
  induction width generalizing n with
  | zero => exact isLine_nil
  | succ width ih =>
      have hlast : n % 16 < 16 := Nat.mod_lt n (by decide)
      rw [hexDigits, isLine_append, isLine_cons]
      exact ⟨ih (n / 16), hexDigit_ne_feed _ hlast, isLine_nil⟩

theorem isLine_escapeChar {delimiter : Char} (hdelimiter : IsDelimiter delimiter) (c : Char) :
    IsLine (escapeChar delimiter c) := by
  unfold escapeChar
  split_ifs with hself hfeed hreturn htab hprintable hshort hmiddle
  · have hc : '\n' ≠ c := by
      rintro rfl
      rcases hdelimiter with rfl | rfl
      · exact absurd hself (by decide)
      · exact absurd hself (by decide)
    simp [hc]
  · decide
  · decide
  · decide
  · simp [Ne.symm hfeed]
  · simp [isLine_hexDigits]
  · simp [isLine_hexDigits]
  · simp [isLine_hexDigits]

/-- A quoted text is a line, even if the text is none, because a line feed in it is
escaped. -/
theorem isLine_quote (s : Text) : IsLine (quote s) := by
  have hdelimiter := isDelimiter_quoteDelimiter s
  have hfeed : '\n' ≠ quoteDelimiter s := by
    rcases hdelimiter with hquote | hquote <;> rw [hquote] <;> decide
  have hescaped : IsLine (s.flatMap (escapeChar (quoteDelimiter s))) :=
    isLine_flatMap.mpr fun c _ => isLine_escapeChar hdelimiter c
  simp [quote, hfeed, hescaped]

end Text

end TextMode
