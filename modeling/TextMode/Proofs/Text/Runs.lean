import Mathlib
import TextMode.Text.Blank

/-!
# Runs of characters

A run of characters of one class ends where the class ends.  Digits are not blank.
-/

namespace TextMode

theorem span_run {α : Type} {accepts : α → Bool} {run rest : List α}
    (hrun : ∀ c ∈ run, accepts c)
    (hrest : rest.head?.all fun c => !accepts c) :
    (run ++ rest).takeWhile accepts = run ∧ (run ++ rest).dropWhile accepts = rest := by
  rw [List.takeWhile_append_of_pos hrun, List.dropWhile_append_of_pos hrun]
  cases rest with
  | nil => simp
  | cons c rest =>
      have hc : accepts c = false := by simpa using hrest
      simp [hc]

theorem head?_dropWhile (accepts : Char → Bool) (text : Text) :
    (text.dropWhile accepts).head?.all fun c => !accepts c := by
  cases htail : text.dropWhile accepts with
  | nil => rfl
  | cons c tail =>
      have hne : text.dropWhile accepts ≠ [] := by simp [htail]
      have hhead := List.head_dropWhile_not accepts hne
      simpa [htail] using hhead

/-- A run at the end is taken off a list by taking it off the rest, unless nothing is left of
the rest. -/
theorem rdropWhile_cons {α : Type} (accepts : α → Bool) (first : α) (rest : List α) :
    (first :: rest).rdropWhile accepts =
      if rest.rdropWhile accepts = [] then [first].rdropWhile accepts
      else first :: rest.rdropWhile accepts := by
  simp only [List.rdropWhile, List.reverse_cons, List.dropWhile_append]
  by_cases hrest : rest.reverse.dropWhile accepts = []
  · simp [hrest]
  · simp [hrest, List.isEmpty_iff]

/-- A member of a class differs from every character outside it.  This tells the first
character of a run from those that structure a text. -/
theorem ne_of_accepts {accepts : Char → Bool} {c d : Char} (hc : accepts c)
    (hd : accepts d = false) : c ≠ d := by
  intro heq
  rw [heq, hd] at hc
  exact Bool.false_ne_true hc

/-- A character that may neither end a text nor stand before another one does not start
it. -/
theorem ne_of_neither_last_nor_followed {c d : Char} {rest : Text}
    (hlast : c = d → rest = [] → False)
    (hfollowed : ∀ e tail, c = d → rest = e :: tail → False) : c ≠ d := by
  intro heq
  cases rest with
  | nil => exact hlast heq rfl
  | cons e tail => exact hfollowed e tail heq rfl

theorem Text.isBlank_eq_false_of_isDigit {c : Char} (hc : c.isDigit) :
    Text.isBlank c = false := by
  have hrange : 48 ≤ c.toNat ∧ c.toNat ≤ 57 := by
    simp only [Char.isDigit, Bool.and_eq_true, decide_eq_true_eq, ge_iff_le,
      UInt32.le_iff_toNat_le] at hc
    exact hc
  simp only [Text.isBlank, Bool.or_eq_false_iff, Bool.and_eq_false_imp, decide_eq_true_eq,
    decide_eq_false_iff_not, beq_eq_false_iff_ne]
  omega

end TextMode
