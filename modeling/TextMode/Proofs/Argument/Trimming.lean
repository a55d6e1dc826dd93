import Mathlib
import TextMode.Argument
import TextMode.Proofs.Text.Edges

/-!
# Trimmed arguments

A backslash and the space behind it are a control space, which trimming should leave whole.
The space that is looked at is the last character of the text and not the one behind the
backslash.  The two differ when blanks of several kinds follow the core.
-/

namespace TextMode.Argument

open TextMode.Text

/-- The core of a text, with the space behind it if the two end in a control space. -/
def withControlSpace (middle after : Text) : Text :=
  if middle.getLast? = some '\\' ∧ after.head? = some ' ' then middle ++ [' '] else middle

variable {text before middle after : Text}

/-- The core of a text with its control space stands in the text as it is.  What trimming
returns does not always do so. -/
theorem withControlSpace_isInfix (hcore : HasCore text before middle after) :
    withControlSpace middle after <:+: text := by
  rw [withControlSpace, hcore.eq]
  split
  · next hspace =>
      obtain ⟨tail, rfl⟩ := List.head?_eq_some_iff.mp hspace.2
      exact ⟨before, tail, by simp⟩
  · exact ⟨before, after, rfl⟩

/-- A space at the end of a text whose core ends in a backslash is a trailing blank.  The
core itself cannot end in both. -/
theorem getLast?_eq_space_iff (hcore : HasCore text before middle after)
    (hbackslash : middle.getLast? = some '\\') :
    text.getLast? = some ' ' ↔ after.getLast? = some ' ' := by
  rw [hcore.eq, List.getLast?_append, List.getLast?_append, hbackslash]
  cases after.getLast? with
  | none => simp
  | some c => rfl

/-- Trimming looks at the last character of the text, which is the last of the trailing
blanks if there are any. -/
theorem trim_eq (hcore : HasCore text before middle after) :
    trim text =
      if middle.getLast? = some '\\' ∧ after.getLast? = some ' ' then middle ++ [' ']
      else middle := by
  rw [trim, hcore.core_eq]
  by_cases hbackslash : middle.getLast? = some '\\'
  · simp [hbackslash, getLast?_eq_space_iff hcore hbackslash]
  · simp [hbackslash]

/-- Trimming agrees with the control spaces of a text unless its core ends in a backslash and
just one of the character behind it and the last character is a space. -/
theorem trim_eq_withControlSpace_iff (hcore : HasCore text before middle after) :
    trim text = withControlSpace middle after ↔
      (middle.getLast? = some '\\' → (after.head? = some ' ' ↔ after.getLast? = some ' ')) := by
  rw [trim_eq hcore, withControlSpace]
  by_cases hhead : after.head? = some ' ' <;> by_cases hlast : after.getLast? = some ' ' <;>
    simp [hhead, hlast]

/-- When trimming keeps a control space and nothing else.

A text has one core, and one cut around it unless it is blank.  Trimming puts a space back
behind a core that ends in a backslash if the last blank is a space.  So it returns a slice of the
text with its control space, and with no other one, if and only if the first and the last blank
behind the backslash are both spaces or both not. -/
theorem control_space_kept_iff (text : Text) :
    ∃ before after, HasCore text before (core text) after ∧
      (∀ before' middle' after', HasCore text before' middle' after' →
        middle' = core text ∧ (core text ≠ [] → before' = before ∧ after' = after)) ∧
      trim text =
        (if (core text).getLast? = some '\\' ∧ after.getLast? = some ' ' then core text ++ [' ']
          else core text) ∧
      (trim text <:+: text ∧ trim text = withControlSpace (core text) after ↔
        ((core text).getLast? = some '\\' →
          (after.head? = some ' ' ↔ after.getLast? = some ' '))) := by
  obtain ⟨before, after, hcore⟩ := exists_hasCore text
  refine ⟨before, after, hcore, fun _ _ _ => hcore.unique, trim_eq hcore, ?_⟩
  rw [← trim_eq_withControlSpace_iff hcore]
  constructor
  · exact And.right
  · intro htrim
    refine ⟨?_, htrim⟩
    rw [htrim]
    exact withControlSpace_isInfix hcore

/-- A tab behind a control space makes it lose its space, and a space behind a tab is put
back in the wrong place.  The second result is not even a slice of the text. -/
theorem control_space_lost_before_tab :
    HasCore "\\ \t".toList [] ['\\'] [' ', '\t'] ∧
      withControlSpace ['\\'] [' ', '\t'] = ['\\', ' '] ∧ trim "\\ \t".toList = ['\\'] ∧
    HasCore "\\\t ".toList [] ['\\'] ['\t', ' '] ∧
      withControlSpace ['\\'] ['\t', ' '] = ['\\'] ∧ trim "\\\t ".toList = ['\\', ' '] ∧
      ¬ trim "\\\t ".toList <:+: "\\\t ".toList := by
  have hspace : isBlank ' ' = true := by decide
  have htab : isBlank '\t' = true := by decide
  have hbackslash : isBlank '\\' = false := by decide
  have hfirst : HasCore "\\ \t".toList [] ['\\'] [' ', '\t'] :=
    ⟨rfl, by simp, by simp [hspace, htab], by simp [hbackslash], by simp [hbackslash]⟩
  have hsecond : HasCore "\\\t ".toList [] ['\\'] ['\t', ' '] :=
    ⟨rfl, by simp, by simp [hspace, htab], by simp [hbackslash], by simp [hbackslash]⟩
  exact ⟨hfirst, by decide, by decide, hsecond, by decide, by decide, by decide⟩

end TextMode.Argument
