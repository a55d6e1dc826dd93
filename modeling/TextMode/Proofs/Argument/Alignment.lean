import Mathlib
import TextMode.Proofs.Argument.Trimming

/-!
# Alignment by trimmed options

A trimmed text has no blank at an edge but the space of a control space, so trimming it again
changes nothing.  The alignment of an array is found by the trimmed option.  Blanks around the
option do not matter unless its core ends in a backslash, where a space at the end is put back.
-/

namespace TextMode.Argument

open TextMode.Text

/-! ## Trimming again -/

/-- Trimming returns the core, or the core and one space.  The space is put back only behind
a backslash, so what is returned never ends in two blanks. -/
theorem trim_eq_or (text : Text) :
    trim text = core text ∨
      (core text).getLast? = some '\\' ∧ trim text = core text ++ [' '] := by
  obtain ⟨before, after, hcore⟩ := exists_hasCore text
  rw [trim_eq hcore]
  split
  · next hspace => exact .inr ⟨hspace.1, rfl⟩
  · exact .inl rfl

/-- No blank stands before the core of a trimmed text, and behind it only the space of a control
space. -/
theorem exists_hasCore_trim (text : Text) :
    ∃ after, HasCore (trim text) [] (core text) after ∧
      (after = [] ∨ after = [' '] ∧ (core text).getLast? = some '\\') := by
  obtain ⟨before, after, hcore⟩ := exists_hasCore text
  obtain htrim | ⟨hlast, htrim⟩ := trim_eq_or text
  · refine ⟨[], ⟨?_, by simp, by simp, hcore.head?, hcore.getLast?⟩, .inl rfl⟩
    rw [htrim, List.nil_append, List.append_nil]
  · have hspace : isBlank ' ' := by decide
    refine ⟨[' '], ⟨?_, by simp, by simp [hspace], hcore.head?, hcore.getLast?⟩, .inr ⟨rfl, hlast⟩⟩
    rw [htrim, List.nil_append]

/-- Trimming keeps the core.  A space that was put back is a blank behind it and does not
belong to the core of the result. -/
theorem core_trim (text : Text) : core (trim text) = core text := by
  obtain ⟨after, hcore, -⟩ := exists_hasCore_trim text
  exact hcore.core_eq

/-- Trimming is idempotent.  A text with a control space at its end keeps it, since its last
blank is a space. -/
theorem trim_trim (text : Text) : trim (trim text) = trim text := by
  obtain ⟨after, hcore, rfl | ⟨rfl, hlast⟩⟩ := exists_hasCore_trim text
  · rw [trim_eq hcore, if_neg (by simp), hcore.eq, List.nil_append, List.append_nil]
  · rw [trim_eq hcore, if_pos ⟨hlast, rfl⟩, hcore.eq, List.nil_append]

theorem trim_eq_core_of_ne {text : Text} (hlast : (core text).getLast? ≠ some '\\') :
    trim text = core text :=
  (trim_eq_or text).resolve_right fun hspace => hlast hspace.1

theorem core_ne_nil_of_getLast? {text : Text} {c : Char} (hlast : (core text).getLast? = some c) :
    core text ≠ [] :=
  List.ne_nil_of_mem (List.mem_of_getLast? hlast)

theorem isBlank_head?_trim (text : Text) : ∀ c ∈ (trim text).head?, isBlank c = false := by
  obtain ⟨before, after, hcore⟩ := exists_hasCore text
  obtain htrim | ⟨hlast, htrim⟩ := trim_eq_or text
  · rw [htrim]
    exact hcore.head?
  · rw [htrim, List.head?_append_of_ne_nil _ (core_ne_nil_of_getLast? hlast)]
    exact hcore.head?

/-- Nothing is left of a text exactly if all of it is blank.  A space that is put back needs
a backslash in front, which is left as well. -/
theorem trim_eq_nil_iff {text : Text} : trim text = [] ↔ ∀ c ∈ text, isBlank c := by
  obtain ⟨before, after, hcore⟩ := exists_hasCore text
  rw [← hcore.middle_eq_nil_iff]
  obtain htrim | ⟨hlast, htrim⟩ := trim_eq_or text
  · rw [htrim]
  · simp [htrim, core_ne_nil_of_getLast? hlast]

/-! ## Options -/

variable {option : Text}

/-- A short option is one letter.  An option that does not end in a letter is therefore
none, and it is taken as a whole. -/
theorem alignmentOfOption_eq_self (hlast : ∀ c ∈ option.getLast?, c.isAlpha = false) :
    alignmentOfOption option = option := by
  fun_cases alignmentOfOption option with
  | case1 => exact absurd (hlast 't' rfl) (by decide)
  | case2 => exact absurd (hlast 'b' rfl) (by decide)
  | case3 => exact absurd (hlast 'c' rfl) (by decide)
  | case4 => rfl

theorem arrayAlignment?_of_trim_ne_nil (hne : trim option ≠ []) :
    arrayAlignment? option = some (alignmentOfOption (trim option)) := by
  rw [arrayAlignment?]
  split
  · contradiction
  · rfl

/-- An option is missing exactly if it is blank.  So an absent option and a blank one are
told apart by nothing. -/
theorem arrayAlignment?_eq_none_iff :
    arrayAlignment? option = none ↔ ∀ c ∈ option, isBlank c := by
  rw [← trim_eq_nil_iff]
  by_cases hne : trim option = []
  · simp [arrayAlignment?, hne]
  · simp [arrayAlignment?_of_trim_ne_nil hne, hne]

theorem arrayAlignment?_trim (option : Text) :
    arrayAlignment? (trim option) = arrayAlignment? option := by
  rw [arrayAlignment?, arrayAlignment?, trim_trim]

/-- Blanks around an option are trimmed away with its own.  The core must not end in a
backslash, for then the last blank decides whether a space is put back. -/
theorem arrayAlignment?_surround (hlast : (core option).getLast? ≠ some '\\')
    {before after : Text} (hbefore : ∀ c ∈ before, isBlank c) (hafter : ∀ c ∈ after, isBlank c) :
    arrayAlignment? (before ++ option ++ after) = arrayAlignment? option := by
  obtain ⟨_, _, hcore⟩ := exists_hasCore option
  have hsame : core (before ++ option ++ after) = core option :=
    (hcore.surround hbefore hafter).core_eq
  have htrim : trim (before ++ option ++ after) = core (before ++ option ++ after) :=
    trim_eq_core_of_ne (by rwa [hsame])
  rw [arrayAlignment?, arrayAlignment?, htrim, hsame, trim_eq_core_of_ne hlast]

/-- Behind a backslash a space is put back and a tab is not, and neither text is a short
option.  So blanks behind such an option cannot all leave its alignment as it is. -/
theorem arrayAlignment?_space_ne_tab (hlast : (core option).getLast? = some '\\') :
    arrayAlignment? (option ++ [' ']) ≠ arrayAlignment? (option ++ ['\t']) := by
  obtain ⟨before, after, hcore⟩ := exists_hasCore option
  have hne : core option ≠ [] := core_ne_nil_of_getLast? hlast
  have hspaced : HasCore (option ++ [' ']) before (core option) (after ++ [' ']) :=
    hcore.surround (List.forall_mem_nil _) (List.forall_mem_singleton.mpr (by decide))
  have htabbed : HasCore (option ++ ['\t']) before (core option) (after ++ ['\t']) :=
    hcore.surround (List.forall_mem_nil _) (List.forall_mem_singleton.mpr (by decide))
  have hspace : trim (option ++ [' ']) = core option ++ [' '] := by
    rw [trim_eq hspaced, if_pos ⟨hlast, List.getLast?_concat ..⟩]
  have htab : trim (option ++ ['\t']) = core option := by
    rw [trim_eq htabbed, if_neg (by simp)]
  rw [arrayAlignment?_of_trim_ne_nil (by simp [hspace]),
    arrayAlignment?_of_trim_ne_nil (by rwa [htab]), hspace, htab,
    alignmentOfOption_eq_self (by simp), alignmentOfOption_eq_self (by simp [hlast])]
  simp

/-- Trimming is settled after once, and the alignment is that of the trimmed option.

A trimmed text starts with no blank and ends in none but the space of a control space, and
keeps its core.  There is an alignment unless the option is blank.  Blanks may stand around
the option without a change if and only if its core does not end in a backslash; if it does,
a space and a tab behind it would both have to change nothing. -/
theorem alignment_by_trimmed_option (text : Text) :
    (∀ c ∈ (trim text).head?, isBlank c = false) ∧
    (∃ after, HasCore (trim text) [] (core text) after ∧
      (after = [] ∨ after = [' '] ∧ (core text).getLast? = some '\\')) ∧
    core (trim text) = core text ∧
    trim (trim text) = trim text ∧
    arrayAlignment? (trim text) = arrayAlignment? text ∧
    (arrayAlignment? text = none ↔ ∀ c ∈ text, isBlank c) ∧
    ((core text).getLast? ≠ some '\\' ↔
      ∀ before after : Text, (∀ c ∈ before, isBlank c) → (∀ c ∈ after, isBlank c) →
        arrayAlignment? (before ++ text ++ after) = arrayAlignment? text) := by
  refine ⟨isBlank_head?_trim text, exists_hasCore_trim text, core_trim text, trim_trim text,
    arrayAlignment?_trim text, arrayAlignment?_eq_none_iff, ?_⟩
  constructor
  · intro hlast before after
    exact arrayAlignment?_surround hlast
  · intro hsurround hlast
    have hspace : arrayAlignment? (text ++ [' ']) = arrayAlignment? text :=
      hsurround [] [' '] (List.forall_mem_nil _) (List.forall_mem_singleton.mpr (by decide))
    have htab : arrayAlignment? (text ++ ['\t']) = arrayAlignment? text :=
      hsurround [] ['\t'] (List.forall_mem_nil _) (List.forall_mem_singleton.mpr (by decide))
    exact arrayAlignment?_space_ne_tab hlast (hspace.trans htab.symm)

/-- Blanks around an option that has a control space inside.  Only the edges of the option
are trimmed, so the inner backslash keeps its space. -/
theorem alignment_by_trimmed_option_innerControlSpace :
    (core ['\\', ' ', 'b']).getLast? ≠ some '\\' ∧ (∀ c ∈ ['\u00a0'], isBlank c) ∧
      (∀ c ∈ ['\t', ' '], isBlank c) ∧
      arrayAlignment? (['\u00a0'] ++ ['\\', ' ', 'b'] ++ ['\t', ' ']) =
        some ['\\', ' ', 'b'] := by
  have hlast : (core ['\\', ' ', 'b']).getLast? ≠ some '\\' := by decide
  have hblank : isBlank '\u00a0' ∧ isBlank '\t' ∧ isBlank ' ' := by decide
  have hbefore : ∀ c ∈ ['\u00a0'], isBlank c := by simp [hblank]
  have hafter : ∀ c ∈ ['\t', ' '], isBlank c := by simp [hblank]
  obtain ⟨-, -, -, -, -, -, hsurround⟩ := alignment_by_trimmed_option ['\\', ' ', 'b']
  refine ⟨hlast, hbefore, hafter, (hsurround.mp hlast _ _ hbefore hafter).trans ?_⟩
  decide

end TextMode.Argument
