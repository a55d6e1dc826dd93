import Mathlib
import TextMode.Proofs.Text.Runs

/-!
# Edges of a text

A text is cut into leading blanks, a core that has no blank at either edge, and trailing
blanks.  The core is always the same one, and a text that is not blank is cut in one way.
-/

namespace TextMode.Text

/-- The text is blanks, a core and blanks. -/
structure HasCore (text before middle after : Text) : Prop where
  eq : text = before ++ middle ++ after
  before : ∀ c ∈ before, isBlank c
  after : ∀ c ∈ after, isBlank c
  head? : ∀ c ∈ middle.head?, isBlank c = false
  getLast? : ∀ c ∈ middle.getLast?, isBlank c = false

theorem dropLeadingBlanks_append {before rest : Text} (hbefore : ∀ c ∈ before, isBlank c)
    (hrest : ∀ c ∈ rest.head?, isBlank c = false) :
    leadingBlanks (before ++ rest) = before ∧ dropLeadingBlanks (before ++ rest) = rest := by
  apply span_run hbefore
  cases rest with
  | nil => rfl
  | cons c rest => simp [hrest c rfl]

theorem dropTrailingBlanks_append {rest after : Text} (hafter : ∀ c ∈ after, isBlank c)
    (hrest : ∀ c ∈ rest.getLast?, isBlank c = false) :
    dropTrailingBlanks (rest ++ after) = rest := by
  have hblanks : ∀ c ∈ after.reverse, isBlank c := by simpa using hafter
  have hhead : ∀ c ∈ rest.reverse.head?, isBlank c = false := by simpa using hrest
  have hdrop := (dropLeadingBlanks_append hblanks hhead).2
  rw [dropTrailingBlanks, List.reverse_append]
  exact (congrArg List.reverse hdrop).trans (List.reverse_reverse rest)

theorem isBlank_head?_dropLeadingBlanks (text : Text) :
    ∀ c ∈ (dropLeadingBlanks text).head?, isBlank c = false := by
  intro c hc
  have hhead := head?_dropWhile isBlank text
  rw [← dropLeadingBlanks, Option.mem_def.mp hc] at hhead
  simpa using hhead

/-- Trailing blanks are taken off behind a first character that is not blank, so this
character stays. -/
theorem head?_dropTrailingBlanks {text : Text} (htext : ∀ c ∈ text.head?, isBlank c = false) :
    (dropTrailingBlanks text).head? = text.head? := by
  have hprefix : dropTrailingBlanks text <+: text := List.rdropWhile_prefix isBlank text
  cases text with
  | nil => rfl
  | cons c rest =>
      have hne : dropTrailingBlanks (c :: rest) ≠ [] := by
        intro hnil
        have hblank := List.rdropWhile_eq_nil_iff.mp hnil c (List.mem_cons_self ..)
        rw [htext c rfl] at hblank
        exact Bool.false_ne_true hblank
      obtain ⟨first, tail, hcons⟩ := List.exists_cons_of_ne_nil hne
      rw [hcons] at hprefix ⊢
      rw [(List.cons_prefix_cons.mp hprefix).1]
      rfl

theorem exists_hasCore (text : Text) : ∃ before after, HasCore text before (core text) after := by
  have hhead := isBlank_head?_dropLeadingBlanks text
  refine ⟨leadingBlanks text, (dropLeadingBlanks text).rtakeWhile isBlank, ?_, ?_, ?_, ?_, ?_⟩
  · calc
      text = leadingBlanks text ++ dropLeadingBlanks text :=
          (List.takeWhile_append_dropWhile ..).symm
      _ = leadingBlanks text ++ ((dropLeadingBlanks text).rdropWhile isBlank ++
            (dropLeadingBlanks text).rtakeWhile isBlank) := by
          rw [List.rdropWhile_append_rtakeWhile]
      _ = _ := (List.append_assoc ..).symm
  · exact fun _ => List.mem_takeWhile_imp
  · exact fun _ => List.mem_rtakeWhile_imp
  · rwa [core, head?_dropTrailingBlanks hhead]
  · rw [core, dropTrailingBlanks, List.getLast?_reverse]
    exact isBlank_head?_dropLeadingBlanks _

namespace HasCore

variable {text before middle after before' middle' after' : Text}

theorem dropLeadingBlanks (hcore : HasCore text before middle after) (hne : middle ≠ []) :
    leadingBlanks text = before ∧ dropLeadingBlanks text = middle ++ after := by
  rw [hcore.eq, List.append_assoc]
  apply dropLeadingBlanks_append hcore.before
  rw [List.head?_append_of_ne_nil _ hne]
  exact hcore.head?

theorem middle_eq_nil_iff (hcore : HasCore text before middle after) :
    middle = [] ↔ ∀ c ∈ text, isBlank c := by
  constructor
  · rintro rfl
    rw [hcore.eq, List.append_nil]
    exact List.forall_mem_append.mpr ⟨hcore.before, hcore.after⟩
  · intro htext
    cases middle with
    | nil => rfl
    | cons c middle =>
        have hc : isBlank c := htext c (by simp [hcore.eq])
        rw [hcore.head? c rfl] at hc
        exact absurd hc Bool.false_ne_true

/-- More blanks around a text leave its core.  They join the blanks that stand at its
edges. -/
theorem surround {blanks blanks' : Text} (hcore : HasCore text before middle after)
    (hblanks : ∀ c ∈ blanks, isBlank c) (hblanks' : ∀ c ∈ blanks', isBlank c) :
    HasCore (blanks ++ text ++ blanks') (blanks ++ before) middle (after ++ blanks') where
  eq := by simp only [hcore.eq, List.append_assoc]
  before := List.forall_mem_append.mpr ⟨hblanks, hcore.before⟩
  after := List.forall_mem_append.mpr ⟨hcore.after, hblanks'⟩
  head? := hcore.head?
  getLast? := hcore.getLast?

theorem core_eq (hcore : HasCore text before middle after) : core text = middle := by
  by_cases hne : middle = []
  · have hdrop : text.dropWhile isBlank = [] :=
      List.dropWhile_eq_nil_iff.mpr (hcore.middle_eq_nil_iff.mp hne)
    rw [core, Text.dropLeadingBlanks, hdrop, hne]
    rfl
  · rw [core, (hcore.dropLeadingBlanks hne).2, dropTrailingBlanks_append hcore.after hcore.getLast?]

/-- A text is cut in one way, unless it is blank: then its core is empty, and its blanks may
be divided between the two edges. -/
theorem unique (hcore : HasCore text before middle after)
    (hcore' : HasCore text before' middle' after') :
    middle' = middle ∧ (middle ≠ [] → before' = before ∧ after' = after) := by
  have hmiddle : middle' = middle := hcore'.core_eq.symm.trans hcore.core_eq
  subst hmiddle
  refine ⟨rfl, fun hne => ?_⟩
  obtain ⟨hbefore, hbehind⟩ := hcore.dropLeadingBlanks hne
  obtain ⟨hbefore', hbehind'⟩ := hcore'.dropLeadingBlanks hne
  exact ⟨hbefore'.symm.trans hbefore, List.append_cancel_left (hbehind'.symm.trans hbehind)⟩

end HasCore

end TextMode.Text
