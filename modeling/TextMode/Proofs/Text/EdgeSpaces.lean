import Mathlib
import TextMode.Proofs.Text.Edges

/-!
# Single spaces at the edges

The blanks at an edge become one no-break space, and the core stays as it is.  That space is a
blank itself: in a text of blanks the trailing edge is the space that the leading one has become,
and nowhere does a second time change anything.
-/

namespace TextMode.Text

/-- What the blanks at an edge become. -/
def edgeSpace (blanks : Text) : Text :=
  if blanks = [] then [] else [noBreakSpace]

theorem edgeSpace_of_ne_nil {blanks : Text} (hne : blanks ≠ []) :
    edgeSpace blanks = [noBreakSpace] :=
  if_neg hne

@[simp]
theorem edgeSpace_eq_nil_iff {blanks : Text} : edgeSpace blanks = [] ↔ blanks = [] := by
  rw [edgeSpace]
  split <;> simp_all

theorem edgeSpace_edgeSpace (blanks : Text) : edgeSpace (edgeSpace blanks) = edgeSpace blanks := by
  by_cases hne : blanks = []
  · rw [hne]
    rfl
  · rw [edgeSpace_of_ne_nil hne]
    rfl

theorem isBlank_of_mem_edgeSpace {blanks : Text} : ∀ c ∈ edgeSpace blanks, isBlank c := by
  have hspace : isBlank noBreakSpace := by decide
  rw [edgeSpace]
  split <;> simp [hspace]

/-! ## One edge -/

theorem normaliseLeadingEdge_append {before rest : Text} (hbefore : ∀ c ∈ before, isBlank c)
    (hrest : ∀ c ∈ rest.head?, isBlank c = false) :
    normaliseLeadingEdge (before ++ rest) = edgeSpace before ++ rest := by
  rw [normaliseLeadingEdge, (dropLeadingBlanks_append hbefore hrest).2]
  cases before with
  | nil =>
      rw [List.nil_append, (Option.any_eq_false ..).mpr hrest]
      rfl
  | cons c before =>
      have hc : isBlank c := hbefore c (List.mem_cons_self ..)
      rw [List.cons_append, List.head?_cons, Option.any_some, if_pos hc]
      rfl

theorem normaliseTrailingEdge_append {rest after : Text} (hafter : ∀ c ∈ after, isBlank c)
    (hrest : ∀ c ∈ rest.getLast?, isBlank c = false) :
    normaliseTrailingEdge (rest ++ after) = rest ++ edgeSpace after := by
  rw [normaliseTrailingEdge, dropTrailingBlanks_append hafter hrest]
  cases after using List.reverseRecOn with
  | nil =>
      rw [List.append_nil, (Option.any_eq_false ..).mpr hrest]
      exact (List.append_nil rest).symm
  | append_singleton after c =>
      have hc : isBlank c := hafter c (by simp)
      rw [← List.append_assoc, List.getLast?_concat, Option.any_some, if_pos hc,
        edgeSpace_of_ne_nil (by simp)]

/-! ## Both edges -/

/-- The trailing edge of a text of blanks is what its leading edge has become.  It is one
space already, so normalising it changes nothing. -/
theorem normaliseEdges_of_blank {text : Text} (htext : ∀ c ∈ text, isBlank c) :
    normaliseEdges text = edgeSpace text := by
  have hleading : normaliseLeadingEdge text = edgeSpace text := by
    simpa using @normaliseLeadingEdge_append text [] htext (by simp)
  have htrailing : normaliseTrailingEdge (edgeSpace text) = edgeSpace (edgeSpace text) :=
    @normaliseTrailingEdge_append [] _ isBlank_of_mem_edgeSpace (by simp)
  rw [normaliseEdges, hleading, htrailing, edgeSpace_edgeSpace]

namespace HasCore

variable {text before middle after : Text}

theorem normaliseEdges_eq (hcore : HasCore text before middle after) (hne : middle ≠ []) :
    normaliseEdges text = edgeSpace before ++ middle ++ edgeSpace after := by
  have hleading : normaliseLeadingEdge text = edgeSpace before ++ middle ++ after := by
    rw [hcore.eq, List.append_assoc, List.append_assoc]
    apply normaliseLeadingEdge_append hcore.before
    rw [List.head?_append_of_ne_nil _ hne]
    exact hcore.head?
  rw [normaliseEdges, hleading]
  apply normaliseTrailingEdge_append hcore.after
  rw [List.getLast?_append_of_ne_nil _ hne]
  exact hcore.getLast?

/-- The core of the result is the same one, and its edges are single spaces or nothing, as
the edges were before. -/
theorem normaliseEdges (hcore : HasCore text before middle after) (hne : middle ≠ []) :
    HasCore (normaliseEdges text) (edgeSpace before) middle (edgeSpace after) where
  eq := hcore.normaliseEdges_eq hne
  before := isBlank_of_mem_edgeSpace
  after := isBlank_of_mem_edgeSpace
  head? := hcore.head?
  getLast? := hcore.getLast?

end HasCore

theorem normaliseEdges_normaliseEdges (text : Text) :
    normaliseEdges (normaliseEdges text) = normaliseEdges text := by
  obtain ⟨before, after, hcore⟩ := exists_hasCore text
  by_cases hne : core text = []
  · rw [normaliseEdges_of_blank (hcore.middle_eq_nil_iff.mp hne),
      normaliseEdges_of_blank isBlank_of_mem_edgeSpace, edgeSpace_edgeSpace]
  · rw [(hcore.normaliseEdges hne).normaliseEdges_eq hne, edgeSpace_edgeSpace,
      edgeSpace_edgeSpace, hcore.normaliseEdges_eq hne]

theorem normaliseEdges_eq_nil_iff {text : Text} : normaliseEdges text = [] ↔ text = [] := by
  obtain ⟨before, after, hcore⟩ := exists_hasCore text
  by_cases hne : core text = []
  · rw [normaliseEdges_of_blank (hcore.middle_eq_nil_iff.mp hne), edgeSpace_eq_nil_iff]
  · have htext : text ≠ [] := by
      rintro rfl
      exact hne rfl
    simp [hcore.normaliseEdges_eq hne, hne, htext]

/-- Each edge that has blanks becomes one space, and nothing else changes.

A text of blanks is one edge.  So a second time changes nothing, and only the empty text becomes
empty. -/
theorem edges_become_single_spaces (text : Text) :
    (∃ before middle after, HasCore text before middle after) ∧
    (∀ before middle after, HasCore text before middle after →
      (middle = [] ↔ ∀ c ∈ text, isBlank c) ∧
      normaliseEdges text =
        if middle = [] then edgeSpace text
        else edgeSpace before ++ middle ++ edgeSpace after) ∧
    normaliseEdges (normaliseEdges text) = normaliseEdges text ∧
    (normaliseEdges text = [] ↔ text = []) := by
  obtain ⟨before, after, hcore⟩ := exists_hasCore text
  refine ⟨⟨before, core text, after, hcore⟩, ?_, normaliseEdges_normaliseEdges text,
    normaliseEdges_eq_nil_iff⟩
  intro before middle after hcore
  refine ⟨hcore.middle_eq_nil_iff, ?_⟩
  split
  · next hnil => exact normaliseEdges_of_blank (hcore.middle_eq_nil_iff.mp hnil)
  · next hne => exact hcore.normaliseEdges_eq hne

/-- A no-break space among other blanks goes with them, and blanks inside stay. -/
theorem edges_become_single_spaces_mixedBlanks :
    HasCore ['\u2003', '\u00a0', 'a', ' ', '\t', 'b', '\n'] ['\u2003', '\u00a0']
        ['a', ' ', '\t', 'b'] ['\n'] ∧
      normaliseEdges ['\u2003', '\u00a0', 'a', ' ', '\t', 'b', '\n'] =
        ['\u00a0', 'a', ' ', '\t', 'b', '\u00a0'] ∧
      normaliseEdges ['\u00a0', 'a', ' ', '\t', 'b', '\u00a0'] =
        ['\u00a0', 'a', ' ', '\t', 'b', '\u00a0'] := by
  have hblank : isBlank '\u2003' ∧ isBlank '\u00a0' ∧ isBlank '\n' := by decide
  have hletter : isBlank 'a' = false ∧ isBlank 'b' = false := by decide
  have hcore : HasCore ['\u2003', '\u00a0', 'a', ' ', '\t', 'b', '\n'] ['\u2003', '\u00a0']
      ['a', ' ', '\t', 'b'] ['\n'] :=
    ⟨rfl, by simp [hblank], by simp [hblank], by simp [hletter], by simp [hletter]⟩
  obtain ⟨-, hedges, hagain, -⟩ :=
    edges_become_single_spaces ['\u2003', '\u00a0', 'a', ' ', '\t', 'b', '\n']
  have hresult := (hedges _ _ _ hcore).2
  rw [hresult] at hagain
  exact ⟨hcore, hresult, hagain⟩

end TextMode.Text
