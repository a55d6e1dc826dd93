import Mathlib
import TextMode.Proofs.Content.Grammar
import TextMode.Proofs.Text.Runs

/-!
# Balanced texts

A text is balanced if its braces are nested and it holds no comment.  Backslashes
take the next character with them.  A balanced text between braces stays inside any
island, whatever delimiters occur in it.
-/

namespace TextMode

inductive Balanced : Text → Prop where
  | nil : Balanced []
  | char {c : Char} {rest : Text} :
      c ≠ '\\' → c ≠ '{' → c ≠ '}' → c ≠ '%' → Balanced rest → Balanced (c :: rest)
  | escape {c : Char} {rest : Text} : Balanced rest → Balanced ('\\' :: c :: rest)
  | braces {inner rest : Text} :
      Balanced inner → Balanced rest → Balanced ('{' :: (inner ++ '}' :: rest))

namespace Balanced

/-- Balanced texts behind each other are balanced.  No escape reaches over the end of a
balanced text, because its last backslash has taken a character. -/
theorem append {left right : Text} (hleft : Balanced left) (hright : Balanced right) :
    Balanced (left ++ right) := by
  induction hleft with
  | nil => exact hright
  | char hescape hopen hclose hcomment _ ih => exact .char hescape hopen hclose hcomment ih
  | escape _ ih => exact .escape ih
  | braces hinner _ _ ih =>
      rw [List.cons_append, List.append_assoc, List.cons_append]
      exact .braces hinner ih

/-- A run at the start can be taken off a balanced text if it holds no backslash and no open
brace.  A close brace is never met, since none stands before an open one. -/
theorem dropWhile {accepts : Char → Bool} {text : Text} (hbalanced : Balanced text)
    (hescape : accepts '\\' = false) (hopen : accepts '{' = false) :
    Balanced (text.dropWhile accepts) := by
  induction hbalanced with
  | nil => exact .nil
  | char hc hc' hc'' hc''' htail ih =>
      rw [List.dropWhile_cons]
      split
      · exact ih
      · exact .char hc hc' hc'' hc''' htail
  | escape htail _ =>
      rw [List.dropWhile_cons, hescape]
      exact .escape htail
  | braces hinner htail _ _ =>
      rw [List.dropWhile_cons, hopen]
      exact .braces hinner htail

/-- Inside braces a balanced text never ends an island.  It may hold any delimiter, as the
delimiter would have to stand at depth zero. -/
theorem inside {kind : IslandKind} {depth : Nat} {text rest : Text}
    (hbalanced : Balanced text) (hrest : Inside kind (depth + 1) rest) :
    Inside kind (depth + 1) (text ++ rest) := by
  induction hbalanced generalizing depth rest with
  | nil => exact hrest
  | char hescape hopen hclose _ _ ih =>
      exact .char hopen hclose hescape (by simp) (ih hrest)
  | escape _ ih => exact .escape (by simp) (ih hrest)
  | braces _ _ ihinner ihtail =>
      rw [List.cons_append, List.append_assoc, List.cons_append]
      exact .openBrace (ihinner (.closeBrace (ihtail hrest)))

end Balanced

/-! ## Inert texts -/

/-- A text without escapes, braces, comments and dollars. -/
def IsInert (text : Text) : Prop :=
  ∀ c ∈ text, c ∉ ['\\', '{', '}', '%', '$']

/-- A run of one class of characters is inert if the class leaves out the five characters
that mean something to a reader of islands. -/
theorem isInert_of_class {accepts : Char → Bool} {run : Text}
    (hclass : ['\\', '{', '}', '%', '$'].all fun d => !accepts d)
    (hrun : ∀ c ∈ run, accepts c) : IsInert run := by
  intro c hc hmem
  have hnone : accepts c = false := by simpa using List.all_eq_true.mp hclass c hmem
  exact ne_of_accepts (hrun c hc) hnone rfl

theorem isInert_letters {name : Text} (hletters : ∀ c ∈ name, c.isAlpha) : IsInert name :=
  isInert_of_class (by decide) hletters

theorem isInert_blanks {run : Text} (hblanks : ∀ c ∈ run, Text.isBlank c) : IsInert run :=
  isInert_of_class (by decide) hblanks

theorem IsInert.cons {c : Char} {text : Text} (hinert : IsInert (c :: text)) :
    (c ≠ '\\' ∧ c ≠ '{' ∧ c ≠ '}' ∧ c ≠ '%' ∧ c ≠ '$') ∧ IsInert text := by
  constructor
  · simpa using hinert c (List.mem_cons_self ..)
  · intro d hd
    exact hinert d (List.mem_cons_of_mem c hd)

theorem balanced_of_isInert {text : Text} (hinert : IsInert text) : Balanced text := by
  induction text with
  | nil => exact .nil
  | cons c text ih =>
      obtain ⟨hc, htext⟩ := hinert.cons
      exact .char hc.1 hc.2.1 hc.2.2.1 hc.2.2.2.1 (ih htext)

/-- Inert text changes neither the depth nor the end of an island, so it can be put in front
at any depth. -/
theorem inside_of_isInert {kind : IslandKind} {depth : Nat} {text rest : Text}
    (hinert : IsInert text) (hrest : Inside kind depth rest) :
    Inside kind depth (text ++ rest) := by
  induction text with
  | nil => exact hrest
  | cons c text ih =>
      obtain ⟨⟨hescape, hopen, hclose, -, hdollar⟩, htext⟩ := hinert.cons
      exact .char hopen hclose hescape (fun hdelimiter => hdollar hdelimiter.2.2) (ih htext)

/-- A command is a backslash that takes the first letter of its name, and inert text. -/
theorem inside_command {kind : IslandKind} {depth : Nat} {name rest : Text} (hne : name ≠ [])
    (hletters : ∀ c ∈ name, c.isAlpha) (hrest : Inside kind depth rest) :
    Inside kind depth ('\\' :: name ++ rest) := by
  cases name with
  | nil => exact absurd rfl hne
  | cons c name =>
      have hc := hletters c (List.mem_cons_self ..)
      apply Inside.escape (fun hdelimiter => ne_of_accepts hc rfl hdelimiter.2.2)
      exact inside_of_isInert (isInert_letters hletters).cons.2 hrest

end TextMode
