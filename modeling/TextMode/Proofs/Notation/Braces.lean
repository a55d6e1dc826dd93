import Mathlib
import TextMode.Proofs.Notation.Failures
import TextMode.Proofs.Notation.Nesting

/-!
# Brace faults

The reader of notation finds the faults of a text in its tokens.  They can be found in
its characters as well: a backslash takes one character with it, a comment takes the
rest of its line, and all that matters of the other characters are the braces.
-/

namespace TextMode

/-! ## Characters outside escapes -/

/-- The number of open braces behind a character. -/
def depthAfter (depth : Nat) (c : Char) : Nat :=
  if c = '{' then depth + 1 else if c = '}' then depth - 1 else depth

/-- The characters of a text that no backslash takes with it, each with the number of
braces open before it.  A closing brace outside all braces leaves that number alone. -/
def bareCharacters (depth : Nat) : Text → List (Nat × Char)
  | '\\' :: _ :: rest => bareCharacters depth rest
  | c :: rest => (depth, c) :: bareCharacters (depthAfter depth c) rest
  | [] => []

theorem bareCharacters_escape (depth : Nat) (c : Char) (rest : Text) :
    bareCharacters depth ('\\' :: c :: rest) = bareCharacters depth rest := by
  rw [bareCharacters]

theorem bareCharacters_cons {c : Char} (hescape : c ≠ '\\') (depth : Nat) (rest : Text) :
    bareCharacters depth (c :: rest) =
      (depth, c) :: bareCharacters (depthAfter depth c) rest := by
  rw [bareCharacters]
  simp [hescape]

/-- No character outside escapes starts a comment. -/
def Commentless (depth : Nat) (text : Text) : Prop :=
  ∀ bare ∈ bareCharacters depth text, bare.2 ≠ '%'

theorem Commentless.of_escape {depth : Nat} {c : Char} {rest : Text}
    (hcomment : Commentless depth ('\\' :: c :: rest)) : Commentless depth rest := by
  rwa [Commentless, bareCharacters_escape] at hcomment

theorem Commentless.of_cons {depth : Nat} {c : Char} {rest : Text}
    (hcomment : Commentless depth (c :: rest)) (hescape : c ≠ '\\') :
    c ≠ '%' ∧ Commentless (depthAfter depth c) rest := by
  rw [Commentless, bareCharacters_cons hescape, List.forall_mem_cons] at hcomment
  exact hcomment

/-- The text holds a percent sign that is not escaped. -/
def HasComment (text : Text) : Prop :=
  ∃ bare ∈ bareCharacters 0 text, bare.2 = '%'

theorem commentless_of_not_hasComment {text : Text} (hcomment : ¬ HasComment text) :
    Commentless 0 text := by
  intro bare hbare hpercent
  exact hcomment ⟨bare, hbare, hpercent⟩

/-- The text holds a closing brace outside its braces. -/
def HasLooseBrace (text : Text) : Prop :=
  (0, '}') ∈ bareCharacters 0 text

/-- Every backslash of the text has a character to take. -/
inductive Paired : Text → Prop where
  | nil : Paired []
  | escape {c : Char} {rest : Text} : Paired rest → Paired ('\\' :: c :: rest)
  | char {c : Char} {rest : Text} : c ≠ '\\' → Paired rest → Paired (c :: rest)

theorem Paired.of_escape {c : Char} {rest : Text} (hpaired : Paired ('\\' :: c :: rest)) :
    Paired rest := by
  cases hpaired with
  | escape hrest => exact hrest
  | char hescape _ => exact absurd rfl hescape

theorem Paired.of_char {c : Char} {rest : Text} (hpaired : Paired (c :: rest))
    (hescape : c ≠ '\\') : Paired rest := by
  cases hpaired with
  | escape _ => exact absurd rfl hescape
  | char _ hrest => exact hrest

theorem not_paired_strayBackslash : ¬ Paired ['\\'] := by
  intro hpaired
  cases hpaired with
  | char hescape _ => exact hescape rfl

/-- The rest of a paired text from a line feed on is paired, even if a backslash takes the
line feed.  So a comment can be passed over without looking at the backslashes in it. -/
theorem Paired.dropLine {text : Text} (hpaired : Paired text) :
    Paired (text.dropWhile (· ≠ '\n')) := by
  induction hpaired with
  | nil => exact .nil
  | @escape c rest hrest ih =>
      by_cases hc : c = '\n'
      · subst hc
        exact .char (by decide) hrest
      · simpa [hc] using ih
  | @char c rest hescape hrest ih =>
      by_cases hc : c = '\n'
      · subst hc
        exact .char (by decide) hrest
      · simpa [hc] using ih

namespace Notation

open TextMode.Text (isBlank)

/-! ## Faults from the left -/

/-- The first fault of a text that is read from the given number of open braces on. -/
def braceFault? (depth : Nat) (text : Text) : Option Fault :=
  match text with
  | [] => if depth = 0 then none else some .missingCloseBrace
  | c :: rest =>
      if c = '\\' then
        match rest with
        | [] => some .strayBackslash
        | _ :: rest => braceFault? depth rest
      else if c = '{' then braceFault? (depth + 1) rest
      else if c = '}' then
        if depth = 0 then some .extraCloseBrace else braceFault? (depth - 1) rest
      else if c = '%' then braceFault? depth (rest.dropWhile (· ≠ '\n'))
      else braceFault? depth rest
termination_by text.length
decreasing_by
  all_goals simp only [List.length_cons]
  all_goals try omega
  have hlength := (List.dropWhile_sublist (· ≠ '\n') (l := rest)).length_le
  omega

theorem braceFault?_char {c : Char} (hescape : c ≠ '\\') (hopen : c ≠ '{') (hclose : c ≠ '}')
    (hcomment : c ≠ '%') (depth : Nat) (rest : Text) :
    braceFault? depth (c :: rest) = braceFault? depth rest := by
  rw [braceFault?.eq_def]
  simp only [hescape, hopen, hclose, hcomment, if_false]

theorem braceFault?_escape (depth : Nat) (c : Char) (rest : Text) :
    braceFault? depth ('\\' :: c :: rest) = braceFault? depth rest := by
  rw [braceFault?.eq_def]
  rfl

theorem braceFault?_openBrace (depth : Nat) (rest : Text) :
    braceFault? depth ('{' :: rest) = braceFault? (depth + 1) rest := by
  rw [braceFault?.eq_def]
  rfl

theorem braceFault?_closeBrace (depth : Nat) (rest : Text) :
    braceFault? depth ('}' :: rest) =
      if depth = 0 then some .extraCloseBrace else braceFault? (depth - 1) rest := by
  rw [braceFault?.eq_def]
  rfl

theorem braceFault?_comment (depth : Nat) (rest : Text) :
    braceFault? depth ('%' :: rest) = braceFault? depth (rest.dropWhile (· ≠ '\n')) := by
  rw [braceFault?.eq_def]
  rfl

/-- A run of characters without a meaning for braces may be read at once.  The class of the
run has to leave out the four characters that have such a meaning. -/
theorem braceFault?_dropWhile {accepts : Char → Bool}
    (hclass : ['\\', '{', '}', '%'].all fun d => !accepts d) (depth : Nat) (text : Text) :
    braceFault? depth (text.dropWhile accepts) = braceFault? depth text := by
  induction text with
  | nil => rfl
  | cons c text ih =>
      rw [List.dropWhile_cons]
      split
      · next hc =>
          have hne : ∀ d ∈ ['\\', '{', '}', '%'], c ≠ d := by
            intro d hd
            exact ne_of_accepts hc (by simpa using List.all_eq_true.mp hclass d hd)
          rw [ih, braceFault?_char] <;> exact hne _ (by simp)
      · rfl

/-- All tokens but braces and a stray backslash leave the open braces alone.  Such a token
becomes an item of its own, and the faults are those of the text behind it. -/
theorem braceFault?_next {c : Char} {rest : Text} (hopen : c ≠ '{') (hclose : c ≠ '}')
    (hstray : ¬ (c = '\\' ∧ rest = [])) :
    (Token.next c rest).1.IsSingle ∧
      ∀ depth, braceFault? depth (Token.next c rest).2 = braceFault? depth (c :: rest) := by
  fun_cases Token.next c rest with
  | case1 hescape => exact absurd ⟨hescape, rfl⟩ hstray
  | case2 hescape d tail halpha =>
      subst hescape
      refine ⟨trivial, fun depth => ?_⟩
      rw [braceFault?_escape, List.dropWhile_cons_of_pos halpha,
        braceFault?_dropWhile (by decide)]
  | case3 hescape d tail =>
      subst hescape
      exact ⟨trivial, fun depth => (braceFault?_escape depth d tail).symm⟩
  | case4 _ _ hc => exact absurd hc hopen
  | case5 _ _ _ hc => exact absurd hc hclose
  | case6 _ _ _ _ hc =>
      subst hc
      exact ⟨trivial, fun depth => (braceFault?_comment depth rest).symm⟩
  | case7 _ hescape _ _ hcomment =>
      refine ⟨trivial, fun depth => ?_⟩
      rw [braceFault?_char hescape hopen hclose hcomment]
  | case8 _ hescape _ _ hcomment =>
      refine ⟨trivial, fun depth => ?_⟩
      rw [braceFault?_char hescape hopen hclose hcomment, braceFault?_dropWhile (by decide)]
  | case9 _ hescape _ _ hcomment =>
      refine ⟨trivial, fun depth => ?_⟩
      rw [braceFault?_char hescape hopen hclose hcomment, braceFault?_dropWhile (by decide)]

/-- The fault that nesting the tokens of a text finds is that of its characters.  Of the
stack of the reader only its height matters, which is the number of open braces. -/
theorem failure?_nest (outer : List (List Item)) (inner : List Item) (text : Text) :
    failure? (Item.nest outer inner (tokenize text)) = braceFault? outer.length text := by
  induction text using tokenize.induct generalizing outer inner with
  | case1 =>
      rw [tokenize, braceFault?]
      cases outer <;> rfl
  | case2 c rest ih =>
      by_cases hopen : c = '{'
      · subst hopen
        rw [tokenize, braceFault?_openBrace]
        exact ih (inner :: outer) []
      by_cases hclose : c = '}'
      · subst hclose
        rw [tokenize, braceFault?_closeBrace]
        cases outer with
        | nil => rfl
        | cons before outer => exact ih outer (.group inner.reverse :: before)
      by_cases hstray : c = '\\' ∧ rest = []
      · obtain ⟨rfl, rfl⟩ := hstray
        rw [tokenize, braceFault?]
        rfl
      · obtain ⟨hsingle, hfault⟩ := braceFault?_next hopen hclose hstray
        rw [tokenize, nest_single hsingle, ih, hfault]

/-- A paired text has no stray backslash, neither behind nor in a comment.  What a comment
hides stays paired, because a line feed ends it. -/
theorem braceFault?_ne_strayBackslash {text : Text} (hpaired : Paired text) (depth : Nat) :
    braceFault? depth text ≠ some .strayBackslash := by
  fun_induction braceFault? depth text with
  | case1 => simp
  | case2 => simp
  | case3 => exact absurd hpaired not_paired_strayBackslash
  | case4 depth c rest ih => exact ih hpaired.of_escape
  | case5 depth rest hescape ih => exact ih (hpaired.of_char hescape)
  | case6 => simp
  | case7 depth rest _ hescape _ ih => exact ih (hpaired.of_char hescape)
  | case8 depth rest hescape _ _ ih => exact ih (hpaired.of_char hescape).dropLine
  | case9 depth c rest hescape _ _ _ ih => exact ih (hpaired.of_char hescape)

end Notation

end TextMode
