import Mathlib
import TextMode.Proofs.Expansion.Outcome

/-!
# Quoted bodies

A text is quoted for use as a body by doubling its hashes, except those that a backslash takes
with it.  The tokens of a quoted text are literal, and what they stand for is the text.  So one
expansion takes the quoting off again and leaves everything else to the next.
-/

namespace TextMode.Expansion

/-- Doubles each hash that is not taken by a backslash. -/
def quoted : Text → Text
  | '\\' :: c :: rest => '\\' :: c :: quoted rest
  | '#' :: rest => '#' :: '#' :: quoted rest
  | c :: rest => c :: quoted rest
  | [] => []

/-! ## Literal bodies -/

/-- A token that stands for a text whatever the arguments are. -/
def BodyToken.IsLiteral (token : BodyToken) : Prop :=
  token.isPlaceholder = false ∧ ∀ arguments, ¬ token.IsOffending arguments

/-- The body reads as literal tokens, which stand for the text. -/
def StandsFor (body text : Text) : Prop :=
  ∃ tokens, ReadsBody body tokens ∧ (∀ token ∈ tokens, token.IsLiteral) ∧
    tokens.flatMap BodyToken.literalText = text

namespace StandsFor

variable {body text : Text}

theorem nil : StandsFor [] [] :=
  ⟨[], .nil, List.forall_mem_nil _, rfl⟩

theorem cons (hbody : StandsFor body text) (token : BodyToken) (hliteral : token.IsLiteral)
    (hbefore : token.CanPrecede body) :
    StandsFor (token.spelling ++ body) (token.literalText ++ text) := by
  obtain ⟨tokens, hreads, htokens, rfl⟩ := hbody
  exact ⟨token :: tokens, .cons token hbefore hreads,
    List.forall_mem_cons.mpr ⟨hliteral, htokens⟩, List.flatMap_cons⟩

end StandsFor

/-- A quoted text stands for the text.  Each hash that no backslash takes is doubled and so
is literal, and escapes stay as they are. -/
theorem standsFor_quoted (text : Text) : StandsFor (quoted text) text := by
  fun_induction quoted text with
  | case1 c rest ih => exact ih.cons (.escape c) ⟨rfl, fun _ => id⟩ trivial
  | case2 rest ih => exact ih.cons .doubledHash ⟨rfl, fun _ => id⟩ trivial
  | case3 c rest hescape hhash ih =>
      by_cases hc : c = '\\'
      · -- A backslash that takes nothing with it is the last character.
        subst hc
        cases rest with
        | nil => exact StandsFor.nil.cons .strayBackslash ⟨rfl, fun _ => id⟩ rfl
        | cons d rest => exact absurd rfl (hescape d rest rfl)
      · exact ih.cons (.character c) ⟨rfl, fun _ => id⟩ ⟨hc, hhash⟩
  | case4 => exact .nil

/-- Literal tokens are joined once, all of them together at the end. -/
theorem expandTokens_of_isLiteral (limit : Int) (arguments : List Text) (expanded literal : Text)
    {tokens : List BodyToken} (htokens : ∀ token ∈ tokens, token.IsLiteral) :
    expandTokens limit arguments expanded literal tokens =
      join limit expanded (literal ++ tokens.flatMap BodyToken.literalText) := by
  induction tokens generalizing literal with
  | nil => rw [expandTokens, List.flatMap_nil, List.append_nil]
  | cons token tokens ih =>
      obtain ⟨⟨hplaceholder, hsound⟩, htokens⟩ := List.forall_mem_cons.mp htokens
      rw [expandTokens_literal expanded literal hplaceholder (hsound arguments), ih _ htokens,
        List.flatMap_cons, List.append_assoc]

/-- A body that stands for a text is expanded to the text, whatever the arguments are.  It
has no placeholder. -/
theorem StandsFor.expand_eq {body text : Text} (hbody : StandsFor body text) (limit : Int)
    (arguments : List Text) : expand limit arguments body = join limit [] text := by
  obtain ⟨tokens, hreads, htokens, rfl⟩ := hbody
  rw [expand, ← readsBody_iff.mp hreads, expandTokens_of_isLiteral limit arguments [] [] htokens,
    List.nil_append]

/-- Nothing is put in front of a first piece, so only its own length is tested. -/
theorem join_nil_left (limit : Int) (text : Text) :
    join limit [] text =
      if text.length ≤ limit then .ok text else .error (.overflow limit 0 text.length) := by
  by_cases hfits : text.length ≤ limit
  · rw [if_pos hfits, join_of_le (by rwa [glue_nil_left]), glue_nil_left]
  · have hlong : limit < (glue [] text).length := by
      rw [glue_nil_left]
      exact not_le.mp hfits
    rw [if_neg hfits, join_of_lt hlong, separated_nil]
    rfl

/-- Quoting is undone by one expansion, whatever the arguments.

The expansion of a quoted text is the text, with nothing added, and fails only if the text is
longer than the limit.  Expanded once more with other arguments and another limit, it has the
outcome of the text itself, failures included. -/
theorem quoting_undone (limit : Int) (arguments : List Text) (text : Text) :
    expand limit arguments (quoted text) =
        (if text.length ≤ limit then .ok text else .error (.overflow limit 0 text.length)) ∧
      ∀ limit' arguments',
        (do let body ← expand limit arguments (quoted text)
            expand limit' arguments' body) =
          if text.length ≤ limit then expand limit' arguments' text
          else .error (.overflow limit 0 text.length) := by
  have hexpand := (standsFor_quoted text).expand_eq limit arguments
  rw [join_nil_left] at hexpand
  refine ⟨hexpand, ?_⟩
  intro limit' arguments'
  rw [hexpand]
  split
  · rfl
  · rfl

/-- Hashes behind backslashes and a placeholder, to be expanded one level later. -/
example :
    quoted "\\##1\\\\###".toList = "\\###1\\\\######".toList ∧
      expand 9 [['x']] (quoted "\\##1\\\\###".toList) = .ok "\\##1\\\\###".toList := by
  decide

end TextMode.Expansion
