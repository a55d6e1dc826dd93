import Mathlib
import TextMode.Proofs.Expansion.Outcome
import TextMode.Proofs.Expansion.Tokens

/-!
# Expansion keeps tokens

The tokens of an expansion are those of its chunks, apart from spaces.  A space is put
where a control word would take a letter of the next chunk.  Nothing is put where a
backslash would take its first character, so a chunk may not end in one: arguments have
to be given so, and literal text ends so only at the end of a body.
-/

namespace TextMode.Expansion

/-- The tokens of a text without its spaces. -/
def visible (text : Text) : List Token :=
  (texTokens text).filter (· ≠ .character ' ')

/-- Texts that are apart show their tokens one after the other. -/
theorem visible_append {left right : Text} (hapart : Apart left right) :
    visible (left ++ right) = visible left ++ visible right := by
  rw [visible, texTokens_append hapart, List.filter_append]
  rfl

/-! ## Joints -/

variable {left : Text} (heven : endsInOddBackslashes left = false)

include heven in
theorem apart_space : Apart left [' '] :=
  ⟨heven, fun _ => rfl⟩

theorem apart_of_space (left right : Text) : Apart (left ++ [' ']) right := by
  apply Apart.of_ends
  · rw [endsInOddBackslashes_concat]
    rfl
  · rw [endsInControlWord_concat]
    rfl

include heven in
/-- The space between two pieces keeps them apart where they are not apart by themselves.
They are not if a control word stands in front of a letter. -/
theorem apart_separated (right : Text) : Apart (separated left right) right := by
  rw [separated]
  split
  · exact apart_of_space left right
  · next hjoint =>
      refine ⟨heven, fun hword => ?_⟩
      cases right with
      | nil => rfl
      | cons c right => simpa [hword] using hjoint

include heven in
theorem visible_separated (right : Text) : visible (separated left right) = visible left := by
  have hspace : visible [' '] = [] := by simp [visible, texTokens]
  rw [separated]
  split
  · rw [visible_append (apart_space heven), hspace, List.append_nil]
  · rfl

include heven in
/-- Gluing shows the tokens of both pieces and nothing else.  The space that it may put in
is not shown. -/
theorem visible_glue (right : Text) :
    visible (glue left right) = visible left ++ visible right := by
  calc
    visible (glue left right) = visible (separated left right) ++ visible right :=
      visible_append (apart_separated heven right)
    _ = visible left ++ visible right := by rw [visible_separated heven]

include heven in
theorem endsInOddBackslashes_glue {right : Text} (hright : endsInOddBackslashes right = false) :
    endsInOddBackslashes (glue left right) = false := by
  rw [glue, endsInOddBackslashes_append (apart_separated heven right).even, hright]

/-! ## Bodies -/

variable {arguments : List Text}

/-- Only a stray backslash leaves literal text open to the next character.  All other
backslashes have taken a character of the body. -/
theorem endsInOddBackslashes_literalText {token : BodyToken} {rest : Text}
    (hbefore : token.CanPrecede rest) (hplaceholder : token.isPlaceholder = false)
    (hsound : ¬ token.IsOffending arguments) (hstray : token ≠ .strayBackslash) :
    endsInOddBackslashes token.literalText = false := by
  cases token with
  | escape c => exact endsInOddBackslashes_escape c
  | strayBackslash => exact absurd rfl hstray
  | doubledHash => rfl
  | placeholder index => exact absurd hplaceholder (by simp [BodyToken.isPlaceholder])
  | malformedHash next => exact absurd trivial hsound
  | character c => exact (Apart.character hbefore.1 []).even

theorem visible_expansionFrom_nil {expanded : Text}
    (hexpanded : endsInOddBackslashes expanded = false) (literal : Text) :
    visible (expansionFrom arguments expanded literal []) =
      visible expanded ++
        (chunks literal []).flatMap fun chunk => visible (chunk.text arguments) := by
  rw [expansionFrom_nil, visible_glue hexpanded, chunks, List.flatMap_singleton]
  rfl

/-- An expansion shows what has been expanded and then the tokens of the chunks, by
induction on the reading of the body.  Each chunk is glued and so stays apart. -/
theorem visible_expansionFrom
    (harguments : ∀ argument ∈ arguments, endsInOddBackslashes argument = false)
    {body : Text} {tokens : List BodyToken} (hreads : ReadsBody body tokens)
    (hsound : ∀ token ∈ tokens, ¬ token.IsOffending arguments) {expanded literal : Text}
    (hexpanded : endsInOddBackslashes expanded = false)
    (hliteral : endsInOddBackslashes literal = false) :
    visible (expansionFrom arguments expanded literal tokens) =
      visible expanded ++
        (chunks literal tokens).flatMap fun chunk => visible (chunk.text arguments) := by
  induction hreads generalizing expanded literal with
  | nil => exact visible_expansionFrom_nil hexpanded literal
  | @cons token rest tokens hbefore hrest ih =>
      have htoken := hsound token (List.mem_cons_self ..)
      have htokens := fun other hother => hsound other (List.mem_cons_of_mem token hother)
      rcases BodyToken.literal_or_argument htoken with
        hplaceholder | ⟨index, argument, rfl, hargument⟩
      · rw [expansionFrom_literal expanded literal hplaceholder,
          chunks_of_not_placeholder hplaceholder]
        by_cases hstray : token = .strayBackslash
        · subst hstray
          obtain rfl : rest = [] := hbefore
          obtain rfl : tokens = [] := readsBody_iff.mp hrest
          exact visible_expansionFrom_nil hexpanded _
        · apply ih htokens hexpanded
          rw [endsInOddBackslashes_append hliteral]
          exact endsInOddBackslashes_literalText hbefore hplaceholder htoken hstray
      have hmem : argument ∈ arguments := List.mem_of_getElem? hargument
      have hjoined := endsInOddBackslashes_glue hexpanded hliteral
      have hjoinedArgument := endsInOddBackslashes_glue hjoined (harguments argument hmem)
      calc
        visible (expansionFrom arguments expanded literal (.placeholder index :: tokens)) =
            visible
              (expansionFrom arguments (glue (glue expanded literal) argument) [] tokens) := by
          rw [expansionFrom_placeholder expanded literal hargument]
        _ = visible (glue (glue expanded literal) argument) ++
            (chunks [] tokens).flatMap fun chunk => visible (chunk.text arguments) :=
          ih htokens hjoinedArgument rfl
        _ = visible expanded ++ (chunks literal (.placeholder index :: tokens)).flatMap
            fun chunk => visible (chunk.text arguments) := by
          rw [visible_glue hjoined, visible_glue hexpanded, chunks, List.flatMap_cons,
            List.flatMap_cons, Chunk.text_argument hargument]
          simp only [Chunk.text, List.append_assoc]

/-- Expansion neither merges nor splits nor changes a token.  Besides spaces, the tokens of
a result are those of the chunks of the body, in order, with arguments that are not
read again. -/
theorem visible_expand {limit : Int} {body result : Text}
    (harguments : ∀ argument ∈ arguments, endsInOddBackslashes argument = false)
    (hexpand : expand limit arguments body = .ok result) :
    ∃ tokens, ReadsBody body tokens ∧ (∀ token ∈ tokens, ¬ token.IsOffending arguments) ∧
      visible result =
        (chunks [] tokens).flatMap fun chunk => visible (chunk.text arguments) := by
  obtain ⟨hsound, hresult⟩ := expansion_of_expand_eq_ok hexpand
  have hreads := readsBody_readBody body
  have hempty : endsInOddBackslashes [] = false := rfl
  have hvisible := visible_expansionFrom harguments hreads hsound hempty hempty
  refine ⟨readBody body, hreads, hsound, ?_⟩
  rw [hresult, expansion, hvisible]
  simp [visible, texTokens]

/-- A control word before an empty argument and a letter.  The empty argument does not let
the letter join the name. -/
theorem visible_expand_controlWord :
    (∀ argument ∈ [[], ['x', '#', '1']], endsInOddBackslashes argument = false) ∧
      expand 8 [[], ['x', '#', '1']] ['\\', 'a', '#', '1', '#', '2'] =
        .ok ['\\', 'a', ' ', 'x', '#', '1'] ∧
      ∃ tokens, ReadsBody ['\\', 'a', '#', '1', '#', '2'] tokens ∧
        (∀ token ∈ tokens, ¬ token.IsOffending [[], ['x', '#', '1']]) ∧
        visible ['\\', 'a', ' ', 'x', '#', '1'] =
          (chunks [] tokens).flatMap fun chunk => visible (chunk.text [[], ['x', '#', '1']]) := by
  have harguments : ∀ argument ∈ [[], ['x', '#', '1']], endsInOddBackslashes argument = false := by
    decide
  have hexpand : expand 8 [[], ['x', '#', '1']] ['\\', 'a', '#', '1', '#', '2'] =
      .ok ['\\', 'a', ' ', 'x', '#', '1'] := by
    rfl
  exact ⟨harguments, hexpand, visible_expand harguments hexpand⟩

end TextMode.Expansion
