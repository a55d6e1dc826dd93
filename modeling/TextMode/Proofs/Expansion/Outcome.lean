import Mathlib
import TextMode.Expansion.Call
import TextMode.Proofs.Expansion.Body
import TextMode.Proofs.Text.Runs

/-!
# Outcomes of an expansion

An expansion without a limit glues the chunks of a body from the left.  It only grows
on the way, so a limit that is tested at every joint rejects exactly what ends up too
long.  A token that cannot be expanded is reported unless the text before it has
overflowed already, and literal text behind the last placeholder is not tested there.
-/

namespace TextMode.Expansion

/-! ## Joints -/

/-- Two pieces with the space that keeps them apart, however long they are. -/
def glue (left right : Text) : Text :=
  separated left right ++ right

/-- Nothing is put between a text and an empty piece.  A space is put in only where a letter
follows. -/
theorem glue_nil (left : Text) : glue left [] = left := by
  simp [glue, separated]

theorem separated_nil (right : Text) : separated [] right = [] := by
  have hword : endsInControlWord [] = false := rfl
  rw [separated, hword, Bool.and_false, if_neg Bool.false_ne_true]

theorem glue_nil_left (right : Text) : glue [] right = right := by
  rw [glue, separated_nil, List.nil_append]

theorem length_le_length_glue (left right : Text) : left.length ≤ (glue left right).length := by
  rw [glue, separated]
  split <;> simp only [List.length_append] <;> omega

/-- What a limit makes of a text. -/
def limited (limit : Int) (text : Text) : Except TexError Text :=
  if text.length ≤ limit then .ok text else .error .macroBufferOverflow

theorem limited_of_le {limit : Int} {text : Text} (hfits : text.length ≤ limit) :
    limited limit text = .ok text :=
  if_pos hfits

theorem limited_of_lt {limit : Int} {text : Text} (hlong : limit < text.length) :
    limited limit text = .error .macroBufferOverflow :=
  if_neg (not_le.mpr hlong)

/-- A join is the gluing of both pieces with a test of the length.  A fault tells the two
lengths that were added, the space included in the first. -/
theorem join_eq (limit : Int) (left right : Text) :
    join limit left right =
      if limit < (glue left right).length then
        .error (.overflow limit (separated left right).length right.length)
      else .ok (glue left right) := by
  simp only [join, glue, List.length_append]

theorem join_of_le {limit : Int} {left right : Text}
    (hfits : (glue left right).length ≤ limit) : join limit left right = .ok (glue left right) := by
  rw [join_eq, if_neg (not_lt.mpr hfits)]

theorem join_of_lt {limit : Int} {left right : Text}
    (hlong : limit < (glue left right).length) :
    join limit left right =
      .error (.overflow limit (separated left right).length right.length) := by
  rw [join_eq, if_pos hlong]

/-- What is reported of a join is whether the glued text is within the limit. -/
theorem report_join (limit : Int) (left right : Text) :
    (join limit left right).mapError Fault.report = limited limit (glue left right) := by
  by_cases hfits : (glue left right).length ≤ limit
  · rw [join_of_le hfits, limited_of_le hfits]
    rfl
  · have hlong : limit < (glue left right).length := not_le.mp hfits
    rw [join_of_lt hlong, limited_of_lt hlong]
    rfl

/-! ## Expansions without a limit -/

variable {limit : Int} {arguments : List Text}

/-- The expansion of tokens that have `expanded` and the literal text `literal` before
them. -/
def expansionFrom (arguments : List Text) (expanded literal : Text)
    (tokens : List BodyToken) : Text :=
  ((chunks literal tokens).map (Chunk.text arguments)).foldl glue expanded

def expansion (arguments : List Text) (tokens : List BodyToken) : Text :=
  expansionFrom arguments [] [] tokens

theorem expansionFrom_nil (expanded literal : Text) :
    expansionFrom arguments expanded literal [] = glue expanded literal :=
  rfl

/-- At a placeholder the literal text before it is glued to what has been expanded, and then
the argument is. -/
theorem expansionFrom_placeholder (expanded literal : Text) {index : Fin 9} {argument : Text}
    (hargument : arguments[index.val]? = some argument) (tokens : List BodyToken) :
    expansionFrom arguments expanded literal (.placeholder index :: tokens) =
      expansionFrom arguments (glue (glue expanded literal) argument) [] tokens := by
  simp only [expansionFrom, chunks, List.map_cons, List.foldl_cons, Chunk.text_argument hargument]
  rfl

theorem expansionFrom_literal (expanded literal : Text) {token : BodyToken}
    (htoken : token.isPlaceholder = false) (tokens : List BodyToken) :
    expansionFrom arguments expanded literal (token :: tokens) =
      expansionFrom arguments expanded (literal ++ token.literalText) tokens := by
  simp only [expansionFrom, chunks_of_not_placeholder htoken]

/-- Gluing never shortens a text.  So an expansion that is too long once stays too long. -/
theorem length_le_length_expansionFrom (expanded literal : Text) (tokens : List BodyToken) :
    expanded.length ≤ (expansionFrom arguments expanded literal tokens).length := by
  have hfold : ∀ (texts : List Text) (start : Text),
      start.length ≤ (texts.foldl glue start).length := by
    intro texts
    induction texts with
    | nil => exact fun start => Nat.le_refl _
    | cons text texts ih =>
        intro start
        calc
          start.length ≤ (glue start text).length := length_le_length_glue start text
          _ ≤ ((text :: texts).foldl glue start).length := ih (glue start text)
  exact hfold _ expanded

/-- The tokens up to the last placeholder among them. -/
def throughLastPlaceholder (tokens : List BodyToken) : List BodyToken :=
  tokens.rdropWhile fun token => !token.isPlaceholder

theorem throughLastPlaceholder_placeholder (index : Fin 9) (tokens : List BodyToken) :
    throughLastPlaceholder (.placeholder index :: tokens) =
      .placeholder index :: throughLastPlaceholder tokens := by
  rw [throughLastPlaceholder, throughLastPlaceholder, rdropWhile_cons]
  split
  · next hnone =>
      rw [hnone]
      rfl
  · rfl

/-- Literal text behind the last placeholder is left out, and literal text in front of
another placeholder is not. -/
theorem throughLastPlaceholder_literal {token : BodyToken}
    (htoken : token.isPlaceholder = false) (tokens : List BodyToken) :
    throughLastPlaceholder (token :: tokens) =
      if throughLastPlaceholder tokens = [] then []
      else token :: throughLastPlaceholder tokens := by
  rw [throughLastPlaceholder, throughLastPlaceholder, rdropWhile_cons,
    List.rdropWhile_singleton, htoken]
  rfl

/-! ## Steps -/

/-- Literal text is gathered and not joined yet.  It meets no limit before the next
placeholder or the end of the body. -/
theorem expandTokens_literal (expanded literal : Text) {token : BodyToken}
    (hplaceholder : token.isPlaceholder = false) (hoffence : ¬ token.IsOffending arguments)
    (tokens : List BodyToken) :
    expandTokens limit arguments expanded literal (token :: tokens) =
      expandTokens limit arguments expanded (literal ++ token.literalText) tokens := by
  cases token with
  | placeholder index => exact absurd hplaceholder (by simp [BodyToken.isPlaceholder])
  | malformedHash next => exact absurd trivial hoffence
  | _ => rfl

/-- At an offending token nothing is joined any more.  The literal text that was gathered
before it is lost without a test. -/
theorem expandTokens_offence (expanded literal : Text) {token : BodyToken}
    (hoffence : token.IsOffending arguments) (tokens : List BodyToken) :
    expandTokens limit arguments expanded literal (token :: tokens) =
      .error (.illegalParameter token.spelling) := by
  cases token with
  | placeholder index =>
      have hmissing : arguments[index.val]? = none := List.getElem?_eq_none hoffence
      rw [expandTokens, hmissing]
  | malformedHash next => rfl
  | escape _ | strayBackslash | doubledHash | character _ => exact absurd hoffence id

/-- A placeholder joins twice, but the longer of both results decides.  It is the second,
because gluing never shortens a text. -/
theorem report_expandTokens_placeholder (expanded literal : Text) {index : Fin 9}
    {argument : Text} (hargument : arguments[index.val]? = some argument)
    (tokens : List BodyToken) :
    (expandTokens limit arguments expanded literal (.placeholder index :: tokens)).mapError
        Fault.report =
      if (glue (glue expanded literal) argument).length ≤ limit then
        (expandTokens limit arguments (glue (glue expanded literal) argument) [] tokens).mapError
          Fault.report
      else .error .macroBufferOverflow := by
  have hgrows := length_le_length_glue (glue expanded literal) argument
  rw [expandTokens, hargument]
  by_cases hfits : (glue expanded literal).length ≤ limit
  · by_cases hargumentFits : (glue (glue expanded literal) argument).length ≤ limit
    · rw [if_pos hargumentFits]
      simp only [join_of_le hfits, join_of_le hargumentFits, bind, Except.bind]
    · rw [if_neg hargumentFits]
      simp only [join_of_le hfits, join_of_lt (not_le.mp hargumentFits), bind, Except.bind]
      rfl
  · have hargumentLong : ¬ ((glue (glue expanded literal) argument).length : Int) ≤ limit := by
      omega
    rw [if_neg hargumentLong]
    simp only [join_of_lt (not_le.mp hfits), bind, Except.bind]
    rfl

/-! ## Outcomes -/

/-- Without an offending token only the final length matters.  Every test on the way is
implied by the last one. -/
theorem report_expandTokens (limit : Int) (expanded literal : Text) {tokens : List BodyToken}
    (hsound : ∀ token ∈ tokens, ¬ token.IsOffending arguments) :
    (expandTokens limit arguments expanded literal tokens).mapError Fault.report =
      limited limit (expansionFrom arguments expanded literal tokens) := by
  induction tokens generalizing expanded literal with
  | nil => exact report_join limit expanded literal
  | cons token tokens ih =>
      have htoken := hsound token (List.mem_cons_self ..)
      have htokens := fun other hother => hsound other (List.mem_cons_of_mem token hother)
      rcases BodyToken.literal_or_argument htoken with
        hplaceholder | ⟨index, argument, rfl, hargument⟩
      · rw [expandTokens_literal expanded literal hplaceholder htoken,
          expansionFrom_literal expanded literal hplaceholder, ih _ _ htokens]
      rw [report_expandTokens_placeholder expanded literal hargument,
        expansionFrom_placeholder expanded literal hargument, ih _ _ htokens]
      split
      · rfl
      · next hlong =>
          rw [limited_of_lt]
          exact (not_le.mp hlong).trans_le
            (Nat.cast_le.mpr (length_le_length_expansionFrom _ _ _))

/-- At an offending token only what the placeholders before it have joined is tested.  If
that is too long, the overflow is reported and the token is not reached. -/
theorem report_expandTokens_offence (limit : Int) (expanded literal : Text)
    {before : List BodyToken} {token : BodyToken} (after : List BodyToken)
    (hsound : ∀ earlier ∈ before, ¬ earlier.IsOffending arguments)
    (hoffence : token.IsOffending arguments) :
    (expandTokens limit arguments expanded literal (before ++ token :: after)).mapError
        Fault.report =
      .error (if throughLastPlaceholder before ≠ [] ∧
            limit < (expansionFrom arguments expanded literal
              (throughLastPlaceholder before)).length then
          .macroBufferOverflow
        else .illegalMacroParameter token.spelling) := by
  induction before generalizing expanded literal with
  | nil =>
      rw [List.nil_append, expandTokens_offence expanded literal hoffence]
      rfl
  | cons earlier before ih =>
      have hearlier := hsound earlier (List.mem_cons_self ..)
      have hbefore := fun other hother => hsound other (List.mem_cons_of_mem earlier hother)
      rw [List.cons_append]
      rcases BodyToken.literal_or_argument hearlier with
        hplaceholder | ⟨index, argument, rfl, hargument⟩
      · rw [expandTokens_literal expanded literal hplaceholder hearlier, ih _ _ hbefore,
          throughLastPlaceholder_literal hplaceholder]
        by_cases hreached : throughLastPlaceholder before = []
        · simp [hreached]
        · simp [hreached, expansionFrom_literal expanded literal hplaceholder]
      rw [report_expandTokens_placeholder expanded literal hargument,
        throughLastPlaceholder_placeholder, expansionFrom_placeholder expanded literal hargument,
        ih _ _ hbefore]
      have hgrows : (glue (glue expanded literal) argument).length ≤
          (expansionFrom arguments (glue (glue expanded literal) argument) []
            (throughLastPlaceholder before)).length :=
        length_le_length_expansionFrom _ _ _
      by_cases hfits : (glue (glue expanded literal) argument).length ≤ limit
      · rw [if_pos hfits]
        by_cases hreached : throughLastPlaceholder before = []
        · have hshort : ¬ limit < (glue (glue expanded literal) argument).length :=
            not_lt.mpr hfits
          simp [hreached, expansionFrom_nil, glue_nil, hshort]
        · simp [hreached]
      · have hlong : limit < (expansionFrom arguments (glue (glue expanded literal) argument) []
            (throughLastPlaceholder before)).length :=
          (not_le.mp hfits).trans_le (Nat.cast_le.mpr hgrows)
        simp [hfits, hlong]

/-- An expansion that succeeds meets no offending token and is the one without a limit.  So
the limit never changes a result, it only refuses it. -/
theorem expansion_of_expand_eq_ok {body result : Text}
    (hexpand : expand limit arguments body = .ok result) :
    (∀ token ∈ readBody body, ¬ token.IsOffending arguments) ∧
      result = expansion arguments (readBody body) := by
  have hsound : ∀ token ∈ readBody body, ¬ token.IsOffending arguments := by
    cases hfirst : (readBody body).find? fun token => token.IsOffending arguments with
    | none => simpa using hfirst
    | some token =>
        rw [List.find?_eq_some_iff_append] at hfirst
        obtain ⟨hoffence, before, after, hread, hbefore⟩ := hfirst
        have hsound : ∀ earlier ∈ before, ¬ earlier.IsOffending arguments := by
          intro earlier hearlier
          simpa using hbefore earlier hearlier
        have hreport := report_expandTokens_offence limit [] [] after hsound
          (of_decide_eq_true hoffence)
        rw [← hread, ← expand, hexpand] at hreport
        exact absurd hreport (by simp [Except.mapError])
  refine ⟨hsound, ?_⟩
  have hreport := report_expandTokens limit [] [] hsound
  rw [← expand, hexpand] at hreport
  by_cases hfits : (expansionFrom arguments [] [] (readBody body)).length ≤ limit
  · rw [limited_of_le hfits] at hreport
    exact Except.ok.inj hreport
  · rw [limited_of_lt (not_le.mp hfits)] at hreport
    exact absurd hreport (by simp [Except.mapError])

/-- The outcome of an expansion for every limit, a negative one included.

A body has one reading.  If every token of it can be expanded, the final length decides;
otherwise the first token that cannot is reported, unless the expansion up to the last
placeholder before it is too long. -/
theorem expand_outcome (limit : Int) (arguments : List Text) (body : Text) :
    ∃ tokens, ReadsBody body tokens ∧ (∀ other, ReadsBody body other → other = tokens) ∧
      ((∀ token ∈ tokens, ¬ token.IsOffending arguments) →
        (expand limit arguments body).mapError Fault.report =
          limited limit (expansion arguments tokens)) ∧
      ∀ before token after, tokens = before ++ token :: after →
        (∀ earlier ∈ before, ¬ earlier.IsOffending arguments) → token.IsOffending arguments →
        (expand limit arguments body).mapError Fault.report =
          .error (if throughLastPlaceholder before ≠ [] ∧
                limit < (expansion arguments (throughLastPlaceholder before)).length then
              .macroBufferOverflow
            else .illegalMacroParameter token.spelling) := by
  refine ⟨readBody body, readsBody_readBody body, fun other => readsBody_iff.mp, ?_, ?_⟩
  · intro hsound
    exact report_expandTokens limit [] [] hsound
  · intro before token after hread hsound hoffence
    rw [expand, hread]
    exact report_expandTokens_offence limit [] [] after hsound hoffence

end TextMode.Expansion
