import Mathlib
import TextMode.Expansion.Body
import TextMode.Proofs.Text.Runs

/-!
# Readings of a body

The tokens of a body spell the body, and each of them could be no other one where it
stands.  This leaves one reading of every body.  Between its placeholders a reading
has chunks of literal text.
-/

namespace TextMode.Expansion

namespace BodyToken

def isPlaceholder : BodyToken → Bool
  | placeholder _ => true
  | _ => false

/-- Whether a token may stand before the rest of a body.  A backslash or a hash that
takes no character ends the body. -/
def CanPrecede : BodyToken → Text → Prop
  | strayBackslash, rest | malformedHash none, rest => rest = []
  | malformedHash (some c), _ => c ∉ "#123456789".toList
  | character c, _ => c ≠ '\\' ∧ c ≠ '#'
  | escape _, _ | doubledHash, _ | placeholder _, _ => True

end BodyToken

inductive ReadsBody : Text → List BodyToken → Prop where
  | nil : ReadsBody [] []
  | cons (token : BodyToken) {rest : Text} {tokens : List BodyToken} :
      token.CanPrecede rest → ReadsBody rest tokens →
      ReadsBody (token.spelling ++ rest) (token :: tokens)

namespace BodyToken

theorem spelling_placeholder : ∀ index : Fin 9,
    (placeholder index).spelling = ['#', Char.ofNat (index.val + 49)] := by
  decide

/-- A hash and one of the digits from one to nine are the placeholder of that number. -/
theorem ofHash_digit : ∀ index : Fin 9,
    ofHash (Char.ofNat (index.val + 49)) = placeholder index := by
  decide

/-- Only the ASCII digits from one to nine number a placeholder.  A zero does not, and
neither do the digits of other scripts. -/
theorem eq_digit_of_placeholderIndex? {c : Char} {index : Fin 9}
    (hindex : placeholderIndex? c = some index) : c = Char.ofNat (index.val + 49) := by
  rw [placeholderIndex?] at hindex
  split at hindex
  · next hc =>
      have hlow : 49 ≤ c.toNat := hc.1
      obtain rfl := Option.some.inj hindex
      change c = Char.ofNat (c.toNat - 49 + 49)
      rw [Nat.sub_add_cancel hlow, Char.ofNat_toNat]
  · exact absurd hindex (by simp)

/-- A hash takes the character behind it, whatever that is. -/
theorem spelling_ofHash (c : Char) : (ofHash c).spelling = ['#', c] := by
  rw [ofHash]
  split
  · next hc => rw [hc, spelling]
  · cases hindex : placeholderIndex? c with
    | none => rfl
    | some index => rw [spelling_placeholder, eq_digit_of_placeholderIndex? hindex]

theorem placeholderIndex?_of_digit : ∀ c ∈ "123456789".toList,
    (placeholderIndex? c).isSome := by
  rw [← List.all_eq_true]
  decide

theorem canPrecede_ofHash (c : Char) (rest : Text) : (ofHash c).CanPrecede rest := by
  rw [ofHash]
  split
  · trivial
  · next hc =>
      cases hindex : placeholderIndex? c with
      | some index => trivial
      | none =>
          intro hmem
          rcases List.mem_cons.mp hmem with rfl | hdigit
          · exact hc rfl
          · have hsome := placeholderIndex?_of_digit c hdigit
            rw [hindex] at hsome
            exact Bool.false_ne_true hsome

/-- A hash in front of anything but a hash or one of the nine digits is malformed, and keeps
the character for the report. -/
theorem ofHash_of_not_mem {c : Char} (hc : c ∉ "#123456789".toList) :
    ofHash c = malformedHash (some c) := by
  have hhash : c ≠ '#' := fun heq => hc (by simp [heq])
  cases hindex : placeholderIndex? c with
  | none => simp [ofHash, hhash, hindex]
  | some index =>
      have hdigits : ∀ index : Fin 9, Char.ofNat (index.val + 49) ∈ "#123456789".toList := by
        decide
      rw [eq_digit_of_placeholderIndex? hindex] at hc
      exact absurd (hdigits index) hc

end BodyToken

/-- The reader finds a reading of every body.  There is one rule for each beginning that a
body may have. -/
theorem readsBody_readBody (body : Text) : ReadsBody body (readBody body) := by
  fun_induction readBody body with
  | case1 => exact .nil
  | case2 => exact .cons .strayBackslash rfl .nil
  | case3 c rest ih => exact .cons (.escape c) trivial ih
  | case4 => exact .cons (.malformedHash none) rfl .nil
  | case5 c rest ih =>
      have hreads := ReadsBody.cons (.ofHash c) (BodyToken.canPrecede_ofHash c rest) ih
      rwa [BodyToken.spelling_ofHash] at hreads
  | case6 c rest hstray hescape hlast hhash ih =>
      have hbackslash := ne_of_neither_last_nor_followed hstray hescape
      have hsign := ne_of_neither_last_nor_followed hlast hhash
      exact .cons (.character c) ⟨hbackslash, hsign⟩ ih

/-- A hash is read with the character behind it, whether the two mean something or not. -/
theorem readBody_hash (c : Char) (rest : Text) :
    readBody ('#' :: c :: rest) = BodyToken.ofHash c :: readBody rest := by
  simp [readBody]

/-- A token is read off the front of a body, provided that what follows cannot be taken for
a part of it. -/
theorem readBody_cons {token : BodyToken} {rest : Text} (hbefore : token.CanPrecede rest) :
    readBody (token.spelling ++ rest) = token :: readBody rest := by
  cases token with
  | escape c => simp [BodyToken.spelling, readBody]
  | strayBackslash =>
      obtain rfl : rest = [] := hbefore
      rfl
  | doubledHash => exact readBody_hash '#' rest
  | placeholder index =>
      rw [BodyToken.spelling_placeholder, List.cons_append, List.cons_append, readBody_hash,
        BodyToken.ofHash_digit]
      rfl
  | malformedHash next =>
      cases next with
      | none =>
          obtain rfl : rest = [] := hbefore
          rfl
      | some c => exact (readBody_hash c rest).trans (by rw [BodyToken.ofHash_of_not_mem hbefore])
  | character c =>
      have hescape : c ≠ '\\' := hbefore.1
      have hhash : c ≠ '#' := hbefore.2
      rw [BodyToken.spelling, List.cons_append, List.nil_append, readBody] <;> simp_all

/-- A body has one reading, and it is the one that the reader finds. -/
theorem readsBody_iff {body : Text} {tokens : List BodyToken} :
    ReadsBody body tokens ↔ tokens = readBody body := by
  constructor
  · intro hreads
    induction hreads with
    | nil => rfl
    | cons token hbefore _ ih => rw [readBody_cons hbefore, ih]
  · intro htokens
    rw [htokens]
    exact readsBody_readBody body

/-! ## Chunks -/

/-- What lies between placeholders, and the placeholders themselves. -/
inductive Chunk where
  | literal (text : Text)
  | argument (index : Fin 9)
  deriving DecidableEq, Repr

namespace Chunk

/-- The text of a chunk.  A missing argument is empty. -/
def text (arguments : List Text) : Chunk → Text
  | literal text => text
  | argument index => arguments.getD index.val []

theorem text_argument {arguments : List Text} {index : Fin 9} {argument : Text}
    (hargument : arguments[index.val]? = some argument) :
    (Chunk.argument index).text arguments = argument := by
  rw [text, List.getD_eq_getElem?_getD, hargument, Option.getD_some]

end Chunk

namespace BodyToken

/-- A doubled hash is read as a single one. -/
def literalText : BodyToken → Text
  | doubledHash => ['#']
  | token => token.spelling

/-- Whether no argument and no text can be given for a token. -/
def IsOffending (arguments : List Text) : BodyToken → Prop
  | malformedHash _ => True
  | placeholder index => arguments.length ≤ index.val
  | escape _ | strayBackslash | doubledHash | character _ => False

instance (arguments : List Text) : DecidablePred (IsOffending arguments)
  | malformedHash _ => isTrue trivial
  | placeholder index => inferInstanceAs (Decidable (arguments.length ≤ index.val))
  | escape _ | strayBackslash | doubledHash | character _ => isFalse id

/-- A token that can be expanded is literal, or its argument is there.  There is no third
kind. -/
theorem literal_or_argument {arguments : List Text} {token : BodyToken}
    (hsound : ¬ token.IsOffending arguments) :
    token.isPlaceholder = false ∨
      ∃ index argument, token = placeholder index ∧ arguments[index.val]? = some argument := by
  cases token with
  | placeholder index =>
      have hlt : index.val < arguments.length := not_le.mp hsound
      exact .inr ⟨index, _, rfl, List.getElem?_eq_getElem hlt⟩
  | _ => exact .inl rfl

end BodyToken

/-- The chunks of a body that has `literal` before it. -/
def chunks (literal : Text) : List BodyToken → List Chunk
  | [] => [.literal literal]
  | .placeholder index :: tokens => .literal literal :: .argument index :: chunks [] tokens
  | token :: tokens => chunks (literal ++ token.literalText) tokens

/-- Tokens that are no placeholders are gathered into one chunk of literal text. -/
theorem chunks_of_not_placeholder {token : BodyToken} (htoken : token.isPlaceholder = false)
    (literal : Text) (tokens : List BodyToken) :
    chunks literal (token :: tokens) = chunks (literal ++ token.literalText) tokens := by
  cases token with
  | placeholder index => exact absurd htoken (by simp [BodyToken.isPlaceholder])
  | _ => rfl

end TextMode.Expansion
