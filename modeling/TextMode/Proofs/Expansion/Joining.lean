import Mathlib
import TextMode.Proofs.Expansion.Preservation

/-!
# The order of joining

Pieces of an expansion may be joined in any order, as long as they stay in their places.
Whether a space is needed between two pieces shows in the end of the left one and in the
start of the right one.  Joining keeps both, except that an empty piece has neither and that
backslashes of odd number take the start of what follows.  No joint is longer than the
whole, so the limit rejects the whole or nothing.
-/

namespace TextMode.Expansion

/-! ## Gluing -/

theorem length_right_le_length_glue (left right : Text) :
    right.length ≤ (glue left right).length := by
  rw [glue, List.length_append]
  exact Nat.le_add_left _ _

/-- A piece that is not empty decides alone how a joint ends.  The space in front of it
keeps a control word on the left from taking in its letters. -/
theorem endsInControlWord_glue {left right : Text} (heven : endsInOddBackslashes left = false)
    (hne : right ≠ []) : endsInControlWord (glue left right) = endsInControlWord right :=
  (apart_separated heven right).endsInControlWord_append hne

theorem head?_glue {left : Text} (hne : left ≠ []) (right : Text) :
    (glue left right).head? = left.head? := by
  rw [glue, separated]
  cases left with
  | nil => exact absurd rfl hne
  | cons c left => split <;> rfl

/-- The space at a joint depends on the left piece by its end only. -/
theorem separated_congr_left {left left' right : Text}
    (hword : endsInControlWord left = endsInControlWord left') :
    ∃ space, separated left right = left ++ space ∧ separated left' right = left' ++ space := by
  rw [separated, separated, hword]
  split
  · exact ⟨[' '], rfl, rfl⟩
  · exact ⟨[], (List.append_nil _).symm, (List.append_nil _).symm⟩

/-- The space at a joint depends on the right piece by its first character only. -/
theorem separated_congr_right (left : Text) {right right' : Text}
    (hhead : right.head? = right'.head?) : separated left right = separated left right' := by
  rw [separated, separated, hhead]

/-- Three pieces are glued from either side with the same result.  If the middle one is
empty, the space is put in later and not twice. -/
theorem glue_assoc {left : Text} (heven : endsInOddBackslashes left = false)
    (middle right : Text) : glue (glue left middle) right = glue left (glue middle right) := by
  by_cases hne : middle = []
  · rw [hne, glue_nil, glue_nil_left]
  · obtain ⟨space, hjoint, hmiddle⟩ :=
      @separated_congr_left _ _ right (endsInControlWord_glue heven hne)
    calc
      glue (glue left middle) right = glue left middle ++ space ++ right := by
        rw [glue, hjoint]
      _ = separated left middle ++ (middle ++ space ++ right) := by
        rw [glue]
        simp only [List.append_assoc]
      _ = separated left (glue middle right) ++ (middle ++ space ++ right) := by
        rw [separated_congr_right left (head?_glue hne right)]
      _ = glue left (glue middle right) := by
        rw [glue, glue, hmiddle]

/-- What is glued from the left can be glued to what stands before it as a whole. -/
theorem foldl_glue {left : Text} (heven : endsInOddBackslashes left = false) {pieces : List Text}
    (hpieces : ∀ piece ∈ pieces.dropLast, endsInOddBackslashes piece = false) :
    pieces.foldl glue left = glue left (pieces.foldl glue []) := by
  induction pieces generalizing left with
  | nil => rw [List.foldl_nil, List.foldl_nil, glue_nil]
  | cons piece pieces ih =>
      rw [List.foldl_cons, List.foldl_cons, glue_nil_left]
      cases pieces with
      | nil => rfl
      | cons next pieces =>
          obtain ⟨hpiece, hrest⟩ := List.forall_mem_cons.mp hpieces
          rw [ih (endsInOddBackslashes_glue heven hpiece) hrest, ih hpiece hrest,
            glue_assoc heven]

/-! ## Orders of joining -/

/-- An order in which pieces are joined, each with what stands next to it. -/
inductive Joining where
  | piece (text : Text)
  | joined (left right : Joining)

namespace Joining

/-- The pieces in their places. -/
def pieces : Joining → List Text
  | piece text => [text]
  | joined left right => left.pieces ++ right.pieces

/-- Joins under a limit, the left side before the right one. -/
def outcome (limit : Int) : Joining → Except Fault Text
  | piece text => .ok text
  | joined left right => do
      let leftText ← left.outcome limit
      let rightText ← right.outcome limit
      join limit leftText rightText

def glued : Joining → Text
  | piece text => text
  | joined left right => glue left.glued right.glued

theorem pieces_ne_nil (joining : Joining) : joining.pieces ≠ [] := by
  induction joining with
  | piece text => exact List.cons_ne_nil text []
  | joined left right ihleft _ => exact List.append_ne_nil_of_left_ne_nil ihleft _

/-- What is joined has two pieces at least, so a single piece is joined with nothing. -/
theorem pieces_joined_ne_singleton (left right : Joining) (text : Text) :
    (joined left right).pieces ≠ [text] := by
  intro hpieces
  have hleft := List.length_pos_iff.mpr left.pieces_ne_nil
  have hright := List.length_pos_iff.mpr right.pieces_ne_nil
  have hlength := congrArg List.length hpieces
  rw [pieces, List.length_append, List.length_singleton] at hlength
  omega

/-- No result of gluing ends in an odd run of backslashes if no piece does. -/
theorem endsInOddBackslashes_glued (joining : Joining)
    (hpieces : ∀ piece ∈ joining.pieces, endsInOddBackslashes piece = false) :
    endsInOddBackslashes joining.glued = false := by
  induction joining with
  | piece text => exact hpieces text (List.mem_singleton_self text)
  | joined left right ihleft ihright =>
      obtain ⟨hleft, hright⟩ := List.forall_mem_append.mp hpieces
      exact endsInOddBackslashes_glue (ihleft hleft) (ihright hright)

/-- Without a limit the pieces are glued as if from the left.  So the result depends on the
pieces and their order, but not on the order of joining. -/
theorem glued_eq_foldl (joining : Joining)
    (hpieces : ∀ piece ∈ joining.pieces.dropLast, endsInOddBackslashes piece = false) :
    joining.glued = joining.pieces.foldl glue [] := by
  induction joining with
  | piece text => exact (glue_nil_left text).symm
  | joined left right ihleft ihright =>
      rw [pieces, List.dropLast_append_of_ne_nil right.pieces_ne_nil] at hpieces
      obtain ⟨hleft, hright⟩ := List.forall_mem_append.mp hpieces
      have hleft' := fun piece hpiece => hleft piece (List.mem_of_mem_dropLast hpiece)
      calc
        (joined left right).glued = glue left.glued (right.pieces.foldl glue []) := by
          rw [glued, ihright hright]
        _ = right.pieces.foldl glue left.glued :=
          (foldl_glue (left.endsInOddBackslashes_glued hleft) hright).symm
        _ = (joined left right).pieces.foldl glue [] := by
          rw [ihleft hleft', pieces, List.foldl_append]

/-- The pieces are joined unless some joint overflows, and then the whole is too long. -/
def Settled (limit : Int) (joining : Joining) : Prop :=
  joining.outcome limit = .ok joining.glued ∨
    limit < joining.glued.length ∧
      ∃ left right, joining.outcome limit = .error (.overflow limit left right)

/-- Two parts that are settled make a whole that is.  If a part is too long so is the whole,
because gluing never shortens. -/
theorem outcome_joined {limit : Int} {left right : Joining} (hleft : left.Settled limit)
    (hright : right.Settled limit) :
    (joined left right).glued.length ≤ limit ∧
        (joined left right).outcome limit = .ok (joined left right).glued ∨
      limit < (joined left right).glued.length ∧
        ∃ before after,
          (joined left right).outcome limit = .error (.overflow limit before after) := by
  have hgrowsLeft := length_le_length_glue left.glued right.glued
  have hgrowsRight := length_right_le_length_glue left.glued right.glued
  rw [outcome, glued]
  rcases hleft with hleft | ⟨hlong, before, after, hleft⟩
  · rcases hright with hright | ⟨hlong, before, after, hright⟩
    · rw [hleft, hright]
      by_cases hfits : (glue left.glued right.glued).length ≤ limit
      · exact .inl ⟨hfits, join_of_le hfits⟩
      · exact .inr ⟨not_le.mp hfits, _, _, join_of_lt (not_le.mp hfits)⟩
    · rw [hleft, hright]
      exact .inr ⟨by omega, before, after, rfl⟩
  · rw [hleft]
    exact .inr ⟨by omega, before, after, rfl⟩

/-- Every way of joining is settled, by induction on it: it gives the glued text, or it
overflows exactly if that is too long. -/
theorem settled (limit : Int) (joining : Joining) : joining.Settled limit := by
  induction joining with
  | piece text => exact .inl rfl
  | joined left right ihleft ihright =>
      rcases outcome_joined ihleft ihright with ⟨-, hfits⟩ | hlong
      · exact .inl hfits
      · exact .inr hlong

/-- Only the length of the whole decides.  Where the overflow was met is not reported. -/
theorem report_outcome_joined (limit : Int) (left right : Joining) :
    ((joined left right).outcome limit).mapError Fault.report =
      limited limit (joined left right).glued := by
  rcases outcome_joined (left.settled limit) (right.settled limit) with
    ⟨hfits, hjoined⟩ | ⟨hlong, before, after, hjoined⟩
  · rw [hjoined, limited_of_le hfits]
    rfl
  · rw [hjoined, limited_of_lt hlong]
    rfl

/-- Two ways of joining the same pieces come to the same end.  A single piece is not joined
and so is not tested. -/
theorem outcome_eq_of_pieces_eq (limit : Int) {first second : Joining}
    (hpieces : first.pieces = second.pieces)
    (heven : ∀ piece ∈ first.pieces.dropLast, endsInOddBackslashes piece = false) :
    (first.outcome limit).mapError Fault.report =
      (second.outcome limit).mapError Fault.report := by
  have hglued : first.glued = second.glued := by
    rw [first.glued_eq_foldl heven, hpieces, second.glued_eq_foldl (hpieces ▸ heven)]
  cases first with
  | piece text =>
      cases second with
      | piece other => rw [show text = other from hglued]
      | joined left right => exact absurd hpieces.symm (pieces_joined_ne_singleton left right text)
  | joined left right =>
      cases second with
      | piece other => exact absurd hpieces (pieces_joined_ne_singleton left right other)
      | joined left' right' => rw [report_outcome_joined, report_outcome_joined, hglued]

end Joining

open Joining in
/-- The order in which pieces are joined does not matter, overflows included.

Three pieces of which the first does not end in backslashes of odd number may be joined from
either side, and the empty piece changes nothing but still meets the limit.  Hence all orders
of joining the same pieces come to the same end, whatever their number. -/
theorem joined_in_any_order (limit : Int) :
    (∀ left middle right : Text, endsInOddBackslashes left = false →
      (do let joint ← join limit left middle
          join limit joint right).mapError Fault.report =
          limited limit (glue (glue left middle) right) ∧
        (do let joint ← join limit middle right
            join limit left joint).mapError Fault.report =
          limited limit (glue (glue left middle) right)) ∧
    (∀ text : Text, (join limit text []).mapError Fault.report = limited limit text ∧
      (join limit [] text).mapError Fault.report = limited limit text) ∧
    ∀ first second : Joining, first.pieces = second.pieces →
      (∀ piece ∈ first.pieces.dropLast, endsInOddBackslashes piece = false) →
      (first.outcome limit).mapError Fault.report =
        (second.outcome limit).mapError Fault.report := by
  refine ⟨?_, ?_, ?_⟩
  · intro left middle right heven
    constructor
    · exact report_outcome_joined limit (joined (piece left) (piece middle)) (piece right)
    · rw [glue_assoc heven]
      exact report_outcome_joined limit (piece left) (joined (piece middle) (piece right))
  · intro text
    rw [report_join, report_join, glue_nil, glue_nil_left]
    exact ⟨rfl, rfl⟩
  · intro first second hpieces heven
    exact outcome_eq_of_pieces_eq limit hpieces heven

/-- A control word before an empty piece and a letter, whose space makes them too long.  One
character more and they fit from either side. -/
theorem joined_in_any_order_emptyMiddle :
    endsInOddBackslashes "\\\\\\a".toList = false ∧
      (do let joint ← join 5 "\\\\\\a".toList []
          join 5 joint ['x']).mapError Fault.report = .error .macroBufferOverflow ∧
      (do let joint ← join 5 [] ['x']
          join 5 "\\\\\\a".toList joint).mapError Fault.report = .error .macroBufferOverflow ∧
      (do let joint ← join 6 [] ['x']
          join 6 "\\\\\\a".toList joint).mapError Fault.report = .ok "\\\\\\a x".toList := by
  have heven : endsInOddBackslashes "\\\\\\a".toList = false := by decide
  have hshort := (joined_in_any_order 5).1 "\\\\\\a".toList [] ['x'] heven
  have hlong := (joined_in_any_order 6).1 "\\\\\\a".toList [] ['x'] heven
  exact ⟨heven, hshort.1, hshort.2, hlong.2⟩

end TextMode.Expansion
