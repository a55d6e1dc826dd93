import Mathlib
import TextMode.Proofs.Content.Composition

/-!
# States of the splitter

The states that the machine comes to on a text are those of its steps from the initial one.
Each step is one of a few moves, and what these keep holds in every state: the positions are
in order, only islands have open braces, and the pieces are neat.  On a text without dollars
and backslashes nothing but the position moves, so the shortcut for such texts is safe.
-/

namespace TextMode

/-! ## Pieces in order -/

def Piece.IsPlain (piece : Piece) : Prop :=
  ∃ content, piece = .plain content

/-- No plain piece is empty, and no two plain pieces are adjacent. -/
structure Neat (pieces : List Piece) : Prop where
  nonempty : .plain [] ∉ pieces
  apart : pieces.IsChain fun left right => ¬ (left.IsPlain ∧ right.IsPlain)

theorem not_isPlain_island {kind : IslandKind} {source : Text} :
    ¬ (Piece.island kind source).IsPlain := by
  rintro ⟨content, heq⟩
  cases heq

/-- A piece may be added behind others if it is not empty and the last one is not plain as
well. -/
theorem Neat.concat {pieces : List Piece} {piece : Piece} (hneat : Neat pieces)
    (hnonempty : piece ≠ .plain [])
    (hapart : ∀ last ∈ pieces.getLast?, ¬ (last.IsPlain ∧ piece.IsPlain)) :
    Neat (pieces ++ [piece]) where
  nonempty := by simp [hneat.nonempty, hnonempty.symm]
  apart := hneat.apart.append (List.isChain_singleton piece) (by simpa using hapart)

/-- Plain text may be added behind an island, whatever it is.  If it is empty, nothing is
added. -/
theorem Neat.concat_plainPiece {pieces : List Piece} (hneat : Neat pieces)
    (hapart : ∀ last ∈ pieces.getLast?, ¬ last.IsPlain) (content : Text) :
    Neat (pieces ++ plainPiece content) := by
  cases content with
  | nil => simpa [plainPiece] using hneat
  | cons c content =>
      exact hneat.concat (by simp) fun last hlast hplain => hapart last hlast hplain.1

theorem add_length_le_of_drop (unit : Text) {text rest : Text} {start : Nat} (hunit : unit ≠ [])
    (hdrop : text.drop start = unit ++ rest) : start + unit.length ≤ text.length := by
  have hlength := congrArg List.length hdrop
  have hpos := List.length_pos_iff.mpr hunit
  simp only [List.length_drop, List.length_append] at hlength
  omega

theorem IslandKind.Opens.ne_nil {kind : IslandKind} {opening : Text}
    (hopens : kind.Opens opening) : opening ≠ [] :=
  List.ne_nil_of_length_pos hopens.length_pos

theorem IslandKind.delimiter_ne_nil (kind : IslandKind) : kind.delimiter ≠ [] := by
  cases kind <;> exact List.cons_ne_nil _ _

/-! ## Moves -/

namespace Splitter

/-- A state that the machine comes to on a text. -/
inductive Reachable (text : Text) : Splitter → Prop where
  | start : Reachable text {}
  | step {state : Splitter} {c : Char} {rest : Text} :
      Reachable text state → text.drop state.position = c :: rest →
      Reachable text (state.step text c rest)

/-- The run ends in a state that can be reached, and in one at the end of the text.  Every
step is a step forward, which is what the induction is on. -/
theorem reachable_run {text : Text} {state : Splitter} (hreachable : Reachable text state) :
    Reachable text (run text state) ∧ text.drop (run text state).position = [] := by
  fun_induction run text state with
  | case1 state hdrop => exact ⟨hreachable, hdrop⟩
  | case2 state c rest hdrop ih => exact ih (.step hreachable hdrop)

/-- What one step does, with the end of the slice of the text that it takes, if it takes
one.  The slice starts where the piece being read does. -/
inductive Move (text : Text) (state : Splitter) : Option Nat → Splitter → Prop where
  | opening {kind : IslandKind} {opening body : Text} :
      state.mode = none → kind.Opens opening → text.drop state.position = opening ++ body →
      Move text state (some state.position) (state.opened text kind opening)
  | literalEscape {c : Char} {rest : Text} :
      state.mode = none → opening? ('\\' :: c :: rest) = none → isTrigger c →
      text.drop state.position = '\\' :: c :: rest →
      Move text state (some state.position) (state.dropBackslash text)
  | keptEscape {c : Char} {rest : Text} :
      state.mode = none → opening? ('\\' :: c :: rest) = none → ¬ isTrigger c →
      text.drop state.position = '\\' :: c :: rest → Move text state none (state.skip 2)
  | character {c : Char} {rest : Text} :
      state.mode = none → c ≠ '$' → c ≠ '\\' → text.drop state.position = c :: rest →
      Move text state none (state.skip 1)
  | strayBackslash :
      text.drop state.position = ['\\'] → Move text state none (state.skip 2)
  | inside {kind : IslandKind} (unit : Text) {rest : Text} {depth : Nat} :
      state.mode = some kind → unit ≠ [] →
      (∀ source, Inside kind depth source → Inside kind state.depth (unit ++ source)) →
      state.depth ≤ depth + 1 → depth ≤ state.depth + 1 →
      text.drop state.position = unit ++ rest →
      Move text state none { state.skip unit.length with depth := depth }
  | closing {kind : IslandKind} {rest : Text} :
      state.mode = some kind → state.depth = 0 →
      text.drop state.position = kind.delimiter ++ rest →
      Move text state
        (some (if kind = .reference then state.position + 1 else state.position))
        (state.closed text kind [])

variable {text rest : Text} {state next : Splitter} {c : Char} {kind : IslandKind}
  {taken : Option Nat}

/-- In plain text a step passes a character, drops or keeps a backslash, or opens an
island. -/
theorem exists_move_plain (hmode : state.mode = none)
    (hdrop : text.drop state.position = c :: rest) :
    ∃ taken, Move text state taken (state.step text c rest) := by
  cases hopening : opening? (c :: rest) with
  | some found =>
      obtain ⟨kind, opening, body⟩ := found
      obtain ⟨hopens, htext⟩ := opening?_eq_some_iff.mp hopening
      rw [step_of_opening? hmode hopening]
      exact ⟨_, .opening hmode hopens (hdrop.trans htext)⟩
  | none =>
      by_cases hescape : c = '\\'
      · subst hescape
        cases rest with
        | nil =>
            rw [step_strayBackslash]
            exact ⟨_, .strayBackslash hdrop⟩
        | cons d rest =>
            rw [step_of_opening?_eq_none hmode hopening]
            split
            · next htrigger => exact ⟨_, .literalEscape hmode hopening htrigger hdrop⟩
            · next htrigger => exact ⟨_, .keptEscape hmode hopening htrigger hdrop⟩
      · have hdollar : c ≠ '$' := by
          rintro rfl
          simp [opening?] at hopening
        rw [step_character hmode hdollar hescape]
        exact ⟨_, .character hmode hdollar hescape hdrop⟩

theorem exists_move_delimiter (hmode : state.mode = some kind) (hdepth : state.depth = 0)
    (hdrop : text.drop state.position = c :: rest) (after : Text)
    (hdelimiter : c :: rest = kind.delimiter ++ after) :
    ∃ taken, Move text state taken (state.step text c rest) := by
  rw [step_delimiter hmode hdepth hdelimiter]
  exact ⟨_, .closing hmode hdepth (hdrop.trans hdelimiter)⟩

/-- Inside an island a step passes a character or an escape, counts a brace, or comes to the
delimiter. -/
theorem exists_move_island (hmode : state.mode = some kind)
    (hdrop : text.drop state.position = c :: rest) :
    ∃ taken, Move text state taken (state.step text c rest) := by
  by_cases hescape : c = '\\'
  · subst hescape
    cases rest with
    | nil =>
        rw [step_strayBackslash]
        exact ⟨_, .strayBackslash hdrop⟩
    | cons d rest =>
        by_cases hclose : state.depth = 0 ∧ kind = .parenthesis ∧ d = ')'
        · obtain ⟨hdepth, rfl, rfl⟩ := hclose
          exact exists_move_delimiter hmode hdepth hdrop rest rfl
        · rw [step_escape hmode rfl hclose]
          exact ⟨_, .inside ['\\', d] hmode (by simp) (fun _ => .escape hclose)
            (by omega) (by omega) hdrop⟩
  by_cases hbrace : c = '{'
  · subst hbrace
    rw [step_openBrace hmode rfl]
    exact ⟨_, .inside ['{'] hmode (by simp) (fun _ => .openBrace)
      (by omega) (by omega) hdrop⟩
  by_cases hbrace' : c = '}'
  · subst hbrace'
    by_cases hclose : state.depth = 0 ∧ kind = .reference
    · obtain ⟨hdepth, rfl⟩ := hclose
      exact exists_move_delimiter hmode hdepth hdrop rest rfl
    · rw [step_closeBrace hmode rfl hclose]
      refine ⟨_, .inside ['}'] hmode (by simp) (fun source hinside => ?_)
        (by omega) (by omega) hdrop⟩
      cases hdepth : state.depth with
      | zero =>
          rw [hdepth] at hinside
          exact .looseBrace (fun hkind => hclose ⟨hdepth, hkind⟩) hinside
      | succ depth =>
          rw [hdepth] at hinside
          exact .closeBrace hinside
  by_cases hclose : state.depth = 0 ∧ kind = .dollar ∧ c = '$'
  · obtain ⟨hdepth, rfl, rfl⟩ := hclose
    exact exists_move_delimiter hmode hdepth hdrop rest rfl
  · rw [step_inside hmode rfl hescape hbrace hbrace' hclose]
    exact ⟨_, .inside [c] hmode (by simp)
      (fun _ => .char hbrace hbrace' hescape hclose) (by omega) (by omega) hdrop⟩

/-- Every step is a move.  The moves say what can happen without the conditions under which
it happens, and this is all that an invariant needs. -/
theorem exists_move (hdrop : text.drop state.position = c :: rest) :
    ∃ taken, Move text state taken (state.step text c rest) := by
  cases hmode : state.mode with
  | none => exact exists_move_plain hmode hdrop
  | some kind => exact exists_move_island hmode hdrop

/-! ## What every state keeps -/

/-- What holds of the machine between two steps. -/
structure Sound (text : Text) (state : Splitter) : Prop where
  depth : state.mode = none → state.depth = 0
  pending : state.mode ≠ none → state.pending = []
  start_le : state.start ≤ min state.position text.length
  position_le : state.position ≤ text.length + 1
  past_end : text.length < state.position → text.getLast? = some '\\'
  neat : Neat state.pieces
  apart : state.mode = none → ∀ last ∈ state.pieces.getLast?, ¬ last.IsPlain

theorem Sound.start_le_position (hsound : Sound text state) : state.start ≤ state.position :=
  hsound.start_le.trans (min_le_left _ _)

/-- A state stays sound when characters are passed within the text.  The depth may change,
but not in plain text. -/
theorem Sound.pass (hsound : Sound text state) {count depth : Nat}
    (hdepth : state.mode = none → depth = 0) (hle : state.position + count ≤ text.length) :
    Sound text { state.skip count with depth := depth } where
  depth := hdepth
  pending := hsound.pending
  start_le := hsound.start_le.trans (min_le_min_right _ (Nat.le_add_right _ _))
  position_le := Nat.le_succ_of_le hle
  past_end hpast := absurd hpast (Nat.not_lt.mpr hle)
  neat := hsound.neat
  apart := hsound.apart

/-- The state behind the end of the text is sound.  Only its position is out of the text,
and no slice ends there. -/
theorem Sound.strayBackslash (hsound : Sound text state)
    (hdrop : text.drop state.position = ['\\']) : Sound text (state.skip 2) where
  depth := hsound.depth
  pending := hsound.pending
  start_le := hsound.start_le.trans (min_le_min_right _ (Nat.le_add_right _ _))
  position_le :=
    Nat.succ_le_succ (add_length_le_of_drop ['\\'] (List.cons_ne_nil _ _) hdrop)
  past_end _ := by
    rw [← List.take_append_drop state.position text, hdrop]
    simp
  neat := hsound.neat
  apart := hsound.apart

/-- An opened island leaves neat pieces: the plain text before it stands behind an island or
at the start. -/
theorem Sound.opened (hsound : Sound text state) (hmode : state.mode = none)
    {opening body : Text} (hopens : kind.Opens opening)
    (hdrop : text.drop state.position = opening ++ body) :
    Sound text (state.opened text kind opening) := by
  have hle : state.position + opening.length ≤ text.length :=
    add_length_le_of_drop opening hopens.ne_nil hdrop
  exact {
    depth := fun hplain => absurd hplain (Option.some_ne_none kind)
    pending := fun _ => rfl
    start_le := by
      simp only [Splitter.opened, openIsland]
      split <;> omega
    position_le := Nat.le_succ_of_le hle
    past_end := fun hpast => absurd hpast (Nat.not_lt.mpr hle)
    neat := by
      simp only [Splitter.opened, openIsland, flush_position]
      exact hsound.neat.concat_plainPiece (hsound.apart hmode) _
    apart := fun hplain => absurd hplain (Option.some_ne_none kind) }

theorem Sound.dropBackslash (hsound : Sound text state) (hmode : state.mode = none)
    (hdrop : text.drop state.position = '\\' :: c :: rest) :
    Sound text (state.dropBackslash text) := by
  have hle : state.position + ['\\', c].length ≤ text.length :=
    add_length_le_of_drop ['\\', c] (List.cons_ne_nil _ _) hdrop
  exact {
    depth := hsound.depth
    pending := fun hisland => absurd hmode hisland
    start_le := le_min (Nat.le_succ _) (Nat.le_of_succ_le hle)
    position_le := Nat.le_succ_of_le hle
    past_end := fun hpast => absurd hpast (Nat.not_lt.mpr hle)
    neat := hsound.neat
    apart := hsound.apart }

/-- A closed island is added behind plain text or behind another island, and no text is
pending. -/
theorem Sound.closed (hsound : Sound text state) (hmode : state.mode = some kind)
    (hdrop : text.drop state.position = kind.delimiter ++ rest) :
    Sound text (state.closed text kind []) := by
  have hle : state.position + kind.delimiter.length ≤ text.length :=
    add_length_le_of_drop kind.delimiter kind.delimiter_ne_nil hdrop
  have hpending : state.pending = [] := hsound.pending (by simp [hmode])
  exact {
    depth := fun _ => rfl
    pending := fun _ => hpending
    start_le := le_min le_rfl hle
    position_le := Nat.le_succ_of_le hle
    past_end := fun hpast => absurd hpast (Nat.not_lt.mpr hle)
    neat := hsound.neat.concat (by simp) fun _ _ hplain => not_isPlain_island hplain.2
    apart := by
      intro _ last hlast
      obtain rfl : Piece.island kind _ = last := by
        simpa [Splitter.closed, closeIsland] using hlast
      exact not_isPlain_island }

/-- Every move keeps the state sound.  There is one case for each kind of move. -/
theorem Sound.move (hsound : Sound text state) (hmove : Move text state taken next) :
    Sound text next := by
  cases hmove with
  | opening hmode hopens hdrop => exact hsound.opened hmode hopens hdrop
  | literalEscape hmode _ _ hdrop => exact hsound.dropBackslash hmode hdrop
  | @keptEscape c rest _ _ _ hdrop =>
      exact hsound.pass hsound.depth (add_length_le_of_drop ['\\', c] (List.cons_ne_nil _ _) hdrop)
  | @character c rest _ _ _ hdrop =>
      exact hsound.pass hsound.depth (add_length_le_of_drop [c] (List.cons_ne_nil _ _) hdrop)
  | strayBackslash hdrop => exact hsound.strayBackslash hdrop
  | inside unit hmode hunit _ _ _ hdrop =>
      exact hsound.pass (by simp [hmode]) (add_length_le_of_drop unit hunit hdrop)
  | closing hmode _ hdrop => exact hsound.closed hmode hdrop

theorem sound_start (text : Text) : Sound text {} where
  depth _ := rfl
  pending _ := rfl
  start_le := Nat.zero_le _
  position_le := Nat.zero_le _
  past_end hpast := absurd hpast (Nat.not_lt_zero _)
  neat := ⟨List.not_mem_nil, .nil⟩
  apart := by simp

/-- The state is sound wherever the machine comes to, by induction on its steps. -/
theorem Reachable.sound (hreachable : Reachable text state) : Sound text state := by
  induction hreachable with
  | start => exact sound_start text
  | step _ hdrop ih =>
      obtain ⟨taken, hmove⟩ := exists_move hdrop
      exact ih.move hmove

/-- A slice that a move takes lies in the text and is not taken backwards.  So no slice is
clipped at an end of the text. -/
theorem Sound.slice_le (hsound : Sound text state) (hmove : Move text state taken next) :
    ∀ stop ∈ taken, state.start ≤ stop ∧ stop ≤ text.length := by
  have hstart := hsound.start_le_position
  cases hmove with
  | @opening kind opening body _ hopens hdrop =>
      have hle := add_length_le_of_drop opening hopens.ne_nil hdrop
      rintro stop ⟨⟩
      exact ⟨hstart, by omega⟩
  | @literalEscape c rest _ _ _ hdrop =>
      have hle := add_length_le_of_drop ['\\', c] (List.cons_ne_nil _ _) hdrop
      rintro stop ⟨⟩
      exact ⟨hstart, by omega⟩
  | @closing kind rest _ _ hdrop =>
      have hle := add_length_le_of_drop kind.delimiter kind.delimiter_ne_nil hdrop
      have hpos := List.length_pos_iff.mpr kind.delimiter_ne_nil
      rintro stop ⟨⟩
      split <;> omega
  | keptEscape | character | strayBackslash | inside => simp

/-- The pieces that the machine gives in the end are neat as those before were.  The plain
text that was still pending is added behind an island. -/
theorem Sound.neat_finish (hsound : Sound text state) {pieces : List Piece}
    (hfinish : state.finish text = .ok pieces) : Neat pieces := by
  cases hmode : state.mode with
  | some kind =>
      rw [finish, hmode] at hfinish
      cases hfinish
  | none =>
      rw [finish, hmode] at hfinish
      obtain rfl := Except.ok.inj hfinish
      rw [flush_eq]
      exact hsound.neat.concat_plainPiece (hsound.apart hmode) _

/-! ## Texts without triggers -/

/-- Without dollars and backslashes the machine only moves on.  Braces are not counted, as
it stays in plain text, so its state is the initial one at another position. -/
theorem Reachable.eq_moved (hplain : ∀ c ∈ text, c ≠ '$' ∧ c ≠ '\\')
    (hreachable : Reachable text state) : state = { position := state.position } := by
  induction hreachable with
  | start => rfl
  | @step state c rest _ hdrop ih =>
      have hc : c ∈ text := by
        apply List.mem_of_mem_drop (i := state.position)
        rw [hdrop]
        exact List.mem_cons_self
      obtain ⟨hdollar, hescape⟩ := hplain c hc
      rw [ih] at hdrop ⊢
      rw [step_character rfl hdollar hescape]
      rfl

/-- The machine gives a text without dollars and backslashes as one piece, which is what the
shortcut gives. -/
theorem finish_run_of_plain (hplain : ∀ c ∈ text, c ≠ '$' ∧ c ≠ '\\') :
    (run text {}).finish text = .ok (plainPiece text) := by
  obtain ⟨hreachable, hdrop⟩ := reachable_run (@Reachable.start text)
  rw [hreachable.eq_moved hplain, finish, flush_eq]
  simp [slice]

end Splitter

open Splitter in
/-- The shortcut for texts without triggers changes nothing.

Every text is split as the machine does it.  A text without dollars and backslashes is one
plain piece, or none if it is empty, whatever its braces are, and on it the machine never
leaves its initial state but for the position. -/
theorem shortcut_changes_nothing (text : Text) :
    split text = (run text {}).finish text ∧
    ((∀ c ∈ text, c ≠ '$' ∧ c ≠ '\\') →
      split text = .ok (if text = [] then [] else [.plain text]) ∧
      (run text {}).finish text = .ok (if text = [] then [] else [.plain text]) ∧
      ∀ state, Reachable text state → state = { position := state.position }) := by
  have hmachine : split text = (run text {}).finish text := by
    rw [split]
    split
    · rfl
    · next htriggers =>
        have hplain : ∀ c ∈ text, c ≠ '$' ∧ c ≠ '\\' := by
          intro c hc
          constructor <;> rintro rfl <;> exact htriggers (List.any_of_mem hc (by decide))
        rw [finish_run_of_plain hplain]
        cases text <;> rfl
  have hpiece : plainPiece text = if text = [] then [] else [.plain text] := by
    cases text <;> rfl
  refine ⟨hmachine, fun hplain => ?_⟩
  have hfinish := finish_run_of_plain hplain
  rw [hpiece] at hfinish
  exact ⟨hmachine.trans hfinish, hfinish, fun state hreachable => hreachable.eq_moved hplain⟩

/-- Stray braces disable the shortcut, and the machine keeps them in one piece. -/
example : split "\x7da\x7b\x7b b\x7d".toList = .ok [.plain "\x7da\x7b\x7b b\x7d".toList] := by
  decide +kernel

end TextMode
