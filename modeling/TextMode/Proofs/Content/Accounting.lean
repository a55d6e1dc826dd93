import Mathlib
import TextMode.Proofs.Content.States

/-!
# What the pieces account for

In every state the text up to the position is accounted for: by the pieces, by the plain
text that is not yet one, and in an island by its opening and its source so far.  So what
stands before the next piece when an island ends is exactly what the pieces are the cut of.
-/

namespace TextMode

/-! ## Cuts that grow at their end -/

theorem take_add_of_drop (unit : Text) {text rest : Text} {start : Nat}
    (hdrop : text.drop start = unit ++ rest) :
    text.take (start + unit.length) = text.take start ++ unit := by
  rw [List.take_add, hdrop, List.take_left]

theorem length_of_take {text before : Text} {start : Nat} (htake : text.take start = before)
    (hle : start ≤ text.length) : before.length = start := by
  rw [← htake, List.length_take, min_eq_left hle]

/-- A backslash that opens nothing takes the next character with it, and both are plain
text. -/
theorem plainRun_of_opening?_eq_none {c : Char} {rest : Text}
    (hopening : opening? ('\\' :: c :: rest) = none) : PlainRun ['\\', c] rest := by
  obtain ⟨hhead, hreference⟩ := opening?_backslash_eq_none_iff.mp hopening
  exact .escape (by simpa using hhead) hreference .nil

/-- A text that ends in an island is not read differently for what follows it. -/
theorem PlainRun.extend {run rest : Text} (hrun : PlainRun run rest) (hends : EndsIsland rest)
    (after : Text) : PlainRun run (rest ++ after) := by
  induction hrun with
  | nil => exact .nil
  | char hdollar hescape _ ih => exact .char hdollar hescape (ih hends)
  | @escape c run rest hparenthesis hplain _ ih =>
      refine .escape hparenthesis (fun hstarts => hplain ?_) (ih hends)
      obtain ⟨front, kind, hfront⟩ := hends
      have hends' : EndsIsland ('\\' :: c :: (run ++ rest)) :=
        ⟨'\\' :: c :: (run ++ front), kind, by simp [hfront]⟩
      have hstarts' : StartsReference ('\\' :: c :: (run ++ rest) ++ after) := by
        simpa using hstarts
      exact startsReference_of_append hends' hstarts'
  | strayBackslash =>
      obtain ⟨front, kind, hfront⟩ := hends
      cases kind <;> simp [IslandKind.delimiter] at hfront

/-- What is plain text with more behind it is plain text without.  The openings that a
shorter text has are openings of the longer one too. -/
theorem PlainRun.restrict {run rest : Text} (after : Text) (hrun : PlainRun run (rest ++ after)) :
    PlainRun run rest := by
  generalize hwhole : rest ++ after = whole at hrun
  induction hrun with
  | nil => exact .nil
  | char hdollar hescape _ ih => exact .char hdollar hescape (ih hwhole)
  | escape hparenthesis hplain _ ih =>
      subst hwhole
      refine .escape hparenthesis (fun hstarts => hplain ?_) (ih rfl)
      obtain ⟨opening, body, hopens, heq⟩ := hstarts
      refine ⟨opening, body ++ after, hopens, ?_⟩
      rw [← List.append_assoc opening, ← heq]
      simp
  | strayBackslash =>
      obtain ⟨rfl, rfl⟩ := List.append_eq_nil_iff.mp hwhole
      exact .strayBackslash

/-- Two runs of plain text behind each other are one run.  The first has to be plain with
the second one behind it. -/
theorem PlainRun.append {run unit rest : Text} (hrun : PlainRun run (unit ++ rest))
    (hunit : PlainRun unit rest) : PlainRun (run ++ unit) rest := by
  generalize hwhole : unit ++ rest = whole at hrun
  induction hrun with
  | nil => exact hunit
  | char hdollar hescape _ ih => exact .char hdollar hescape (ih hwhole)
  | @escape c run after hparenthesis hplain _ ih =>
      have hplain' : ¬ StartsReference ('\\' :: c :: ((run ++ unit) ++ rest)) := by
        rwa [List.append_assoc, hwhole]
      exact .escape hparenthesis hplain' (ih hwhole)
  | strayBackslash =>
      obtain ⟨rfl, rfl⟩ := List.append_eq_nil_iff.mp hwhole
      exact .strayBackslash

/-- Escapes are resolved on both sides of a place where plain text may be cut.  A run that
is plain up to there does not end in a backslash that takes the next character. -/
theorem resolveEscapes_append {run rest : Text} (hrun : PlainRun run rest)
    (hrest : rest ≠ []) (unit : Text) :
    resolveEscapes (run ++ unit) = resolveEscapes run ++ resolveEscapes unit := by
  induction hrun with
  | nil => rfl
  | @char c run rest _ hescape _ ih =>
      rw [List.cons_append, resolveEscapes_char hescape, ih hrest, resolveEscapes_char hescape]
      rfl
  | @escape c run rest _ _ _ ih =>
      have halone := (resolvesAlone_escape c).2
      calc
        resolveEscapes ('\\' :: c :: run ++ unit)
            = resolveEscapes ['\\', c] ++ resolveEscapes (run ++ unit) := halone (run ++ unit)
        _ = resolveEscapes ['\\', c] ++ resolveEscapes run ++ resolveEscapes unit := by
          rw [ih hrest, List.append_assoc]
        _ = resolveEscapes ('\\' :: c :: run) ++ resolveEscapes unit := by
          rw [← halone run]
          rfl
  | strayBackslash => exact absurd rfl hrest

/-- Plain text as a span, unless it is empty. -/
def plainSpans : Text → List Span
  | [] => []
  | run => [.plain run]

theorem map_piece_plainSpans (run : Text) :
    (plainSpans run).map Span.piece = plainPiece (resolveEscapes run) := by
  cases run with
  | nil => rfl
  | cons c run =>
      rw [plainPiece_of_ne_nil (resolveEscapes_ne_nil (List.cons_ne_nil c run))]
      rfl

/-- What stands behind an island is cut on its own.

The induction is on the cut of the left text.  Plain text is not the last span of it, so an
island ends what follows that text, and it is not read differently. -/
theorem Cut.append {left right : Text} {before after : List Span} (hleft : Cut left before)
    (hlast : before = [] ∨ EndInIsland before) (hright : Cut right after) :
    Cut (left ++ right) (before ++ after) := by
  induction hleft with
  | nil => exact hright
  | @plain run rest spans hrun hplain hhead hrest ih =>
      have htail : EndInIsland spans := by
        obtain hnil | ⟨kind, opening, source, hlast⟩ := hlast
        · cases hnil
        · cases spans with
          | nil => simp at hlast
          | cons span spans => exact ⟨kind, opening, source, by simpa using hlast⟩
      have hne : spans ≠ [] := by
        rintro rfl
        exact not_endInIsland_nil htail
      have hhead' : ∀ other, (spans ++ after).head? ≠ some (.plain other) := by
        rwa [List.head?_append_of_ne_nil _ hne]
      have hplain' := hplain.extend (htail.endsIsland (cut?_of_cut hrest)) right
      rw [List.append_assoc]
      exact .plain hrun hplain' hhead' (ih (.inr htail))
  | @island kind opening source rest spans hopens hinside hrest ih =>
      have htail : spans = [] ∨ EndInIsland spans := by
        obtain hnil | hlast := hlast
        · cases hnil
        · exact hlast.tail
      simpa using Cut.island hopens hinside (ih htail)

namespace Splitter

variable {text rest : Text} {state next : Splitter} {c : Char} {kind : IslandKind}
  {taken : Option Nat}

/-! ## What the text before the position has become -/

/-- The spans of a text that ends in an island, or of none. -/
structure Complete (before : Text) (spans : List Span) : Prop where
  cut : Cut before spans
  last : spans = [] ∨ EndInIsland spans

/-- The text up to the position, as spans that are complete, the plain text behind them and,
in an island, its opening and its source so far.  What closes the braces that are open
completes the source. -/
inductive Accounted (text : Text) (state : Splitter) : Prop where
  | plain {before : Text} (run : Text) {spans : List Span} :
      state.mode = none → Complete before spans →
      text.take state.position = before ++ run → PlainRun run (text.drop state.position) →
      state.pieces = spans.map Span.piece → state.content text = resolveEscapes run →
      Accounted text state
  | island {kind : IslandKind} {before run opening : Text} (source : Text)
      {spans : List Span} :
      state.mode = some kind → Complete before spans → kind.Opens opening →
      (∀ inner, Inside kind state.depth inner → Inside kind 0 (source ++ inner)) →
      text.take state.position = before ++ (run ++ (opening ++ source)) →
      PlainRun run (opening ++ (source ++ text.drop state.position)) →
      state.pieces = spans.map Span.piece ++ plainPiece (resolveEscapes run) →
      state.start = (before ++ run).length + (if kind = .reference then 0 else opening.length) →
      Accounted text state

/-- Plain text that is passed is added to the run. -/
theorem Accounted.passes {unit : Text} (haccounted : Accounted text state)
    (hmode : state.mode = none) (hpasses : Passes text unit state next) (hunit : unit ≠ [])
    (hplain : PlainRun unit rest) (hdrop : text.drop state.position = unit ++ rest) :
    Accounted text next := by
  cases haccounted with
  | @plain before run spans _ hcomplete htake hrun hpieces hcontent =>
      rw [hdrop] at hrun
      refine .plain (run ++ unit) hpasses.mode hcomplete ?_ ?_ ?_ ?_
      · rw [hpasses.position, take_add_of_drop unit hdrop, htake, List.append_assoc]
      · rw [hpasses.drop hdrop]
        exact hrun.append hplain
      · rw [hpasses.pieces, hpieces]
      · rw [hpasses.content, hcontent, resolveEscapes_append hrun (by simp [hunit])]
  | island _ hisland => simp [hmode] at hisland

/-- The opening of an island ends the run of plain text before it.  The run becomes a piece,
unless nothing is left of it, and the source of the island is empty yet. -/
theorem Accounted.opened {opening body : Text} (haccounted : Accounted text state)
    (hmode : state.mode = none) (hdepth : state.depth = 0) (hopens : kind.Opens opening)
    (hdrop : text.drop state.position = opening ++ body) :
    Accounted text (state.opened text kind opening) := by
  cases haccounted with
  | @plain before run spans _ hcomplete htake hrun hpieces hcontent =>
      have hle := add_length_le_of_drop opening hopens.ne_nil hdrop
      have htake' : text.take (state.opened text kind opening).position =
          before ++ (run ++ (opening ++ [])) := by
        have hadd := take_add_of_drop opening hdrop
        rw [htake, List.append_assoc] at hadd
        rw [List.append_nil]
        exact hadd
      refine .island [] rfl hcomplete hopens ?_ htake' ?_ ?_ ?_
      · intro inner hinner
        rw [← hdepth]
        exact hinner
      · have hbody : text.drop (state.opened text kind opening).position = body :=
          drop_add_of_drop_eq_append opening hdrop
        rw [hbody, List.nil_append, ← hdrop]
        exact hrun
      · rw [← hpieces, ← hcontent, ← flush_position]
        rfl
      · rw [length_of_take htake (by omega)]
        simp only [Splitter.opened, openIsland]
        split <;> rfl
  | island _ hisland => simp [hmode] at hisland

/-- What is read in an island is added to its source. -/
theorem Accounted.inside {unit : Text} {depth : Nat} (haccounted : Accounted text state)
    (hmode : state.mode = some kind)
    (hinside : ∀ inner, Inside kind depth inner → Inside kind state.depth (unit ++ inner))
    (hdrop : text.drop state.position = unit ++ rest) :
    Accounted text { state.skip unit.length with depth := depth } := by
  cases haccounted with
  | plain _ hplain => simp [hmode] at hplain
  | @island kind' before run opening source spans hkind hcomplete hopens hsource htake hrun
      hpieces hstart =>
      obtain rfl : kind' = kind := Option.some.inj (hkind.symm.trans hmode)
      have hnext : text.drop (state.position + unit.length) = rest :=
        drop_add_of_drop_eq_append unit hdrop
      refine .island (source ++ unit) hmode hcomplete hopens ?_ ?_ ?_ hpieces hstart
      · intro inner hinner
        rw [List.append_assoc]
        exact hsource _ (hinside inner hinner)
      · have hadd := take_add_of_drop unit hdrop
        rw [htake] at hadd
        simpa [skip] using hadd
      · rw [hdrop] at hrun
        simpa [skip, hnext] using hrun

/-- An island completes what is before it. -/
theorem Complete.island {before run opening source : Text} {spans : List Span}
    (hcomplete : Complete before spans) (hopens : kind.Opens opening)
    (hinside : Inside kind 0 source)
    (hrun : PlainRun run (opening ++ (source ++ (kind.delimiter ++ rest)))) :
    Complete (before ++ (run ++ (opening ++ (source ++ kind.delimiter))))
      (spans ++ (plainSpans run ++ [.island kind opening source])) where
  cut := by
    have hisland : Cut (opening ++ (source ++ kind.delimiter)) [.island kind opening source] := by
      simpa using Cut.island hopens hinside .nil
    refine hcomplete.cut.append hcomplete.last ?_
    cases run with
    | nil => exact hisland
    | cons c run =>
        have hrun' : PlainRun (c :: run) (opening ++ (source ++ kind.delimiter)) := by
          refine PlainRun.restrict rest ?_
          simpa using hrun
        exact .plain (List.cons_ne_nil c run) hrun' (by simp) hisland
  last := .inr ⟨kind, opening, source, by simp [← List.append_assoc]⟩

/-- The slice that is taken at the end of an island makes the piece of its span. -/
theorem pieces_closed {before opening source : Text}
    (htext : text.drop before.length = opening ++ (source ++ (kind.delimiter ++ rest)))
    (hposition : state.position = before.length + opening.length + source.length)
    (hstart : state.start = before.length + (if kind = .reference then 0 else opening.length)) :
    (state.closed text kind []).pieces =
      state.pieces ++ [(Span.island kind opening source).piece] := by
  have hsource := slice_of_drop_eq_append (drop_add_of_drop_eq_append opening htext)
  cases kind with
  | dollar =>
      simp [Splitter.closed, closeIsland, Span.piece, hstart, hposition, hsource]
  | parenthesis =>
      simp [Splitter.closed, closeIsland, Span.piece, hstart, hposition, hsource]
  | reference =>
      have hraw : text.drop before.length = (opening ++ source ++ ['}']) ++ rest := by
        simpa [IslandKind.delimiter] using htext
      have hwhole := slice_of_drop_eq_append hraw
      simp only [List.length_append, List.length_cons, List.length_nil] at hwhole
      simp [Splitter.closed, closeIsland, Span.piece, hstart, hposition, Nat.add_assoc, ← hwhole]

/-- The end of an island leaves nothing open: the text before it has become the pieces, and
the text behind it has not been touched. -/
theorem Accounted.closed (haccounted : Accounted text state) (hmode : state.mode = some kind)
    (hdepth : state.depth = 0) (hdrop : text.drop state.position = kind.delimiter ++ rest) :
    ∃ spans, Complete (text.take (state.closed text kind []).start) spans ∧
      (state.closed text kind []).pieces = spans.map Span.piece := by
  cases haccounted with
  | plain _ hplain => simp [hmode] at hplain
  | @island kind' before run opening source spans hkind hcomplete hopens hsource htake hrun
      hpieces hstart =>
      obtain rfl : kind' = kind := Option.some.inj (hkind.symm.trans hmode)
      have hinside : Inside kind' 0 source := by
        have hend := hsource []
        rw [hdepth, List.append_nil] at hend
        exact hend .nil
      have hle := add_length_le_of_drop kind'.delimiter kind'.delimiter_ne_nil hdrop
      have hposition := length_of_take htake (by omega)
      rw [hdrop] at hrun
      have htext : text.drop (before ++ run).length =
          opening ++ (source ++ (kind'.delimiter ++ rest)) := by
        rw [← List.take_append_drop state.position text, htake, hdrop]
        simp
      refine ⟨spans ++ (plainSpans run ++ [.island kind' opening source]), ?_, ?_⟩
      · have hwhole : text.take (state.closed text kind' []).start =
            before ++ (run ++ (opening ++ (source ++ kind'.delimiter))) := by
          have hadd := take_add_of_drop kind'.delimiter hdrop
          rw [htake] at hadd
          simpa [Splitter.closed, closeIsland] using hadd
        rw [hwhole]
        exact hcomplete.island hopens hinside hrun
      · rw [pieces_closed htext ?_ hstart, hpieces]
        · simp [map_piece_plainSpans]
        · rw [← hposition]
          simp only [List.length_append, Nat.add_assoc]

/-- Every move of the machine that stays within the text keeps the account.  There is one
case for each kind of move; the move over a stray backslash leads beyond the end of the text
and so is none of them. -/
theorem Accounted.move (haccounted : Accounted text state) (hsound : Sound text state)
    (hmove : Move text state taken next) (hle : next.position ≤ text.length) :
    Accounted text next := by
  cases hmove with
  | opening hmode hopens hdrop => exact haccounted.opened hmode (hsound.depth hmode) hopens hdrop
  | @literalEscape c rest hmode hopening htrigger hdrop =>
      have hpasses := passes_dropBackslash hmode hdrop hopening htrigger
      have hunit := plainRun_of_opening?_eq_none hopening
      exact haccounted.passes hmode hpasses (List.cons_ne_nil _ _) hunit hdrop
  | @keptEscape c rest hmode hopening htrigger hdrop =>
      have hpasses := passes_keptBackslash hmode hsound.start_le_position hdrop hopening htrigger
      have hunit := plainRun_of_opening?_eq_none hopening
      exact haccounted.passes hmode hpasses (List.cons_ne_nil _ _) hunit hdrop
  | @character c rest hmode hdollar hescape hdrop =>
      have hpasses := passes_character hmode hsound.start_le_position hdrop hdollar hescape
      have hunit : PlainRun [c] rest := .char hdollar hescape .nil
      exact haccounted.passes hmode hpasses (List.cons_ne_nil _ _) hunit hdrop
  | strayBackslash hdrop =>
      have hlength := congrArg List.length hdrop
      simp only [List.length_drop, List.length_cons, List.length_nil, skip] at hlength hle
      omega
  | inside unit hmode _ hinside _ _ hdrop => exact haccounted.inside hmode hinside hdrop
  | @closing kind rest hmode hdepth hdrop =>
      obtain ⟨spans, hcomplete, hpieces⟩ := haccounted.closed hmode hdepth hdrop
      have hpending : state.pending = [] := hsound.pending (by simp [hmode])
      refine .plain [] rfl hcomplete ?_ .nil hpieces ?_
      · rw [List.append_nil]
        rfl
      · simp [content, Splitter.closed, closeIsland, slice, hpending, resolveEscapes]

/-- The account holds wherever the machine comes to, by induction on its moves.  At the
start there is nothing to account for. -/
theorem Reachable.accounted (hreachable : Reachable text state)
    (hle : state.position ≤ text.length) : Accounted text state := by
  induction hreachable with
  | start => exact .plain [] rfl ⟨.nil, .inl rfl⟩ rfl .nil rfl rfl
  | @step state c rest hreachable hdrop ih =>
      obtain ⟨taken, hmove⟩ := exists_move hdrop
      have hbefore := add_length_le_of_drop [c] (List.cons_ne_nil _ _) hdrop
      exact (ih (Nat.le_of_succ_le hbefore)).move hreachable.sound hmove hle

/-! ## Every state and every step -/

/-- How the machine gets from a state to the next one.  It advances, it counts one brace at
most, and it takes no slice that runs backwards or beyond the text.  If it leaves an island,
the pieces are those of all the text before the next piece. -/
structure Advances (text : Text) (state next : Splitter) : Prop where
  position : state.position < next.position
  depth : state.depth ≤ next.depth + 1 ∧ next.depth ≤ state.depth + 1
  slice : (∃ taken, Move text state taken next) ∧ ∀ taken, Move text state taken next →
    ∀ stop ∈ taken, state.start ≤ stop ∧ stop ≤ text.length
  pieces : state.mode ≠ none → next.mode = none →
    ∃ spans, Cut (text.take next.start) spans ∧
      spans.flatMap Span.raw = text.take next.start ∧ next.pieces = spans.map Span.piece

/-- A move counts one brace at most.  Only a brace inside an island changes the depth, and
it changes it by one. -/
theorem Move.depth_le (hmove : Move text state taken next) :
    state.depth ≤ next.depth + 1 ∧ next.depth ≤ state.depth + 1 := by
  cases hmove with
  | inside _ _ _ _ hlower hupper _ => exact ⟨hlower, hupper⟩
  | closing _ hdepth _ => simp [Splitter.closed, hdepth]
  | opening | literalEscape | keptEscape | character | strayBackslash =>
      exact ⟨Nat.le_succ _, Nat.le_succ _⟩

/-- An island is left at its end only.  Then the text that is read has become pieces, and
nothing of it is pending. -/
theorem Accounted.of_left (haccounted : Accounted text state)
    (hmove : Move text state taken next) (hmode : state.mode ≠ none) (hnext : next.mode = none) :
    ∃ spans, Complete (text.take next.start) spans ∧ next.pieces = spans.map Span.piece := by
  cases hmove with
  | closing hisland hdepth hdrop => exact haccounted.closed hisland hdepth hdrop
  | opening hplain | literalEscape hplain | keptEscape hplain | character hplain =>
      exact absurd hplain hmode
  | strayBackslash | inside => exact absurd hnext hmode

/-- From every state that the machine can reach, the step it takes is one of the moves.  It
brings the machine forward by a character or more. -/
theorem Reachable.advances (hreachable : Reachable text state)
    (hdrop : text.drop state.position = c :: rest) :
    Advances text state (state.step text c rest) := by
  obtain ⟨taken, hmove⟩ := exists_move hdrop
  have hle := add_length_le_of_drop [c] (List.cons_ne_nil _ _) hdrop
  have haccounted := hreachable.accounted (Nat.le_of_succ_le hle)
  exact {
    position := position_lt_step text c rest state
    depth := hmove.depth_le
    slice := ⟨⟨taken, hmove⟩, fun _ => hreachable.sound.slice_le⟩
    pieces := by
      intro hmode hnext
      obtain ⟨spans, hcomplete, hpieces⟩ := haccounted.of_left hmove hmode hnext
      exact ⟨spans, hcomplete.cut, hcomplete.cut.flatMap_raw, hpieces⟩ }

end Splitter

open Splitter in
/-- The state of the machine is sound on its whole way through a text.

It is sound wherever the machine comes to, and until the end it accounts for all of the text
that is read.  Every step gets the machine properly to the next state.  It stops at the end
of the text, in a sound state again, and the pieces that it gives in the end are in order
like those before. -/
theorem states_sound (text : Text) :
    (∀ state, Reachable text state →
      Sound text state ∧ (state.position ≤ text.length → Accounted text state) ∧
      ∀ c rest, text.drop state.position = c :: rest →
        Advances text state (state.step text c rest)) ∧
    Reachable text (run text {}) ∧ text.drop (run text {}).position = [] ∧
    ∀ pieces, (run text {}).finish text = .ok pieces →
      (run text {}).start ≤ text.length ∧ Neat pieces := by
  obtain ⟨hreachable, hdrop⟩ := reachable_run (@Reachable.start text)
  refine ⟨?_, hreachable, hdrop, ?_⟩
  · intro state hstate
    exact ⟨hstate.sound, hstate.accounted, fun c rest => hstate.advances⟩
  · intro pieces hfinish
    have hsound := hreachable.sound
    exact ⟨hsound.start_le.trans (min_le_right _ _), hsound.neat_finish hfinish⟩

end TextMode
