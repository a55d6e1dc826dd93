import Mathlib
import TextMode.Proofs.Content.Splitting
import TextMode.Proofs.Text.Runs

/-!
# Splitting behind an island

The end of an island brings the machine back to its initial state, at another position
and behind complete pieces.  Only the opening of a reference is looked for further than
one character ahead, and the end of an island has no place in one.  So what stands behind
an island is split as a text of its own.
-/

namespace TextMode

/-! ## Openings do not reach over the end of an island -/

/-- The text ends as an island does. -/
def EndsIsland (text : Text) : Prop :=
  ∃ (front : Text) (kind : IslandKind), text = front ++ kind.delimiter

/-- A reference is opened by a brace behind characters that end no island. -/
theorem exists_of_isReferenceOpening {opening : Text} (hopens : IsReferenceOpening opening) :
    ∃ command, opening = command ++ ['{'] ∧
      ∀ c ∈ command, c ≠ '$' ∧ c ≠ ')' ∧ c ≠ '}' := by
  obtain ⟨name, blanks, hname, hblanks, rfl⟩ := hopens
  have hnames : ∀ c ∈ name, c ≠ '$' ∧ c ≠ ')' ∧ c ≠ '}' := by
    obtain rfl | rfl := hname <;> simp
  have hspaces : ∀ c ∈ blanks, c ≠ '$' ∧ c ≠ ')' ∧ c ≠ '}' := by
    intro c hc
    have hne : ∀ d, Text.isBlank d = false → c ≠ d := fun d => ne_of_accepts (hblanks c hc)
    exact ⟨hne _ (by decide), hne _ (by decide), hne _ (by decide)⟩
  refine ⟨'\\' :: name ++ blanks, rfl, ?_⟩
  intro c hc
  rcases List.mem_append.mp hc with hc | hc
  · rcases List.mem_cons.mp hc with rfl | hc
    · decide
    · exact hnames c hc
  · exact hspaces c hc

/-- Only the opening of a reference is looked for over several characters.  A text that ends
as an island does cannot hold the beginning of one that goes on behind it, because no
delimiter occurs in an opening before its brace. -/
theorem startsReference_of_append {text after : Text} (hends : EndsIsland text)
    (hstarts : StartsReference (text ++ after)) : StartsReference text := by
  obtain ⟨opening, body, hopens, heq⟩ := hstarts
  obtain ⟨command, hopening, hcommand⟩ := exists_of_isReferenceOpening hopens
  rcases List.append_eq_append_iff.mp heq with ⟨reach, hreach, -⟩ | ⟨inner, htext, -⟩
  · rcases List.eq_nil_or_concat reach with rfl | ⟨reach, last, rfl⟩
    · exact ⟨opening, [], hopens, by simpa using hreach.symm⟩
    · -- The text would lie before the brace, and so would the delimiter at its end.
      obtain ⟨front, kind, rfl⟩ := hends
      have hbefore : command = front ++ (kind.delimiter ++ reach) := by
        rw [hopening, List.concat_eq_append, ← List.append_assoc] at hreach
        rw [(List.append_inj' hreach rfl).1, List.append_assoc]
      have hdelimiter : ∀ c ∈ kind.delimiter, c ≠ '$' ∧ c ≠ ')' ∧ c ≠ '}' := by
        intro c hc
        exact hcommand c (by simp [hbefore, hc])
      cases kind <;> simp [IslandKind.delimiter] at hdelimiter
  · exact ⟨opening, inner, hopens, htext⟩

/-- What opens nothing in front of the end of an island opens nothing with more text behind
it. -/
theorem opening?_append_eq_none {c : Char} {rest : Text} (hends : EndsIsland ('\\' :: c :: rest))
    (hopening : opening? ('\\' :: c :: rest) = none) (after : Text) :
    opening? ('\\' :: c :: (rest ++ after)) = none := by
  obtain ⟨hhead, hreference⟩ := opening?_backslash_eq_none_iff.mp hopening
  refine opening?_backslash_eq_none_iff.mpr ⟨hhead, fun hstarts => hreference ?_⟩
  exact startsReference_of_append hends hstarts

/-! ## Spans that end in an island -/

def EndInIsland (spans : List Span) : Prop :=
  ∃ kind opening source, spans.getLast? = some (.island kind opening source)

/-- The last span of a cut is at the end of the text.  So the text ends in the delimiter of
an island if that span is one. -/
theorem EndInIsland.endsIsland {text : Text} {spans : List Span} (hlast : EndInIsland spans)
    (hcut : cut? text = some spans) : EndsIsland text := by
  obtain ⟨kind, opening, source, hlast⟩ := hlast
  obtain ⟨before, rfl⟩ := List.getLast?_eq_some_iff.mp hlast
  refine ⟨before.flatMap Span.raw ++ (opening ++ source), kind, ?_⟩
  rw [← (cut?_eq_some_iff.mp hcut).flatMap_raw]
  simp [Span.raw]

theorem endInIsland_of_pieces {spans : List Span} {kind : IslandKind} {source : Text}
    (hlast : (spans.map Span.piece).getLast? = some (.island kind source)) :
    EndInIsland spans := by
  rw [List.getLast?_map] at hlast
  obtain ⟨span, hspan, hpiece⟩ := Option.map_eq_some_iff.mp hlast
  cases span with
  | plain run => cases hpiece
  | island kind opening source => exact ⟨kind, opening, source, hspan⟩

theorem not_endInIsland_nil : ¬ EndInIsland [] := by
  rintro ⟨kind, opening, source, hlast⟩
  simp at hlast

theorem EndInIsland.tail {span : Span} {spans : List Span} (hlast : EndInIsland (span :: spans)) :
    spans = [] ∨ EndInIsland spans := by
  cases spans with
  | nil => exact .inl rfl
  | cons next spans => exact .inr (by simpa [EndInIsland] using hlast)

theorem EndInIsland.of_prependPlain {run : Text} {spans : List Span}
    (hlast : EndInIsland (prependPlain run spans)) : EndInIsland spans := by
  obtain ⟨kind, opening, source, hlast⟩ := hlast
  refine ⟨kind, opening, source, ?_⟩
  cases spans with
  | nil => simp [prependPlain] at hlast
  | cons span spans =>
      cases span with
      | island => simpa [prependPlain] using hlast
      | plain other => cases spans <;> simp_all [prependPlain]

/-! ## The machine behind an island -/

namespace Splitter

/-- The initial state at another position and behind complete pieces. -/
def resumed (position : Nat) (pieces : List Piece) : Splitter :=
  { start := position, position, pieces }

/-- An island that is read as a whole leaves the machine in its initial state, behind the
island and behind one piece more. -/
theorem closed_opened {text opening source rest : Text} {kind : IslandKind} {state : Splitter}
    (hdrop : text.drop state.position = opening ++ (source ++ (kind.delimiter ++ rest))) :
    (state.opened text kind opening).closed text kind source =
      resumed (state.position + (opening ++ (source ++ kind.delimiter)).length)
        (state.pieces ++ plainPiece (state.content text) ++
          [(Span.island kind opening source).piece]) := by
  rw [← pieces_closed_opened hdrop]
  simp [closed, closeIsland, opened, openIsland, resumed, Nat.add_assoc]

/-- The machine reads an opening, a source and a delimiter in one go.  What is inside does
not end the island before its delimiter. -/
theorem run_island {text opening source rest : Text} {kind : IslandKind} {state : Splitter}
    (hmode : state.mode = none) (hdepth : state.depth = 0) (hopens : kind.Opens opening)
    (hinside : Inside kind 0 source)
    (hdrop : text.drop state.position = opening ++ (source ++ (kind.delimiter ++ rest))) :
    run text state =
      run text (resumed (state.position + (opening ++ (source ++ kind.delimiter)).length)
        (state.pieces ++ plainPiece (state.content text) ++
          [(Span.island kind opening source).piece])) := by
  have hsource := drop_add_of_drop_eq_append opening hdrop
  have hends : EndsInside text kind (state.opened text kind opening)
      (run text (state.opened text kind opening)) (some (source, rest)) := by
    rw [← islandSource?_of_inside hinside rest]
    exact endsInside_run rfl hdepth hsource
  rw [run_opening hmode hdrop hopens, ← closed_opened hdrop]
  exact hends

theorem content_resumed (text : Text) (position : Nat) (pieces : List Piece) :
    (resumed position pieces).content text = [] := by
  simp [content, resumed, slice]

/-- Plain text before spans is part of what the machine has read behind them. -/
theorem Passes.run_resumed {text unit rest : Text} {spans : List Span} {state next : Splitter}
    (hpasses : Passes text unit state next) (hunit : ResolvesAlone unit)
    (hnext : run text next = run text (resumed (next.position + rest.length)
      (next.pieces ++ attach (next.content text) (spans.map Span.piece)))) :
    run text state = run text (resumed (state.position + (unit ++ rest).length)
      (state.pieces ++ attach (state.content text)
        ((prependPlain unit spans).map Span.piece))) := by
  rw [hpasses.run_eq, hnext, hpasses.position, hpasses.pieces, hpasses.content,
    attach_append_piece hunit, List.length_append, Nat.add_assoc]

/-- Behind the last island of a text the machine is in its initial state again.

The induction follows the reading of the cut.  Plain text is added to what is pending, and
an island brings the machine to a state from which it goes on as from the start. -/
theorem run_of_cut? {text before after : Text} {spans : List Span} {state : Splitter}
    (hcut : cut? before = some spans) (hlast : EndInIsland spans) (hmode : state.mode = none)
    (hdepth : state.depth = 0) (hstart : state.start ≤ state.position)
    (hdrop : text.drop state.position = before ++ after) :
    run text state =
      run text (resumed (state.position + before.length)
        (state.pieces ++ attach (state.content text) (spans.map Span.piece))) := by
  fun_induction cut? before generalizing spans state with
  | case1 before kind opening body hopening source rest hsource ih =>
      obtain ⟨inner, hinner, rfl⟩ := Option.map_eq_some_iff.mp hcut
      obtain ⟨hopens, rfl⟩ := opening?_eq_some_iff.mp hopening
      obtain ⟨hinside, rfl⟩ := islandSource?_eq_some_iff.mp hsource
      have hdrop' : text.drop state.position =
          opening ++ (source ++ (kind.delimiter ++ (rest ++ after))) := by
        simpa using hdrop
      have hbehind := drop_add_of_drop_eq_append (opening ++ (source ++ kind.delimiter))
        (by simpa using hdrop')
      rw [run_island hmode hdepth hopens hinside hdrop', List.map_cons, attach_piece_island]
      obtain rfl | hinnerLast := hlast.tail
      · obtain rfl := (cut?_eq_some_iff.mp hinner).flatMap_raw
        simp
      · rw [ih hinner hinnerLast rfl rfl (Nat.le_refl _) hbehind, content_resumed,
          attach_nil_left]
        simp [resumed, Nat.add_assoc]
  | case2 => simp at hcut
  | case3 =>
      obtain rfl : [] = spans := by simpa using hcut
      exact absurd hlast not_endInIsland_nil
  | case4 =>
      obtain rfl : [.plain ['\\']] = spans := by simpa using hcut
      exact absurd (@EndInIsland.of_prependPlain ['\\'] [] hlast) not_endInIsland_nil
  | case5 c rest hopening ih =>
      obtain ⟨inner, hinner, rfl⟩ := Option.map_eq_some_iff.mp hcut
      have hends := hlast.endsIsland ((cut?_escape hopening).trans hcut)
      obtain ⟨next, hnext⟩ := exists_passes_escape hmode hstart hdrop
        (opening?_append_eq_none hends hopening after)
      refine hnext.run_resumed (resolvesAlone_escape c) ?_
      exact ih hinner hlast.of_prependPlain hnext.mode (hnext.depth.trans hdepth)
        hnext.start_le (hnext.drop hdrop)
  | case6 c rest hopening hescape ih =>
      obtain ⟨inner, hinner, rfl⟩ := Option.map_eq_some_iff.mp hcut
      have hdollar : c ≠ '$' := by
        rintro rfl
        simp [opening?] at hopening
      have hnext := passes_character hmode hstart hdrop hdollar hescape
      refine hnext.run_resumed (resolvesAlone_char hescape) ?_
      exact ih hinner hlast.of_prependPlain hnext.mode (hnext.depth.trans hdepth)
        hnext.start_le (hnext.drop hdrop)

/-- From its initial state at some position the machine splits the text that is left.  The
pieces that it has already are put in front. -/
theorem finish_run_resumed {text after : Text} {position : Nat}
    (hdrop : text.drop position = after) (pieces : List Piece) :
    (run text (resumed position pieces)).finish text = (split after).map (pieces ++ ·) := by
  rw [finish_run_plain rfl rfl (Nat.le_refl _) hdrop, split_eq_cut?]
  cases cut? after with
  | none => rfl
  | some spans =>
      rw [outcomeInPlain, content_resumed, attach_nil_left]
      rfl

end Splitter

open Splitter in
/-- What stands behind an island is split as a text of its own.

If a text is empty or its last piece is an island, the machine is in its initial state again
behind it, whatever follows.  So the pieces of what follows are added to those of the text,
and the whole is unterminated exactly if what follows is. -/
theorem split_behind_island {before : Text} {pieces : List Piece}
    (hsplit : split before = .ok pieces)
    (hends : before = [] ∨ ∃ kind source, pieces.getLast? = some (.island kind source))
    (after : Text) :
    run (before ++ after) {} = run (before ++ after) (resumed before.length pieces) ∧
      split (before ++ after) = (split after).map (pieces ++ ·) ∧
      (split (before ++ after) = .error .unterminatedNotationIsland ↔
        split after = .error .unterminatedNotationIsland) := by
  have hrun : run (before ++ after) {} = run (before ++ after) (resumed before.length pieces) := by
    obtain rfl | ⟨kind, source, hlast⟩ := hends
    · obtain rfl := (pieces_eq_nil_iff hsplit).mpr rfl
      rfl
    · obtain ⟨spans, hcut, rfl⟩ := exists_cut_of_split hsplit
      have hstart : (before ++ after).drop (resumed 0 []).position = before ++ after :=
        List.drop_zero
      have hbehind := run_of_cut? (cut?_of_cut hcut) (endInIsland_of_pieces hlast) rfl rfl
        (Nat.le_refl _) hstart
      rw [content_resumed, attach_nil_left] at hbehind
      simpa [resumed] using hbehind
  have hwhole : split (before ++ after) = (split after).map (pieces ++ ·) :=
    calc split (before ++ after)
        = (split (before ++ after)).map ([] ++ ·) := by
          cases split (before ++ after) <;> rfl
      _ = (run (before ++ after) {}).finish (before ++ after) :=
          (finish_run_resumed List.drop_zero []).symm
      _ = (split after).map (pieces ++ ·) := by
          rw [hrun]
          exact finish_run_resumed List.drop_left pieces
  refine ⟨hrun, hwhole, ?_⟩
  rw [hwhole]
  cases split after with
  | error error => rfl
  | ok rest => simp [Except.map]

/-- An escaped brace, a stray one and an island that ends in the name of a reference. -/
def namedAtEnd : Text :=
  "\\\x7b\x7d$\\ref$".toList

/-- What looks like the name of a reference is inside an island.  The brace behind the
island is therefore a brace and opens no reference. -/
theorem split_behind_island_namedAtEnd :
    split (namedAtEnd ++ "\x7bb\x7d$c$".toList) =
        .ok [.plain "\x7b\x7d".toList, .island .dollar "\\ref".toList,
          .plain "\x7bb\x7d".toList, .island .dollar ['c']] ∧
      split (namedAtEnd ++ "\x7bb\x7d$c".toList) = .error .unterminatedNotationIsland := by
  have hsplit : split namedAtEnd =
      .ok [.plain "\x7b\x7d".toList, .island .dollar "\\ref".toList] := by decide +kernel
  have hclosed : split "\x7bb\x7d$c$".toList =
      .ok [.plain "\x7bb\x7d".toList, .island .dollar ['c']] := by decide +kernel
  have hopen : split "\x7bb\x7d$c".toList = .error .unterminatedNotationIsland := by decide +kernel
  have hends : ∃ kind source,
      [Piece.plain "\x7b\x7d".toList, .island .dollar "\\ref".toList].getLast? =
        some (.island kind source) := ⟨_, _, rfl⟩
  obtain ⟨-, hwhole, -⟩ := split_behind_island hsplit (.inr hends) "\x7bb\x7d$c$".toList
  obtain ⟨-, -, herror⟩ := split_behind_island hsplit (.inr hends) "\x7bb\x7d$c".toList
  rw [hclosed] at hwhole
  exact ⟨hwhole, herror.mpr hopen⟩

end TextMode
