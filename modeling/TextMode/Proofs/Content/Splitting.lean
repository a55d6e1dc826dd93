import Mathlib
import TextMode.Proofs.Content.Grammar

/-!
# Splitting follows the grammar

The splitter keeps positions, while the grammar speaks of the text that is left.
Both are tied together here: from a state in plain text the machine finds the cut of
the text at its position, and from a state in an island it finds the source of that
island.  Hence a text is split exactly if it has a cut, and each span becomes one
piece.
-/

namespace TextMode

theorem slice_add (text : Text) {start stop : Nat} (hstart : start ≤ stop)
    (count : Nat) :
    slice text start (stop + count) = slice text start stop ++ (text.drop stop).take count := by
  obtain ⟨width, rfl⟩ := Nat.exists_eq_add_of_le hstart
  rw [slice, slice, Nat.add_assoc, Nat.add_sub_cancel_left, Nat.add_sub_cancel_left,
    List.take_add, List.drop_drop]

/-- What stands at a position is the slice from there on that has its length.  All slices
that the machine takes are found in this way. -/
theorem slice_of_drop_eq_append {text before after : Text} {start : Nat}
    (hdrop : text.drop start = before ++ after) :
    slice text start (start + before.length) = before := by
  rw [slice, hdrop, Nat.add_sub_cancel_left, List.take_left]

theorem drop_add_of_drop_eq_append {text after : Text} {start : Nat} (before : Text)
    (hdrop : text.drop start = before ++ after) :
    text.drop (start + before.length) = after := by
  rw [← List.drop_drop, hdrop, List.drop_left]

/-- Plain text as a piece, unless it is empty. -/
def plainPiece : Text → List Piece
  | [] => []
  | content => [.plain content]

/-- Puts plain text before pieces. -/
def attach (before : Text) : List Piece → List Piece
  | .plain text :: pieces => .plain (before ++ text) :: pieces
  | pieces => plainPiece before ++ pieces

theorem attach_nil_left (pieces : List Piece) : attach [] pieces = pieces := by
  cases pieces with
  | nil => rfl
  | cons piece pieces => cases piece <;> rfl

/-- Plain text in front of an island cannot join it, so it becomes a piece of its own unless
it is empty. -/
theorem attach_piece_island (before : Text) (kind : IslandKind) (opening source : Text)
    (pieces : List Piece) :
    attach before ((Span.island kind opening source).piece :: pieces) =
      plainPiece before ++ (Span.island kind opening source).piece :: pieces := by
  cases kind <;> rfl

theorem plainPiece_of_ne_nil {content : Text} (hne : content ≠ []) :
    plainPiece content = [.plain content] := by
  cases content with
  | nil => exact absurd rfl hne
  | cons c content => rfl

/-- Plain text may be attached before or after its escapes are resolved.  The unit has to
resolve alone, so that nothing of what follows belongs to it. -/
theorem attach_append_piece {unit : Text} (hunit : ResolvesAlone unit) (before : Text)
    (spans : List Span) :
    attach (before ++ resolveEscapes unit) (spans.map Span.piece) =
      attach before ((prependPlain unit spans).map Span.piece) := by
  have hplain : plainPiece (before ++ resolveEscapes unit) =
      [.plain (before ++ resolveEscapes unit)] :=
    plainPiece_of_ne_nil (by simp [hunit.1])
  cases spans with
  | nil => simp [attach, prependPlain, Span.piece, hplain]
  | cons span spans =>
      cases span with
      | plain run => simp [attach, prependPlain, Span.piece, hunit.2]
      | island kind opening source =>
          cases kind <;> simp [attach, prependPlain, Span.piece, hplain]

namespace Splitter

theorem run_of_drop_eq_nil {text : Text} {state : Splitter}
    (hdrop : text.drop state.position = []) : run text state = state := by
  rw [run]
  split
  · rfl
  · simp_all

/-- As long as a character is left, the run goes on from the state that one step leads
to. -/
theorem run_of_drop_eq_cons {text rest : Text} {c : Char} {state : Splitter}
    (hdrop : text.drop state.position = c :: rest) :
    run text state = run text (state.step text c rest) := by
  rw [run]
  split
  · simp_all
  · next c' rest' hdrop' =>
      obtain ⟨rfl, rfl⟩ := by simpa [hdrop] using hdrop'
      rfl

/-- A backslash at the end of the text takes nothing with it.  The machine moves on by two
all the same, beyond the end of the text. -/
theorem step_strayBackslash (text : Text) (state : Splitter) :
    state.step text '\\' [] = state.skip 2 := by
  cases hmode : state.mode <;>
    simp [step, hmode, plainStep, plainBackslash, referenceOpening?, afterReferenceName?,
      islandStep]

theorem run_strayBackslash {text : Text} {state : Splitter}
    (hdrop : text.drop state.position = ['\\']) :
    run text state = state.skip 2 ∧ text.drop (state.skip 2).position = [] := by
  have hbehind : text.drop (state.skip 2).position = [] := by
    simp only [skip, ← List.drop_drop, hdrop, List.drop_succ_cons, List.drop_nil]
  rw [run_of_drop_eq_cons hdrop, step_strayBackslash, run_of_drop_eq_nil hbehind]
  exact ⟨rfl, hbehind⟩

/-! ## Islands -/

/-- The state behind an island whose source is read completely. -/
def closed (text : Text) (kind : IslandKind) (source : Text) (state : Splitter) : Splitter :=
  let stop := state.position + source.length
  { state.closeIsland text kind (if kind = .reference then stop + 1 else stop)
      (stop + kind.delimiter.length) with depth := 0 }

/-- The outcome of a run from within an island. -/
def outcomeInside (text : Text) (kind : IslandKind) (state : Splitter) :
    Option (Text × Text) → Except TexError (List Piece)
  | none => .error .unterminatedNotationIsland
  | some (source, _) => (run text (state.closed text kind source)).finish text

/-- What a run from within an island ends as.  It stays in the island if that has no end. -/
def EndsInside (text : Text) (kind : IslandKind) (state last : Splitter) :
    Option (Text × Text) → Prop
  | none => last.mode = some kind
  | some (source, _) => last = run text (state.closed text kind source)

/-- A character that is passed inside an island belongs to its source.  So the end that is
found from behind the character is the end that is found from in front of it. -/
theorem endsInside_skip (text : Text) (kind : IslandKind) (state last : Splitter)
    (unit : Text) (depth : Nat) (split : Option (Text × Text)) :
    EndsInside text kind { state.skip unit.length with depth := depth } last split ↔
      EndsInside text kind state last (prependSource unit split) := by
  cases split with
  | none => rfl
  | some parts =>
      simp only [EndsInside, prependSource, Option.map_some, closed, closeIsland, skip,
        List.length_append, Nat.add_assoc]

section IslandSteps

variable {text tail rest : Text} {kind : IslandKind} {depth : Nat} {c : Char} {state : Splitter}

/-- At depth zero the delimiter of its kind ends an island, whichever of the three it is. -/
theorem step_delimiter (hmode : state.mode = some kind) (hdepth : state.depth = 0)
    (hdelimiter : c :: tail = kind.delimiter ++ rest) :
    state.step text c tail = state.closed text kind [] := by
  cases kind <;> simp only [IslandKind.delimiter, List.cons_append, List.nil_append,
    List.cons.injEq] at hdelimiter <;> obtain ⟨rfl, rfl⟩ := hdelimiter <;>
    simp [step, hmode, hdepth, islandStep, closed, closeIsland, IslandKind.delimiter]

theorem run_delimiter (hmode : state.mode = some kind) (hdepth : state.depth = 0)
    (hdrop : text.drop state.position = kind.delimiter ++ rest) :
    run text state = run text (state.closed text kind []) := by
  cases kind <;> rw [run_of_drop_eq_cons hdrop, step_delimiter hmode hdepth rfl]

/-- A backslash inside an island takes the next character with it, and the depth stays.  The
only exception is the delimiter that starts with a backslash. -/
theorem step_escape (hmode : state.mode = some kind) (hdepth : state.depth = depth)
    (hopen : ¬ (depth = 0 ∧ kind = .parenthesis ∧ c = ')')) :
    state.step text '\\' (c :: tail) = { state.skip 2 with depth := depth } := by
  have hopen' : kind = .parenthesis → depth = 0 → c ≠ ')' := by tauto
  simp_all [step, islandStep, skip]

theorem step_openBrace (hmode : state.mode = some kind) (hdepth : state.depth = depth) :
    state.step text '{' tail = { state.skip 1 with depth := depth + 1 } := by
  simp [step, hmode, islandStep, hdepth]

/-- A close brace takes the depth down, but not below zero.  Inside a reference at depth
zero it is the delimiter. -/
theorem step_closeBrace (hmode : state.mode = some kind) (hdepth : state.depth = depth)
    (hopen : ¬ (depth = 0 ∧ kind = .reference)) :
    state.step text '}' tail = { state.skip 1 with depth := depth - 1 } := by
  have hopen' : kind = .reference → depth ≠ 0 := by tauto
  simp_all [step, islandStep, skip]

theorem step_inside (hmode : state.mode = some kind) (hdepth : state.depth = depth)
    (hescape : c ≠ '\\') (hbrace : c ≠ '{') (hbrace' : c ≠ '}')
    (hopen : ¬ (depth = 0 ∧ kind = .dollar ∧ c = '$')) :
    state.step text c tail = { state.skip 1 with depth := depth } := by
  by_cases hdollar : c = '$'
  · have hopen' : kind = .dollar → depth ≠ 0 := by tauto
    simp_all [step, islandStep, skip]
  · simp_all [step, islandStep, skip]

end IslandSteps

/-- From within an island the machine finds the source of the island.  The induction follows
the reading of the source, one step of the machine for each of its equations. -/
theorem endsInside_run {text rest : Text} {kind : IslandKind} {depth : Nat}
    {state : Splitter} (hmode : state.mode = some kind) (hdepth : state.depth = depth)
    (hdrop : text.drop state.position = rest) :
    EndsInside text kind state (run text state) (islandSource? kind depth rest) := by
  fun_induction islandSource? kind depth rest generalizing state with
  | case1 =>
      rw [run_of_drop_eq_nil hdrop]
      exact hmode
  | case2 depth =>
      rw [(run_strayBackslash hdrop).1]
      exact hmode
  | case3 depth c tail hclose =>
      obtain ⟨rfl, rfl, rfl⟩ := hclose
      exact run_delimiter hmode hdepth hdrop
  | case4 depth c tail hopen ih =>
      rw [run_of_drop_eq_cons hdrop, step_escape hmode hdepth hopen,
        ← endsInside_skip _ _ _ _ _ depth]
      exact ih hmode rfl (drop_add_of_drop_eq_append ['\\', c] hdrop)
  | case5 depth tail _ ih =>
      rw [run_of_drop_eq_cons hdrop, step_openBrace hmode hdepth,
        ← endsInside_skip _ _ _ _ _ (depth + 1)]
      exact ih hmode rfl (drop_add_of_drop_eq_append ['{'] hdrop)
  | case6 depth tail hclose =>
      obtain ⟨rfl, rfl⟩ := hclose
      exact run_delimiter hmode hdepth hdrop
  | case7 depth tail hopen _ _ ih =>
      rw [run_of_drop_eq_cons hdrop, step_closeBrace hmode hdepth hopen,
        ← endsInside_skip _ _ _ _ _ (depth - 1)]
      exact ih hmode rfl (drop_add_of_drop_eq_append ['}'] hdrop)
  | case8 depth c tail _ _ _ hclose =>
      obtain ⟨rfl, rfl, rfl⟩ := hclose
      exact run_delimiter hmode hdepth hdrop
  | case9 depth c tail hescape hbrace hbrace' hopen ih =>
      rw [run_of_drop_eq_cons hdrop, step_inside hmode hdepth hescape hbrace hbrace' hopen,
        ← endsInside_skip _ _ _ _ _ depth]
      exact ih hmode rfl (drop_add_of_drop_eq_append [c] hdrop)

/-- The run from within an island gives what the reading of its source says.  Without a
delimiter the machine ends inside and the text is unterminated. -/
theorem finish_run_island {text rest : Text} {kind : IslandKind} {depth : Nat}
    {state : Splitter} (hmode : state.mode = some kind) (hdepth : state.depth = depth)
    (hdrop : text.drop state.position = rest) :
    (run text state).finish text =
      outcomeInside text kind state (islandSource? kind depth rest) := by
  have hends := endsInside_run hmode hdepth hdrop
  cases hsource : islandSource? kind depth rest with
  | none =>
      rw [hsource] at hends
      have hlast : (run text state).mode = some kind := hends
      rw [finish, hlast, outcomeInside]
  | some parts =>
      rw [hsource] at hends
      have hlast : run text state = run text (state.closed text kind parts.1) := hends
      rw [hlast, outcomeInside]

/-! ## Plain text -/

/-- Plain text that is read and not yet a piece. -/
def content (text : Text) (state : Splitter) : Text :=
  state.pending ++ slice text state.start state.position

/-- The outcome of a run from within plain text. -/
def outcomeInPlain (text : Text) (state : Splitter) :
    Option (List Span) → Except TexError (List Piece)
  | none => .error .unterminatedNotationIsland
  | some spans => .ok (state.pieces ++ attach (state.content text) (spans.map Span.piece))

theorem flush_eq (text : Text) (stop : Nat) (state : Splitter) :
    state.flush text stop =
      state.pieces ++ plainPiece (state.pending ++ slice text state.start stop) := by
  rw [flush]
  cases state.pending ++ slice text state.start stop with
  | nil => simp [plainPiece]
  | cons c content => rfl

theorem flush_position (text : Text) (state : Splitter) :
    state.flush text state.position = state.pieces ++ plainPiece (state.content text) :=
  flush_eq text state.position state

theorem finish_of_drop_eq_nil {text : Text} {state : Splitter} (hmode : state.mode = none)
    (hdrop : text.drop state.position = []) :
    state.finish text = .ok (state.pieces ++ plainPiece (state.content text)) := by
  have hlength : text.length ≤ state.position := List.drop_eq_nil_iff.mp hdrop
  have hslice : slice text state.start text.length = slice text state.start state.position := by
    rw [slice, slice, List.take_of_length_le (by simp), List.take_of_length_le]
    simp only [List.length_drop]
    omega
  rw [← flush_position, finish, hmode, flush, flush, hslice]

/-- Characters that are passed in plain text are added to what is pending, as the slice up
to the position grows by them. -/
theorem content_skip {text unit : Text} {state : Splitter}
    (hstart : state.start ≤ state.position) (count : Nat)
    (htake : (text.drop state.position).take count = unit) :
    (state.skip count).content text = state.content text ++ unit := by
  simp only [content, skip, slice_add text hstart, htake, List.append_assoc]

/-- A step that reads plain text changes the outcome as the cut of the text says.  The unit
that is passed is attached to the first piece, or is one itself in front of an island. -/
theorem outcomeInPlain_prepend {text unit : Text} (state next : Splitter)
    (hunit : ResolvesAlone unit) (hpieces : next.pieces = state.pieces)
    (hcontent : next.content text = state.content text ++ resolveEscapes unit)
    (split : Option (List Span)) :
    outcomeInPlain text next split =
      outcomeInPlain text state (split.map (prependPlain unit)) := by
  cases split with
  | none => rfl
  | some spans =>
      simp only [outcomeInPlain, Option.map_some, hpieces, hcontent,
        attach_append_piece hunit]

/-- The state behind the opening of an island. -/
def opened (text : Text) (kind : IslandKind) (opening : Text) (state : Splitter) : Splitter :=
  let next := state.position + opening.length
  state.openIsland text kind state.position
    (if kind = .reference then state.position else next) next

theorem step_of_opening? {text tail opening body : Text} {c : Char} {kind : IslandKind}
    {state : Splitter} (hmode : state.mode = none)
    (hopening : opening? (c :: tail) = some (kind, opening, body)) :
    state.step text c tail = state.opened text kind opening := by
  obtain ⟨hopens, htext⟩ := opening?_eq_some_iff.mp hopening
  simp only [step, hmode, plainStep]
  cases kind with
  | dollar =>
      obtain rfl : opening = ['$'] := hopens
      obtain ⟨rfl, rfl⟩ : c = '$' ∧ tail = body := by simpa using htext
      simp [opened]
  | parenthesis =>
      obtain rfl : opening = ['\\', '('] := hopens
      obtain ⟨rfl, rfl⟩ : c = '\\' ∧ tail = '(' :: body := by simpa using htext
      simp [plainBackslash, referenceOpening?, afterReferenceName?, opened]
  | reference =>
      obtain ⟨command, rfl⟩ : ∃ command, opening = '\\' :: command := by
        obtain ⟨name, blanks, -, -, rfl⟩ := hopens
        exact ⟨_, rfl⟩
      obtain ⟨rfl, rfl⟩ : c = '\\' ∧ tail = command ++ body := by simpa using htext
      have hlength := referenceOpening?_eq_some_iff.mpr ⟨command, body, hopens, rfl, rfl⟩
      simp only [plainBackslash, hlength, opened, List.length_cons, if_true,
        if_false, Char.reduceEq]
      congr 1
      omega

/-- An opening is recognised as a whole at its first character, and the machine goes on
behind it. -/
theorem run_opening {text opening body : Text} {kind : IslandKind} {state : Splitter}
    (hmode : state.mode = none) (hdrop : text.drop state.position = opening ++ body)
    (hopens : kind.Opens opening) :
    run text state = run text (state.opened text kind opening) := by
  obtain ⟨c, tail, htail⟩ := List.length_pos_iff_exists_cons.mp hopens.length_pos
  have hopening : opening? (c :: (tail ++ body)) = some (kind, opening, body) := by
    rw [← List.cons_append, ← htail]
    exact opening?_append kind hopens body
  have hcons : text.drop state.position = c :: (tail ++ body) := by
    rw [hdrop, htail, List.cons_append]
  rw [run_of_drop_eq_cons hcons, step_of_opening? hmode hopening]

/-- Behind an opening the outcome is that of the source of the island, and the plain text
before it has become a piece. -/
theorem finish_run_opening {text opening body : Text} {kind : IslandKind} {state : Splitter}
    (hmode : state.mode = none) (hdepth : state.depth = 0)
    (hdrop : text.drop state.position = opening ++ body) (hopens : kind.Opens opening) :
    (run text state).finish text =
      outcomeInside text kind (state.opened text kind opening) (islandSource? kind 0 body) := by
  rw [run_opening hmode hdrop hopens]
  exact finish_run_island rfl hdepth (drop_add_of_drop_eq_append opening hdrop)

theorem drop_closed_opened {text opening source rest : Text} {kind : IslandKind}
    {state : Splitter}
    (hdrop : text.drop state.position = opening ++ (source ++ (kind.delimiter ++ rest))) :
    text.drop ((state.opened text kind opening).closed text kind source).position = rest :=
  drop_add_of_drop_eq_append kind.delimiter
    (drop_add_of_drop_eq_append source (drop_add_of_drop_eq_append opening hdrop))

theorem content_closed_opened (text : Text) (kind : IslandKind) (opening source : Text)
    (state : Splitter) :
    ((state.opened text kind opening).closed text kind source).content text = [] := by
  simp [content, opened, openIsland, closed, closeIsland, slice]

/-- An island adds the plain text before it and its own span.  Nothing is pending behind
it. -/
theorem pieces_closed_opened {text opening source rest : Text} {kind : IslandKind}
    {state : Splitter}
    (hdrop : text.drop state.position = opening ++ (source ++ (kind.delimiter ++ rest))) :
    ((state.opened text kind opening).closed text kind source).pieces =
      state.pieces ++ plainPiece (state.content text) ++
        [(Span.island kind opening source).piece] := by
  have hsource := drop_add_of_drop_eq_append opening hdrop
  cases kind with
  | dollar =>
      simp [opened, openIsland, closed, closeIsland, flush_position, Span.piece,
        slice_of_drop_eq_append hsource]
  | parenthesis =>
      simp [opened, openIsland, closed, closeIsland, flush_position, Span.piece,
        slice_of_drop_eq_append hsource]
  | reference =>
      have hraw : text.drop state.position = (opening ++ source ++ ['}']) ++ rest := by
        simpa [IslandKind.delimiter] using hdrop
      have hslice := slice_of_drop_eq_append hraw
      simp only [List.length_append, List.length_cons, List.length_nil] at hslice
      simp [opened, openIsland, closed, closeIsland, flush_position, Span.piece,
        Nat.add_assoc, ← hslice]

/-- The state behind a literal escape. -/
def dropBackslash (text : Text) (state : Splitter) : Splitter :=
  { state with
    pending := state.content text, start := state.position + 1, position := state.position + 2 }

/-- A backslash that opens nothing is a literal escape or stays in the text.  In both cases
the next character is taken with it, so that it cannot open anything either. -/
theorem step_of_opening?_eq_none {text tail : Text} {c : Char} {state : Splitter}
    (hmode : state.mode = none) (hopening : opening? ('\\' :: c :: tail) = none) :
    state.step text '\\' (c :: tail) =
      if isTrigger c then state.dropBackslash text else state.skip 2 := by
  obtain ⟨hparenthesis, -⟩ := opening?_backslash_eq_none_iff.mp hopening
  simp only [step, hmode, plainStep, plainBackslash, referenceOpening?_eq_none hopening]
  rw [if_neg (by decide), if_pos trivial]
  split
  · simp_all
  · simp_all
  · next c' _ _ heq =>
      obtain ⟨rfl, rfl⟩ := by simpa using heq
      simp only [dropBackslash, content, hmode]
  · simp_all

/-- A literal escape leaves its character behind.  What was pending is cut loose from the
raw text, because the slice would hold the backslash. -/
theorem content_dropBackslash {text tail : Text} {c : Char} {state : Splitter}
    (hdrop : text.drop state.position = '\\' :: c :: tail) (htrigger : isTrigger c) :
    (state.dropBackslash text).content text =
      state.content text ++ resolveEscapes ['\\', c] := by
  have hnext : text.drop (state.position + 1) = [c] ++ tail :=
    drop_add_of_drop_eq_append ['\\'] hdrop
  have hslice : slice text (state.position + 1) (state.position + 2) = [c] :=
    slice_of_drop_eq_append hnext
  rw [resolveEscapes_pair, if_pos htrigger, ← hslice]
  rfl

theorem step_character {text tail : Text} {c : Char} {state : Splitter}
    (hmode : state.mode = none) (hdollar : c ≠ '$') (hescape : c ≠ '\\') :
    state.step text c tail = state.skip 1 := by
  simp [step, hmode, plainStep, hdollar, hescape]

/-- The machine reads a unit of plain text from one state to another. -/
structure Passes (text unit : Text) (state next : Splitter) : Prop where
  run_eq : run text state = run text next
  mode : next.mode = none
  depth : next.depth = state.depth
  start_le : next.start ≤ next.position
  position : next.position = state.position + unit.length
  pieces : next.pieces = state.pieces
  content : next.content text = state.content text ++ resolveEscapes unit

/-- The text that is left behind a unit is what follows it. -/
theorem Passes.drop {text unit rest : Text} {state next : Splitter}
    (hpasses : Passes text unit state next) (hdrop : text.drop state.position = unit ++ rest) :
    text.drop next.position = rest := by
  rw [hpasses.position]
  exact drop_add_of_drop_eq_append unit hdrop

theorem passes_character {text tail : Text} {c : Char} {state : Splitter}
    (hmode : state.mode = none) (hstart : state.start ≤ state.position)
    (hdrop : text.drop state.position = c :: tail) (hdollar : c ≠ '$') (hescape : c ≠ '\\') :
    Passes text [c] state (state.skip 1) where
  run_eq := by rw [run_of_drop_eq_cons hdrop, step_character hmode hdollar hescape]
  mode := hmode
  depth := rfl
  start_le := Nat.le_add_right_of_le hstart
  position := rfl
  pieces := rfl
  content := by
    have htake : (text.drop state.position).take 1 = [c] := by rw [hdrop]; rfl
    rw [content_skip hstart 1 htake, resolveEscapes_char hescape]
    rfl

theorem passes_dropBackslash {text tail : Text} {c : Char} {state : Splitter}
    (hmode : state.mode = none) (hdrop : text.drop state.position = '\\' :: c :: tail)
    (hopening : opening? ('\\' :: c :: tail) = none) (htrigger : isTrigger c) :
    Passes text ['\\', c] state (state.dropBackslash text) where
  run_eq := by
    rw [run_of_drop_eq_cons hdrop, step_of_opening?_eq_none hmode hopening, if_pos htrigger]
  mode := hmode
  depth := rfl
  start_le := Nat.le_succ _
  position := rfl
  pieces := rfl
  content := content_dropBackslash hdrop htrigger

theorem passes_keptBackslash {text tail : Text} {c : Char} {state : Splitter}
    (hmode : state.mode = none) (hstart : state.start ≤ state.position)
    (hdrop : text.drop state.position = '\\' :: c :: tail)
    (hopening : opening? ('\\' :: c :: tail) = none) (htrigger : ¬ isTrigger c) :
    Passes text ['\\', c] state (state.skip 2) where
  run_eq := by
    rw [run_of_drop_eq_cons hdrop, step_of_opening?_eq_none hmode hopening, if_neg htrigger]
  mode := hmode
  depth := rfl
  start_le := Nat.le_add_right_of_le hstart
  position := rfl
  pieces := rfl
  content := by
    have htake : (text.drop state.position).take 2 = ['\\', c] := by rw [hdrop]; rfl
    rw [content_skip hstart 2 htake, resolveEscapes_pair, if_neg htrigger]

/-- An escape is passed whether its backslash is dropped or kept.  The two cases differ in
what becomes of the pending text. -/
theorem exists_passes_escape {text tail : Text} {c : Char} {state : Splitter}
    (hmode : state.mode = none) (hstart : state.start ≤ state.position)
    (hdrop : text.drop state.position = '\\' :: c :: tail)
    (hopening : opening? ('\\' :: c :: tail) = none) :
    ∃ next, Passes text ['\\', c] state next := by
  by_cases htrigger : isTrigger c
  · exact ⟨_, passes_dropBackslash hmode hdrop hopening htrigger⟩
  · exact ⟨_, passes_keptBackslash hmode hstart hdrop hopening htrigger⟩

/-- From within plain text the machine finds the cut of the text that is left.

The induction follows the reading of the cut.  An island is read in one go, so the text gets
shorter by all of it. -/
theorem finish_run_plain {text rest : Text} {state : Splitter} (hmode : state.mode = none)
    (hdepth : state.depth = 0) (hstart : state.start ≤ state.position)
    (hdrop : text.drop state.position = rest) :
    (run text state).finish text = outcomeInPlain text state (cut? rest) := by
  fun_induction cut? rest generalizing state with
  | case1 rest kind opening body hopening source after hsource ih =>
      obtain ⟨hopens, rfl⟩ := opening?_eq_some_iff.mp hopening
      obtain ⟨-, rfl⟩ := islandSource?_eq_some_iff.mp hsource
      rw [finish_run_opening hmode hdepth hdrop hopens, hsource, outcomeInside,
        ih rfl rfl (Nat.le_refl _) (drop_closed_opened hdrop)]
      cases cut? after with
      | none => rfl
      | some spans =>
          simp only [outcomeInPlain, Option.map_some, List.map_cons, attach_piece_island,
            content_closed_opened, attach_nil_left, pieces_closed_opened hdrop,
            List.append_assoc, List.cons_append, List.nil_append]
  | case2 rest kind opening body hopening hsource =>
      obtain ⟨hopens, rfl⟩ := opening?_eq_some_iff.mp hopening
      rw [finish_run_opening hmode hdepth hdrop hopens, hsource]
      rfl
  | case3 =>
      rw [run_of_drop_eq_nil hdrop, finish_of_drop_eq_nil hmode hdrop]
      simp [outcomeInPlain, attach]
  | case4 hopening =>
      obtain ⟨hrun, hbehind⟩ := run_strayBackslash hdrop
      have hcontent : (state.skip 2).content text = state.content text ++ ['\\'] :=
        content_skip hstart 2 (by rw [hdrop]; rfl)
      have hmode' : (state.skip 2).mode = none := hmode
      rw [hrun, finish_of_drop_eq_nil hmode' hbehind, hcontent, plainPiece_of_ne_nil (by simp)]
      rfl
  | case5 c tail hopening ih =>
      obtain ⟨next, hnext⟩ := exists_passes_escape hmode hstart hdrop hopening
      rw [hnext.run_eq, ← outcomeInPlain_prepend state next (resolvesAlone_escape c)
        hnext.pieces hnext.content]
      exact ih hnext.mode (hnext.depth.trans hdepth) hnext.start_le (hnext.drop hdrop)
  | case6 c tail hopening hescape ih =>
      have hdollar : c ≠ '$' := by
        rintro rfl
        simp [opening?] at hopening
      have hnext := passes_character hmode hstart hdrop hdollar hescape
      rw [hnext.run_eq, ← outcomeInPlain_prepend state _ (resolvesAlone_char hescape)
        hnext.pieces hnext.content]
      exact ih hnext.mode (hnext.depth.trans hdepth) hnext.start_le (hnext.drop hdrop)

end Splitter

/-! ## Whole texts -/

/-- A text without triggers is cut into one plain span, or none if it is empty, and no
escape is resolved in it. -/
theorem cut?_of_not_hasTriggers {text : Text} (htriggers : hasTriggers text = false) :
    cut? text = some (if text = [] then [] else [.plain text]) ∧ resolveEscapes text = text := by
  have hplain : PlainRun text [] ∧ resolveEscapes text = text := by
    induction text with
    | nil => exact ⟨.nil, rfl⟩
    | cons c text ih =>
        simp only [hasTriggers, List.any_cons, Bool.or_eq_false_iff] at htriggers
        obtain ⟨hplain, hresolve⟩ := ih htriggers.2
        have hc : c ≠ '$' ∧ c ≠ '\\' := by
          constructor <;> rintro rfl <;> simp [isTrigger] at htriggers
        exact ⟨.char hc.1 hc.2 hplain, by rw [resolveEscapes_char hc.2, hresolve]⟩
  have hcut := cut?_plain hplain.1 (by simp) cut?_nil
  rw [List.append_nil] at hcut
  exact ⟨hcut, hplain.2⟩

/-- A text is split as it is cut, the texts without triggers included.  The machine is run
on all others only. -/
theorem split_eq_cut? (text : Text) :
    split text = match cut? text with
      | some spans => .ok (spans.map Span.piece)
      | none => .error .unterminatedNotationIsland := by
  rw [split]
  split
  · have hrun : (Splitter.run text {}).finish text =
        Splitter.outcomeInPlain text {} (cut? text) :=
      Splitter.finish_run_plain rfl rfl (Nat.le_refl _) rfl
    rw [hrun]
    cases cut? text with
    | none => rfl
    | some spans => simp [Splitter.outcomeInPlain, Splitter.content, slice, attach_nil_left]
  · next htriggers =>
      obtain ⟨hcut, hresolve⟩ := cut?_of_not_hasTriggers (by simpa using htriggers)
      rw [hcut]
      cases text with
      | nil => rfl
      | cons c text => simp [Span.piece, hresolve]

/-- The pieces of a text are those of its cut.  So what holds of the spans of every cut
holds of the pieces. -/
theorem exists_cut_of_split {text : Text} {pieces : List Piece} (hsplit : split text = .ok pieces) :
    ∃ spans, Cut text spans ∧ pieces = spans.map Span.piece := by
  rw [split_eq_cut?] at hsplit
  cases hcut : cut? text with
  | none => simp [hcut] at hsplit
  | some spans =>
      rw [hcut] at hsplit
      exact ⟨spans, cut?_eq_some_iff.mp hcut, (Except.ok.inj hsplit).symm⟩

/-- The source of an island is a part of the text.  This is what bounds the depth to which
islands can be nested. -/
theorem length_source_le_of_split {text source : Text} {pieces : List Piece}
    {kind : IslandKind} (hsplit : split text = .ok pieces)
    (hpiece : .island kind source ∈ pieces) : source.length ≤ text.length := by
  obtain ⟨spans, hcut, rfl⟩ := exists_cut_of_split hsplit
  obtain ⟨span, hspan, hsource⟩ := List.mem_map.mp hpiece
  calc
    source.length = span.piece.source.length := by rw [hsource, Piece.source]
    _ ≤ span.raw.length := span.length_source_piece_le
    _ ≤ text.length := by
      rw [← hcut.flatMap_raw]
      exact (List.sublist_flatten_of_mem (List.mem_map_of_mem hspan)).length_le

/-- No plain piece is empty, because the runs of a cut are not and escapes keep a
character. -/
theorem content_ne_nil_of_split {text content : Text} {pieces : List Piece}
    (hsplit : split text = .ok pieces) (hpiece : .plain content ∈ pieces) : content ≠ [] := by
  obtain ⟨spans, hcut, rfl⟩ := exists_cut_of_split hsplit
  obtain ⟨span, hspan, hcontent⟩ := List.mem_map.mp hpiece
  cases span with
  | plain run =>
      rw [← Piece.plain.inj hcontent]
      exact resolveEscapes_ne_nil (hcut.run_ne_nil hspan)
  | island kind opening source => cases kind <;> cases hcontent

/-- Only the empty text has no pieces. -/
theorem pieces_eq_nil_iff {text : Text} {pieces : List Piece} (hsplit : split text = .ok pieces) :
    pieces = [] ↔ text = [] := by
  constructor
  · rintro rfl
    obtain ⟨spans, hcut, hspans⟩ := exists_cut_of_split hsplit
    obtain rfl := List.map_eq_nil_iff.mp hspans.symm
    exact hcut.flatMap_raw.symm
  · rintro rfl
    exact (Except.ok.inj hsplit).symm

/-- Splitting recognises the grammar of spans.  A text is split exactly if it has a cut;
the cut is the only one, and each of its spans becomes one piece. -/
theorem split_recognises_cuts (text : Text) :
    (∀ pieces, split text = .ok pieces ↔
      ∃ spans, Cut text spans ∧ (∀ other, Cut text other → other = spans) ∧
        spans.flatMap Span.raw = text ∧ pieces = spans.map Span.piece) ∧
    (∀ error, split text = .error error ↔
      error = .unterminatedNotationIsland ∧ ¬ ∃ spans, Cut text spans) := by
  rw [split_eq_cut?]
  constructor
  · intro pieces
    constructor
    · intro hsplit
      cases hcut : cut? text with
      | none => simp [hcut] at hsplit
      | some spans =>
          rw [hcut] at hsplit
          have hcut' := cut?_eq_some_iff.mp hcut
          exact ⟨spans, hcut', fun other hother => hother.unique hcut', hcut'.flatMap_raw,
            (Except.ok.inj hsplit).symm⟩
    · rintro ⟨spans, hcut, -, -, rfl⟩
      rw [cut?_eq_some_iff.mpr hcut]
  · intro error
    constructor
    · intro hsplit
      cases hcut : cut? text with
      | none =>
          rw [hcut] at hsplit
          refine ⟨(Except.error.inj hsplit).symm, ?_⟩
          rintro ⟨spans, hspans⟩
          rw [cut?_eq_some_iff.mpr hspans] at hcut
          simp at hcut
      | some spans => simp [hcut] at hsplit
    · rintro ⟨rfl, hno⟩
      cases hcut : cut? text with
      | none => rfl
      | some spans => exact absurd ⟨spans, cut?_eq_some_iff.mp hcut⟩ hno

end TextMode
