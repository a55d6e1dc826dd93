import TextMode.Content.Piece
import TextMode.Error
import TextMode.Text.Blank

/-!
# Splitting mixed content

One pass over the text, by a machine whose state is a mode, the number of braces
open in the current island, and positions in the text.

* In plain text a dollar, `\(` or a reference command opens an island, and a
  backslash before a dollar, a brace or a backslash makes that character literal
  and is dropped itself.  Any other backslash is kept with the character after it.
* In an island a backslash takes the next character with it.  Outside the braces
  of the island a dollar ends a dollar island, `\)` ends a parenthesis island and
  a closing brace ends a reference.
-/

namespace TextMode

/-- The characters to which the splitter reacts outside islands.  They are also
the characters that a backslash makes literal there. -/
def isTrigger (c : Char) : Bool :=
  c = '$' || c = '{' || c = '}' || c = '\\'

def hasTriggers (text : Text) : Bool :=
  text.any isTrigger

/-- What follows the name of a reference command, if `text` starts with one. -/
def afterReferenceName? : Text → Option Text
  | 'e' :: 'q' :: 'r' :: 'e' :: 'f' :: rest => some rest
  | 'r' :: 'e' :: 'f' :: rest => some rest
  | _ => none

/-- The number of characters up to and including the brace of a reference
command whose backslash stands directly before `text`. -/
def referenceOpening? (text : Text) : Option Nat := do
  let rest ← afterReferenceName? text
  match Text.dropLeadingBlanks rest with
  | '{' :: body => some (text.length - body.length)
  | _ => none

/-- The part of a text from one position up to another. -/
def slice (text : Text) (start stop : Nat) : Text :=
  (text.drop start).take (stop - start)

structure Splitter where
  /-- The island being read, or none in plain text. -/
  mode : Option IslandKind := none
  /-- The braces open inside the island. -/
  depth : Nat := 0
  /-- Where the raw text of the piece being read starts. -/
  start : Nat := 0
  /-- The next position to read. -/
  position : Nat := 0
  /-- Plain text that literal escapes have cut loose from the raw text. -/
  pending : Text := []
  pieces : List Piece := []
  deriving DecidableEq, Repr

namespace Splitter

/-- The pieces once the plain text up to `stop` is complete.  Empty plain text is
no piece. -/
def flush (text : Text) (stop : Nat) (state : Splitter) : List Piece :=
  match state.pending ++ slice text state.start stop with
  | [] => state.pieces
  | content => state.pieces ++ [.plain content]

/-- Ends plain text at `stop` and starts an island at `start`. -/
def openIsland (text : Text) (kind : IslandKind) (stop start next : Nat)
    (state : Splitter) : Splitter :=
  { state with
    mode := some kind, start := start, position := next, pending := [],
    pieces := state.flush text stop }

/-- Ends an island at `stop` and returns to plain text at `next`. -/
def closeIsland (text : Text) (kind : IslandKind) (stop next : Nat)
    (state : Splitter) : Splitter :=
  { state with
    mode := none, start := next, position := next,
    pieces := state.pieces ++ [.island kind (slice text state.start stop)] }

def skip (count : Nat) (state : Splitter) : Splitter :=
  { state with position := state.position + count }

/-- Reads a backslash in plain text; `rest` is what follows it. -/
def plainBackslash (text rest : Text) (state : Splitter) : Splitter :=
  let here := state.position
  match referenceOpening? rest, rest with
  | some length, _ => state.openIsland text .reference here here (here + 1 + length)
  | none, '(' :: _ => state.openIsland text .parenthesis here (here + 2) (here + 2)
  | none, c :: _ =>
      if isTrigger c then
        { state with
          pending := state.pending ++ slice text state.start here
          start := here + 1, position := here + 2 }
      else state.skip 2
  | none, [] => state.skip 2

/-- Reads the character `c` in plain text; `rest` is what follows it. -/
def plainStep (text : Text) (c : Char) (rest : Text) (state : Splitter) : Splitter :=
  let here := state.position
  if c = '$' then state.openIsland text .dollar here (here + 1) (here + 1)
  else if c = '\\' then state.plainBackslash text rest
  else state.skip 1

/-- Reads the character `c` in an island; `rest` is what follows it. -/
def islandStep (text : Text) (kind : IslandKind) (c : Char) (rest : Text)
    (state : Splitter) : Splitter :=
  let here := state.position
  if c = '$' then
    if kind = .dollar && state.depth = 0 then state.closeIsland text kind here (here + 1)
    else state.skip 1
  else if c = '{' then { state.skip 1 with depth := state.depth + 1 }
  else if c = '}' then
    if kind = .reference && state.depth = 0 then
      state.closeIsland text kind (here + 1) (here + 1)
    else { state.skip 1 with depth := state.depth - 1 }
  else if c = '\\' then
    if kind = .parenthesis && state.depth = 0 && rest.head? = some ')' then
      state.closeIsland text kind here (here + 2)
    else state.skip 2
  else state.skip 1

/-- Reads the character at the current position. -/
def step (text : Text) (c : Char) (rest : Text) (state : Splitter) : Splitter :=
  match state.mode with
  | none => state.plainStep text c rest
  | some kind => state.islandStep text kind c rest

theorem position_lt_plainBackslash (text rest : Text) (state : Splitter) :
    state.position < (state.plainBackslash text rest).position := by
  unfold plainBackslash
  split
  · simp only [openIsland]; omega
  · simp only [openIsland]; omega
  · split <;> simp only [skip] <;> omega
  · simp only [skip]; omega

/-- Every step advances. -/
theorem position_lt_step (text : Text) (c : Char) (rest : Text) (state : Splitter) :
    state.position < (state.step text c rest).position := by
  unfold step
  split
  · unfold plainStep
    split
    · simp only [openIsland]; omega
    · split
      · exact position_lt_plainBackslash text rest state
      · simp only [skip]; omega
  · unfold islandStep
    repeat' split
    all_goals simp only [closeIsland, skip]; omega

/-- The state after the last character. -/
def run (text : Text) (state : Splitter) : Splitter :=
  match _h : text.drop state.position with
  | [] => state
  | c :: rest => run text (state.step text c rest)
termination_by text.length - state.position
decreasing_by
  have hstep := position_lt_step text c rest state
  have hlength := congrArg List.length _h
  simp only [List.length_drop, List.length_cons] at hlength
  omega

/-- The pieces of a text on which the machine has stopped.  A text may not end
inside an island. -/
def finish (text : Text) (state : Splitter) : Except TexError (List Piece) :=
  match state.mode with
  | none => .ok (state.flush text text.length)
  | some _ => .error .unterminatedNotationIsland

end Splitter

/-- The pieces of mixed content in order.  A text without triggers is one plain
piece, or none if it is empty. -/
def split (text : Text) : Except TexError (List Piece) :=
  if hasTriggers text then (Splitter.run text {}).finish text
  else if text.isEmpty then .ok []
  else .ok [.plain text]

end TextMode
