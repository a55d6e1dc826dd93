import TextMode.Dimension.Ems
import TextMode.Expansion.Call
import TextMode.Log.Event
import TextMode.Notation.Reader

/-!
# Traces

A trace lists the events of a computation in the order in which they happen.  Each
function here follows one that computes, and stops where that one fails.
-/

namespace TextMode.Trace

/-- The events of a run over a list, up to and including the first failure. -/
def untilFailure {α β ε : Type} (run : α → Except ε β) (events : α → List LogEvent) :
    List α → List LogEvent
  | [] => []
  | a :: rest =>
      events a ++
        match run a with
        | .ok _ => untilFailure run events rest
        | .error _ => []

def ofPiece : Piece → List LogEvent
  | .plain _ => []
  | .island kind source => [.islandClosed kind source]

/-- The events of splitting a text.  Islands are reported as they close, even if the
text ends inside a later one. -/
def split (text : Text) : List LogEvent :=
  if hasTriggers text then (Splitter.run text {}).pieces.flatMap ofPiece
  else [.noTriggers text]

/-- The events of reading one island. -/
abbrev IslandTrace := Context → Text → List LogEvent

/-- The events of reading the island of a piece. -/
def readPiece (trace : IslandTrace) (context : Context) : Piece → List LogEvent
  | .plain _ => []
  | .island _ source => trace context source

/-- The events of scanning a text.  No island is read before the text is split. -/
def scan (read : IslandReader) (trace : IslandTrace) (context : Context) (text : Text) :
    List LogEvent :=
  split text ++
    match TextMode.split text with
    | .ok pieces => untilFailure (Piece.read read context) (readPiece trace context) pieces
    | .error _ => []

/-- The events of reading one level of notation and then its text boxes. -/
def readLevel (build : Context → Text → Except TexError (List Node)) (trace : IslandTrace) :
    IslandTrace := fun context text =>
  match Notation.Element.read text with
  | .error _ => []
  | .ok elements =>
      untilFailure (fun box => build (box.1.enter context) box.2)
        (fun box => trace (box.1.enter context) box.2) (Notation.Element.allBoxes elements)

def readWithin : Nat → IslandTrace
  | 0 => fun _ _ => []
  | depth + 1 =>
      readLevel (build (Notation.readWithin depth) none)
        (scan (Notation.readWithin depth) (readWithin depth))

/-- The events of reading notation. -/
def read : IslandTrace := fun context text =>
  readWithin (text.length / 7) context text

/-- The events of expanding a body. -/
def expand (limit : Int) (arguments : List Text) (body : Text) : List LogEvent :=
  match Expansion.expand limit arguments body with
  | .ok result => [.expanded body arguments.length result]
  | .error (.overflow limit left right) => [.overflow limit left right]
  | .error (.illegalParameter _) => []

/-- The events of converting a text to ems. -/
def emsOfText (text : Text) : List LogEvent :=
  match Dimension.read? text with
  | some _ => []
  | none => [.noDimension text]

end TextMode.Trace
