import TextMode.CommandLine.Command
import TextMode.CommandLine.Console
import TextMode.CommandLine.Table
import TextMode.Log.Trace
import TextMode.Markup.SExpression
import TextMode.Settings.Validation

/-!
# Reports of commands

A command shows texts, one after another, and succeeds or fails.  If it fails, the
last text it shows is the error.
-/

namespace TextMode

/-- A row of the table that `dimen` shows.  A literal that is no dimension has no
values. -/
structure DimensionRow where
  literal : Text
  values : Option (Numeral × LengthUnit × Binary64)
  deriving DecidableEq, Repr

inductive Display where
  | plain (content : Text)
  | labelled (label content : Text)
  | dimensions (rows : List DimensionRow)
  deriving DecidableEq, Repr

namespace DimensionRow

def cells (console : Console) (row : DimensionRow) : List Text :=
  console.markup row.literal ::
    match row.values with
    | some (numeral, unit, em) => [numeral.text, unit.symbol, formatEm em]
    | none => [['-'], ['-'], "not a dimension".toList]

def table (console : Console) (rows : List DimensionRow) : Table where
  title := "Dimensions".toList
  columns :=
    [⟨"Literal".toList, .left⟩, ⟨"Numeral".toList, .left⟩, ⟨"Unit".toList, .left⟩,
      ⟨"Ems".toList, .right⟩]
  rows := rows.map (cells console)

end DimensionRow

namespace Display

/-- A segment with its mode and its text. -/
def ofSegment : Segment → Display
  | .plain text => labelled "TEXT".toList (Text.quote text)
  | .island kind source _ => labelled kind.name (Text.quote source)

def ofNode (node : Node) : Display :=
  plain node.sexpr

def ofError (error : TexError) : Display :=
  labelled (error.key ++ [':']) error.message

/-- The lines that the console shows, each ended by a line feed. -/
def shown (console : Console) : Display → Text
  | plain content => console.plain content ++ ['\n']
  | labelled label content => label ++ ' ' :: console.markup content ++ ['\n']
  | dimensions rows => (DimensionRow.table console rows).render.flatMap (· ++ ['\n'])

end Display

structure Report where
  displays : List Display
  failed : Bool
  deriving DecidableEq, Repr

namespace Report

def success (displays : List Display) : Report :=
  ⟨displays, false⟩

/-- The report of a command that fails after showing something. -/
def failure (before : List Display) (error : TexError) : Report :=
  ⟨before ++ [.ofError error], true⟩

def exitCode (report : Report) : Nat :=
  if report.failed then 1 else 0

def shown (console : Console) (report : Report) : Text :=
  report.displays.flatMap (Display.shown console)

end Report

namespace Command

def dimensionRow (ratios : UnitRatios) (literal : Text) :
    Except ConversionFault DimensionRow := do
  let em ← emsOfText ratios literal
  return ⟨literal, (matchLiteral? literal).map fun found => (found.numeral, found.unit, em)⟩

/-- Shows the segments of a text and then its nodes. -/
def scanReport (text : Text) (level : Option Int) (context : Context) : Report :=
  match TextMode.scan Notation.read context text with
  | .error error => .failure [] error
  | .ok segments =>
      let shown := segments.map Display.ofSegment
      match build Notation.read (level.map .number) context text with
      | .error error => .failure shown error
      | .ok nodes => .success (shown ++ nodes.map Display.ofNode)

def run (settings : Settings) : Command → Except ConversionFault Report
  | dimen literals => do
      let rows ← literals.mapM (dimensionRow settings.ratios)
      return .success [.dimensions rows]
  | expand body arguments =>
      match Expansion.expand settings.maxBuffer arguments body with
      | .error fault => .ok (.failure [] fault.report)
      | .ok result => .ok (.success [.plain result])
  | scan text level font => .ok (scanReport text level { font })

/-- The events of running a command.  A text is scanned once for its segments and once
more for its nodes. -/
def trace (settings : Settings) : Command → List LogEvent
  | dimen literals =>
      Trace.untilFailure (dimensionRow settings.ratios) Trace.emsOfText literals
  | expand body arguments => Trace.expand settings.maxBuffer arguments body
  | scan text _ font =>
      let events := Trace.scan Notation.read Trace.read { font } text
      match TextMode.scan Notation.read { font } text with
      | .ok _ => events ++ events
      | .error _ => events

end Command

end TextMode
