import TextMode.Content.Piece
import TextMode.Log.Level
import TextMode.Text.Decimal
import TextMode.Text.Quoted

/-!
# Log events

An event is what a part of the program reports while it works.  It has a level, the
name of the part it comes from, and a message of one line.
-/

namespace TextMode

inductive LogEvent where
  /-- The log goes into a file from here on. -/
  | configured (file : Text)
  | noTriggers (text : Text)
  | islandClosed (kind : IslandKind) (source : Text)
  | expanded (body : Text) (count : Nat) (result : Text)
  | overflow (limit : Int) (left right : Nat)
  | noDimension (text : Text)
  deriving DecidableEq, Repr

namespace LogEvent

def level : LogEvent → LogLevel
  | configured _ => .info
  | overflow .. => .warning
  | _ => .debug

def origin : LogEvent → Text
  | configured _ => "texprep.cli".toList
  | noTriggers _ | islandClosed .. => "texprep.scanner".toList
  | expanded .. | overflow .. => "texprep.macros".toList
  | noDimension _ => "texprep.dimensions".toList

def message : LogEvent → Text
  | configured file => "Logging configured. Log file: ".toList ++ file
  | noTriggers text => "No notation triggers in ".toList ++ Text.quote text
  | islandClosed kind source =>
      "Island ".toList ++ kind.name ++ " closed: ".toList ++ Text.quote source
  | expanded body count result =>
      "Expanded ".toList ++ Text.quote body ++ " with ".toList ++ Text.decimal count ++
        " argument(s) -> ".toList ++ Text.quote result
  | overflow limit left right =>
      "Macro expansion exceeded ".toList ++ Text.signedDecimal limit ++
        " characters (".toList ++ Text.decimal left ++ " + ".toList ++
        Text.decimal right ++ [')']
  | noDimension text =>
      "No dimension in ".toList ++ Text.quote text ++ ", converting to 0".toList

end LogEvent

end TextMode
