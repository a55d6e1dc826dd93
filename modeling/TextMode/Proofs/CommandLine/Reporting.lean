import Mathlib
import TextMode.Proofs.CommandLine.Running
import TextMode.Proofs.Content.Nodes
import TextMode.Proofs.Markup.Lines
import TextMode.Proofs.Notation.Reports

/-!
# Reports without partial results

A text is scanned twice, for its segments and for its nodes, and both scans come to the
same end.  So a command that fails shows its error and nothing else, and a command that
succeeds shows what the library gives.  Before either, the log has to be set up.
-/

namespace TextMode

open CommandLine

/-- The error with which a command fails. -/
inductive Command.Fails (settings : Settings) : Command → TexError → Prop where
  | expand {body : Text} {arguments : List Text} {fault : Expansion.Fault} :
      Expansion.expand settings.maxBuffer arguments body = .error fault →
      Fails settings (.expand body arguments) fault.report
  | scan {text : Text} {level : Option Int} {font : Option Text} {error : TexError} :
      TextMode.scan Notation.read { font } text = .error error →
      Fails settings (.scan text level font) error

/-! ## Lines -/

/-- The line that shows an error. -/
def TexError.line (console : Console) (error : TexError) : Text :=
  error.key ++ ": ".toList ++ console.markup error.message

/-- The line that shows a segment. -/
def Segment.line (console : Console) : Segment → Text
  | plain text => "TEXT ".toList ++ console.markup (Text.quote text)
  | island kind source _ => kind.name ++ ' ' :: console.markup (Text.quote source)

def Node.line (console : Console) (node : Node) : Text :=
  console.plain node.sexpr

theorem Command.Fails.fitsOnLine {settings : Settings} {command : Command} {error : TexError}
    (hfails : command.Fails settings error) : error.FitsOnLine := by
  cases hfails with
  | expand _ => exact Expansion.Fault.fitsOnLine _
  | scan hscan =>
      exact (failsInContent_scan Notation.failsInContent_read _ _ _ hscan).fitsOnLine

/-! ## Nodes -/

variable {settings : Settings} {console : Console}

namespace Command

/-- A command that fails reports the error and nothing in front of it.  All segments are
there before the first of them is shown. -/
theorem Fails.run {command : Command} {error : TexError}
    (hfails : command.Fails settings error) :
    command.run settings = .ok (.failure [] error) := by
  cases hfails with
  | expand hexpand => rw [Command.run, hexpand]
  | scan hscan => rw [Command.run, scanReport, hscan]

/-- A command fails with one error at most, because expanding and scanning are functions. -/
theorem Fails.unique {command : Command} {error other : TexError}
    (hfails : command.Fails settings error) (hother : command.Fails settings other) :
    error = other := by
  cases hfails with
  | expand hexpand =>
      cases hother with
      | expand hexpand' => rw [Except.error.inj (hexpand.symm.trans hexpand')]
  | scan hscan =>
      cases hother with
      | scan hscan' => exact Except.error.inj (hscan.symm.trans hscan')

end Command

end TextMode
