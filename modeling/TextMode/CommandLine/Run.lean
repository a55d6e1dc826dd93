import TextMode.CommandLine.Help
import TextMode.CommandLine.Report

/-!
# Running the command line

The arguments are read first, then the settings are loaded, then the log is set up, and
then the command runs.  Events of the configured level or above go to the error output.
If a directory for logs is configured, all events go to a file there, and the first of
them names it.  A file that cannot be made ends the run before its command has started.
-/

namespace TextMode.CommandLine

/-- Where the program runs. -/
structure Host where
  /-- The absolute path of the working directory. -/
  directory : Text
  /-- The number of the process. -/
  process : Text
  /-- Whether the host looks after the log, so that the program keeps none. -/
  logs : Bool := false
  /-- Why no log file can be made in a directory, if there is a reason. -/
  refusal? : Text → Option Text := fun _ => none

structure Output where
  exitCode : Nat
  stdout : Text
  stderr : Text := []
  /-- The path of the log file and its content. -/
  logFile : Option (Text × Text) := none
  deriving DecidableEq, Repr

/-- Why a log cannot be set up. -/
inductive LogFault where
  /-- No path holds a null character. -/
  | nullCharacter
  /-- The host does not make the directory or the file. -/
  | refused (reason : Text)
  deriving DecidableEq, Repr

/-- Why no command is run to its end. -/
inductive Fault where
  | usage (error : UsageError)
  | settings (fault : Settings.Fault)
  | log (fault : LogFault)
  | conversion (fault : ConversionFault)
  deriving DecidableEq, Repr

namespace Host

/-- The log file in a directory. -/
def logFile (host : Host) (directory : Text) : Text :=
  Path.join host.directory
    (Path.join directory ("texprep.".toList ++ host.process ++ ".log".toList))

/-- Makes a directory and opens the log file in it. -/
def openLog (host : Host) (directory : Text) : Except LogFault Text :=
  if '\x00' ∈ directory then .error .nullCharacter
  else
    match host.refusal? directory with
    | some reason => .error (.refused reason)
    | none => .ok (host.logFile directory)

/-- The log file of a run, if it has one. -/
def setUpLog (host : Host) (settings : Settings) : Except LogFault (Option Text) :=
  if host.logs then .ok none
  else
    match settings.directory with
    | some directory => some <$> host.openLog directory
    | none => .ok none

end Host

/-- A line of the error output. -/
def messageLine (event : LogEvent) : Text :=
  event.level.name ++ ": ".toList ++ event.message ++ ['\n']

/-- A line of the log file. -/
def recordLine (event : LogEvent) : Text :=
  let name := event.level.name
  name ++ Table.spaces (8 - name.length) ++ " | ".toList ++ event.origin ++ " | ".toList ++
    event.message ++ ['\n']

/-- The events of a run, the opening of the log file included. -/
def events (logFile : Option Text) (settings : Settings) (command : Command) : List LogEvent :=
  (logFile.map .configured).toList ++ command.trace settings

def runWith (console : Console) (host : Host) (settings : Settings) (command : Command) :
    Except Fault Output := do
  let logFile ← (host.setUpLog settings).mapError .log
  let report ← (command.run settings).mapError .conversion
  let output : Output := { exitCode := report.exitCode, stdout := report.shown console }
  if host.logs then return output
  else
    let events := events logFile settings command
    let urgent := events.filter fun event => settings.level.severity ≤ event.level.severity
    return { output with
      stderr := urgent.flatMap messageLine
      logFile := logFile.map fun path => (path, events.flatMap recordLine) }

/-- Runs the program with arguments on a console, in an environment, with a file of
variables or without. -/
def runOn (console : Console) (host : Host) (environment : Entries Text Text)
    (file : Option Text) (arguments : List Text) : Except Fault Output := do
  match ← (Request.read arguments).mapError .usage with
  | .help topic => return { exitCode := 0, stdout := helpText topic }
  | .version => return { exitCode := 0, stdout := versionText }
  | .run command =>
      let settings ← (Settings.load environment file).mapError .settings
      runWith console host settings command

/-- Runs the program on the standard console. -/
def run (host : Host) (environment : Entries Text Text) (file : Option Text)
    (arguments : List Text) : Except Fault Output :=
  runOn .standard host environment file arguments

end TextMode.CommandLine
