import TextMode.CommandLine.Run

/-!
# The program
-/

namespace TextMode.Program

open CommandLine

/-- The variables of the process, each written as its name, an equals sign and its
value. -/
def environment : IO (Entries Text Text) := do
  let content ← IO.FS.readFile "/proc/self/environ"
  let entries := (Text.splitOn '\x00' content.toList).filterMap fun entry =>
    match Word.splitValue entry with
    | (name, some value) => some (name, value)
    | _ => none
  return Entries.ofList entries

/-- The number of the process. -/
def process : IO Text := do
  let content ← IO.FS.readFile "/proc/self/stat"
  return content.toList.takeWhile Char.isDigit

/-- The content of the file of variables, if there is one. -/
def variableFile : IO (Option Text) := do
  try
    let content ← IO.FS.readFile ".env"
    return some content.toList
  catch _ => return none

def write (stream : IO.FS.Stream) (content : Text) : IO Unit :=
  stream.putStr (String.ofList content)

/-- Writes the log file, the directories above it included. -/
def writeLog (path content : Text) : IO Unit := do
  let directory := (path.reverse.dropWhile (· ≠ '/')).reverse
  IO.FS.createDirAll (String.ofList directory)
  IO.FS.withFile (String.ofList path) .append fun handle =>
    handle.putStr (String.ofList content)

/-- The message and the exit code of a fault. -/
def explain : CommandLine.Fault → Text × UInt32
  | .usage error => ("texprep: error: ".toList ++ error.message, 2)
  | .settings (.unreadable cause) => (cause.message, 1)
  | .settings (.invalid details) =>
      (['\n'].intercalate (details.map fun detail =>
        detail.location ++ ": ".toList ++ detail.problem.message), 1)
  | .log .nullCharacter => ("null character in the directory of the log".toList, 1)
  | .log (.refused reason) => (reason, 1)
  | .conversion .noPixels => ("no pixels to an inch".toList, 1)

/-- Writes the log file of an output.  A host that does not let it be written has refused
it. -/
def keepLog (output : CommandLine.Output) : IO (Except CommandLine.Fault CommandLine.Output) :=
  match output.logFile with
  | none => return .ok output
  | some (path, content) => do
      try
        writeLog path content
        return .ok output
      catch error => return .error (.log (.refused error.toString.toList))

def run (arguments : List String) : IO UInt32 := do
  let directory ← IO.currentDir
  let host : CommandLine.Host :=
    { directory := directory.toString.toList, process := ← process }
  let planned :=
    CommandLine.run host (← environment) (← variableFile) (arguments.map String.toList)
  let result ←
    match planned with
    | .ok output => keepLog output
    | .error fault => pure (.error fault)
  match result with
  | .ok output =>
      write (← IO.getStderr) output.stderr
      write (← IO.getStdout) output.stdout
      return output.exitCode.toUInt32
  | .error fault =>
      let (message, code) := explain fault
      write (← IO.getStderr) (message ++ ['\n'])
      return code

end TextMode.Program

def main (arguments : List String) : IO UInt32 :=
  TextMode.Program.run arguments
