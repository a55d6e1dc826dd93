import TextMode.CommandLine.Command
import TextMode.CommandLine.Switch
import TextMode.Settings.Number

/-!
# Reading arguments

The arguments are perhaps switches, the name of a command, and the switches and the
operands of the command.  The operands stand together; whatever is left over makes the
arguments wrong, but a switch that asks for help is answered before that is noticed.
-/

namespace TextMode.CommandLine

inductive UsageError where
  | ambiguous (cause : Ambiguity)
  | unexpectedValue (switch : Switch) (value : Text)
  | missingValue (switch : Switch)
  | notInteger (switch : Switch) (value : Text)
  | unknownCommand (given : Text)
  | missing (operands : List Text)
  | surplus (arguments : List Text)
  deriving DecidableEq, Repr

/-- What the arguments ask for. -/
inductive Request where
  | help (topic : Option CommandName)
  | version
  | run (command : Command)
  deriving DecidableEq, Repr

/-! ### Integers -/

/-- The values of decimal digits, with single underscores between them if one likes. -/
def readDigits? : Text → Option (List Nat)
  | [] => none
  | [c] => (Text.decimalDigit? c).map fun d => [d]
  | c :: '_' :: rest => do
      let d ← Text.decimalDigit? c
      let digits ← readDigits? rest
      return d :: digits
  | c :: rest => do
      let d ← Text.decimalDigit? c
      let digits ← readDigits? rest
      return d :: digits

/-- A natural number of at most 4300 digits. -/
def readNatural? (s : Text) : Option Nat := do
  let digits ← readDigits? s
  if digits.length ≤ 4300 then some (digits.foldl (fun n d => 10 * n + d) 0) else none

/-- An integer with an optional sign and with white space around it. -/
def readInteger? (s : Text) : Option Int :=
  match Settings.trimSpaces s with
  | '-' :: rest => (readNatural? rest).map fun n => -(n : Int)
  | '+' :: rest => (readNatural? rest).map Int.ofNat
  | trimmed => (readNatural? trimmed).map Int.ofNat

/-! ### The arguments of a command -/

/-- What has been gathered from the words after the name of a command. -/
structure Gathered where
  level : Option Int := none
  font : Option Text := none
  /-- The operands of the first run, the separator among them. -/
  operands : List Text := []
  /-- Whether a switch has ended the first run. -/
  closed : Bool := false
  surplus : List Text := []
  deriving DecidableEq, Repr

namespace Gathered

def addOperand (gathered : Gathered) (text : Text) : Gathered :=
  if gathered.closed then { gathered with surplus := gathered.surplus ++ [text] }
  else { gathered with operands := gathered.operands ++ [text] }

/-- Ends the first run of operands, if it has begun. -/
def close (gathered : Gathered) : Gathered :=
  { gathered with closed := gathered.closed || !gathered.operands.isEmpty }

def addUnknown (gathered : Gathered) (text : Text) : Gathered :=
  { gathered.close with surplus := gathered.surplus ++ [text] }

def set (gathered : Gathered) (switch : Switch) (value : Text) :
    Except UsageError Gathered :=
  match switch with
  | .level =>
      match readInteger? value with
      | some n => .ok { gathered.close with level := some n }
      | none => .error (.notInteger switch value)
  | .font => .ok { gathered.close with font := some value }
  | .help | .version => .error (.unexpectedValue switch value)

end Gathered

/-- Gathers words one after another.  Nothing is gathered if help is asked for. -/
def gather (gathered : Gathered) : List Word → Except UsageError (Option Gathered)
  | [] => .ok (some gathered)
  | .operand text :: rest => gather (gathered.addOperand text) rest
  | .separator :: rest => gather (gathered.addOperand separator) rest
  | .unknown text :: rest => gather (gathered.addUnknown text) rest
  | .switch switch (some value) :: rest => do
      let gathered ← gathered.set switch value
      gather gathered rest
  | .switch switch none :: rest =>
      if switch.takesValue then
        match rest with
        | .operand value :: rest => do
            let gathered ← gathered.set switch value
            gather gathered rest
        | _ => .error (.missingValue switch)
      else .ok none

/-- The first operand with the separator before or behind it, and the rest. -/
def takeOperand? : List Text → Option (Text × List Text)
  | [] => none
  | first :: rest =>
      if first = separator then
        match rest with
        | [] => none
        | second :: others => some (second, others)
      else
        match rest with
        | [] => some (first, [])
        | second :: others =>
            if second = separator then some (first, others) else some (first, rest)

/-- A command and the arguments for which it has no use.  A list of operands loses the
first separator in it. -/
def assemble (name : CommandName) (gathered : Gathered) :
    Except UsageError (Command × List Text) :=
  match name with
  | .dimen =>
      match gathered.operands.erase separator with
      | [] => .error (.missing ["literals".toList])
      | literals => .ok (.dimen literals, gathered.surplus)
  | .expand =>
      match takeOperand? gathered.operands with
      | none => .error (.missing ["body".toList, "args".toList])
      | some (body, rest) => .ok (.expand body (rest.erase separator), gathered.surplus)
  | .scan =>
      match takeOperand? gathered.operands with
      | none => .error (.missing ["text".toList])
      | some (text, rest) =>
          .ok (.scan text gathered.level gathered.font, rest ++ gathered.surplus)

def switchesOf : CommandName → List Switch
  | .dimen | .expand => [.help]
  | .scan => [.help, .level, .font]

/-- Reads what follows the name of a command. -/
def readCommand (name : CommandName) (surplus arguments : List Text) :
    Except UsageError Request := do
  let words ← (words (switchesOf name) arguments).mapError .ambiguous
  match ← gather {} words with
  | none => return .help (some name)
  | some gathered =>
      let (command, unused) ← assemble name gathered
      match surplus ++ unused with
      | [] => return .run command
      | unused => throw (.surplus unused)

/-! ### All arguments -/

def generalSwitches : List Switch :=
  [.help, .version]

/-- Reads arguments paired with their words.  `surplus` holds the unknown switches that
have been met. -/
def readPaired (surplus : List Text) : List (Word × Text) → Except UsageError Request
  | [] => .error (.missing ["command".toList])
  | (.unknown text, _) :: rest => readPaired (surplus ++ [text]) rest
  | (.switch switch (some value), _) :: _ => .error (.unexpectedValue switch value)
  | (.switch .version none, _) :: _ => .ok .version
  | (.switch _ none, _) :: _ => .ok (.help none)
  | [(.separator, _)] => .error (.missing ["command".toList])
  | (.separator, text) :: _ :: _ => .error (.unknownCommand text)
  | (.operand text, _) :: rest =>
      match CommandName.ofSpelling? text with
      | some name => readCommand name surplus (rest.map Prod.snd)
      | none => .error (.unknownCommand text)

def Request.read (arguments : List Text) : Except UsageError Request := do
  let words ← (words generalSwitches arguments).mapError .ambiguous
  readPaired [] (words.zip arguments)

end TextMode.CommandLine
