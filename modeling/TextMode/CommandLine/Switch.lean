import TextMode.Text.Basic
import TextMode.Text.DecimalDigit

/-!
# Switches among arguments

An argument that starts with a hyphen is a switch, unless it is a lone hyphen.  A
switch has a long name, of which a beginning will do if no other switch shares it,
and perhaps a letter.  A value may follow an equals sign.  What is no known switch is
an operand all the same if it is a negative number or holds a space.  After the first
separator, two hyphens, there are only operands.
-/

namespace TextMode.CommandLine

inductive Switch where
  | help
  | version
  | level
  | font
  deriving DecidableEq, Repr

namespace Switch

def longName : Switch → Text
  | help => "--help".toList
  | version => "--version".toList
  | level => "--level".toList
  | font => "--font".toList

def letter? : Switch → Option Char
  | help => some 'h'
  | _ => none

def takesValue : Switch → Bool
  | help | version => false
  | level | font => true

/-- All spellings of a switch. -/
def title (switch : Switch) : Text :=
  match switch.letter? with
  | some letter => '-' :: letter :: '/' :: switch.longName
  | none => switch.longName

end Switch

def separator : Text :=
  ['-', '-']

/-- An argument as a set of switches sees it. -/
inductive Word where
  | operand (text : Text)
  | separator
  | switch (switch : Switch) (value : Option Text)
  | unknown (text : Text)
  deriving DecidableEq, Repr

/-- An argument that could be any of several switches. -/
structure Ambiguity where
  argument : Text
  candidates : List Switch
  deriving DecidableEq, Repr

/-- A hyphen and decimal digits, perhaps with a point before the last of them.  A line
feed at the end does no harm. -/
def isNegativeNumber (s : Text) : Bool :=
  let isDigit := fun c => (Text.decimalDigit? c).isSome
  match s with
  | '-' :: number =>
      let body := if number.getLast? = some '\n' then number.dropLast else number
      match body.dropWhile isDigit with
      | [] => !body.isEmpty
      | '.' :: fraction => !fraction.isEmpty && fraction.all isDigit
      | _ => false
  | _ => false

namespace Word

/-- An argument that is no known switch. -/
def ofStranger (argument : Text) : Word :=
  if isNegativeNumber argument || argument.contains ' ' then operand argument
  else unknown argument

/-- The name and the value on the two sides of the first equals sign. -/
def splitValue (argument : Text) : Text × Option Text :=
  (argument.takeWhile (· ≠ '='), (argument.dropWhile (· ≠ '=')).tail?)

/-- An argument that starts with two hyphens. -/
def ofLong (known : List Switch) (argument : Text) : Except Ambiguity Word :=
  let (name, value) := splitValue argument
  match known.filter fun switch => name.isPrefixOf switch.longName with
  | [] => .ok (ofStranger argument)
  | [found] => .ok (switch found value)
  | candidates => .error ⟨argument, candidates⟩

/-- An argument that is a hyphen, a letter and `rest`.  More letters may follow the
first; the first that is no switch is passed over together with all after it, but a
hyphen or an equals sign there makes it a value. -/
def ofLetters (known : List Switch) (letter : Char) (rest : Text) : Word :=
  match known.find? fun switch => switch.letter? = some letter with
  | none => ofStranger ('-' :: letter :: rest)
  | some found =>
      match rest.dropWhile (· = letter) with
      | '-' :: value => switch found (some ('-' :: value))
      | '=' :: value => switch found (some value)
      | _ => switch found none

def ofArgument (known : List Switch) (argument : Text) : Except Ambiguity Word :=
  match argument with
  | '-' :: '-' :: _ => ofLong known argument
  | '-' :: letter :: rest => .ok (ofLetters known letter rest)
  | _ => .ok (operand argument)

end Word

/-- The words of a list of arguments, one for each. -/
def words (known : List Switch) : List Text → Except Ambiguity (List Word)
  | [] => .ok []
  | argument :: rest =>
      if argument = separator then .ok (.separator :: rest.map .operand)
      else do
        let word ← Word.ofArgument known argument
        let others ← words known rest
        return word :: others

end TextMode.CommandLine
