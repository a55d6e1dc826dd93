import TextMode.Entries
import TextMode.Text.Blank

/-!
# Files of variables

A file of variables has lines `NAME=value`, with `export` before them if one likes,
blank lines, and comments after a hash.  A value may stand in single or double
quotes and then run over several lines.  A name without a value is a variable
without one.  A line that is none of these is passed over.

A value may refer to other variables by `${NAME}` or `${NAME:-default}`.
-/

namespace TextMode.VariableFile

open TextMode.Text (isBlank dropLeadingBlanks dropTrailingBlanks)

/-- Every end of a line as a line feed. -/
def normaliseNewlines : Text → Text
  | '\r' :: '\n' :: rest => '\n' :: normaliseNewlines rest
  | '\r' :: rest => '\n' :: normaliseNewlines rest
  | c :: rest => c :: normaliseNewlines rest
  | [] => []

def isInlineBlank (c : Char) : Bool :=
  isBlank c && c ≠ '\n'

/-- What follows the current line. -/
def afterLine (s : Text) : Text :=
  (s.dropWhile (· ≠ '\n')).drop 1

def dropExport (s : Text) : Text :=
  match s with
  | 'e' :: 'x' :: 'p' :: 'o' :: 'r' :: 't' :: c :: rest =>
      if isInlineBlank c then rest.dropWhile isInlineBlank else s
  | _ => s

def isNameChar (c : Char) : Bool :=
  !(c = '=' || c = '#' || isBlank c)

/-- The name at the start of a text, with what follows it.  A comment has none. -/
def readName? (s : Text) : Option (Option Text × Text) :=
  match s with
  | '#' :: _ => some (none, s)
  | '\'' :: rest =>
      match rest.takeWhile (· ≠ '\''), rest.dropWhile (· ≠ '\'') with
      | c :: name, _ :: rest => some (some (c :: name), rest)
      | _, _ => none
  | _ =>
      match s.takeWhile isNameChar with
      | [] => none
      | name => some (some name, s.dropWhile isNameChar)

/-- The text up to the closing quote and what follows it.  A quote after a backslash
does not close, unless no other quote does. -/
def readQuoted? (quote : Char) : Text → Option (Text × Text)
  | [] => none
  | '\\' :: c :: rest =>
      if c = quote then
        match readQuoted? quote rest with
        | some (body, rest) => some ('\\' :: c :: body, rest)
        | none => some (['\\'], rest)
      else (readQuoted? quote (c :: rest)).map fun found => ('\\' :: found.1, found.2)
  | c :: rest =>
      if c = quote then some ([], rest)
      else (readQuoted? quote rest).map fun found => (c :: found.1, found.2)

/-- The character of an escape between single quotes. -/
def singleQuotedEscape? : Char → Option Char
  | '\\' => some '\\'
  | '\'' => some '\''
  | _ => none

/-- The character of an escape between double quotes. -/
def doubleQuotedEscape? : Char → Option Char
  | '\\' => some '\\'
  | '\'' => some '\''
  | '"' => some '"'
  | 'a' => some '\x07'
  | 'b' => some '\x08'
  | 'f' => some '\x0c'
  | 'n' => some '\n'
  | 'r' => some '\r'
  | 't' => some '\t'
  | 'v' => some '\x0b'
  | _ => none

/-- Resolves escapes; a backslash that starts none stays. -/
def resolveEscapes (escape? : Char → Option Char) : Text → Text
  | '\\' :: c :: rest =>
      match escape? c with
      | some resolved => resolved :: resolveEscapes escape? rest
      | none => '\\' :: resolveEscapes escape? (c :: rest)
  | c :: rest => c :: resolveEscapes escape? rest
  | [] => []

/-- A value without quotes ends before blanks with a hash after them. -/
def cutComment : Text → Text
  | [] => []
  | c :: rest =>
      if isBlank c && (dropLeadingBlanks rest).head? = some '#' then []
      else c :: cutComment rest

/-- The value at the start of a text, with what follows it. -/
def readValue? (s : Text) : Option (Text × Text) :=
  match s with
  | '\'' :: rest =>
      (readQuoted? '\'' rest).map fun found =>
        (resolveEscapes singleQuotedEscape? found.1, found.2)
  | '"' :: rest =>
      (readQuoted? '"' rest).map fun found =>
        (resolveEscapes doubleQuotedEscape? found.1, found.2)
  | _ =>
      some (dropTrailingBlanks (cutComment (s.takeWhile (· ≠ '\n'))), s.dropWhile (· ≠ '\n'))

/-- Drops a comment behind blanks. -/
def dropComment (s : Text) : Text :=
  match s.dropWhile isInlineBlank with
  | '#' :: rest => rest.dropWhile (· ≠ '\n')
  | _ => s

abbrev Binding := Text × Option Text

/-- Ends a binding, which nothing but a comment may follow in its line. -/
def finishLine (name value : Option Text) (s : Text) : Option Binding × Text :=
  match (dropComment s).dropWhile isInlineBlank with
  | [] => (name.map (·, value), [])
  | '\n' :: rest => (name.map (·, value), rest)
  | rest => (none, afterLine rest)

/-- The next binding, if the next statement is one, and what follows it. -/
def readBinding (s : Text) : Option Binding × Text :=
  let s := dropExport (dropLeadingBlanks s)
  match readName? s with
  | none => (none, afterLine s)
  | some (name, rest) =>
      match rest.dropWhile isInlineBlank with
      | '=' :: rest =>
          let rest := rest.dropWhile isInlineBlank
          match readValue? rest with
          | some (value, rest) => finishLine name (some value) rest
          | none => (none, afterLine rest)
      | rest => finishLine name none rest

/-- The bindings of a text in order.  Each takes a character of it at least. -/
def bindings : Text → List Binding
  | [] => []
  | c :: tail =>
      let (binding, rest) := readBinding (c :: tail)
      if _h : rest.length < (c :: tail).length then binding.toList ++ bindings rest
      else binding.toList
termination_by s => s.length
decreasing_by exact _h

/-- A reference at the start of a text after its dollar: the name, the default, and
what follows. -/
def readReference? (s : Text) : Option (Text × Text × Text) :=
  match s with
  | '{' :: rest =>
      let name := rest.takeWhile fun c => c ≠ '}' && c ≠ ':'
      match rest.dropWhile fun c => c ≠ '}' && c ≠ ':' with
      | '}' :: rest => some (name, [], rest)
      | ':' :: '-' :: rest =>
          match rest.dropWhile (· ≠ '}') with
          | _ :: after => some (name, rest.takeWhile (· ≠ '}'), after)
          | [] => none
      | _ => none
  | _ => none

/-- Replaces the references in a value.  A variable that is known but has no value
is empty. -/
def interpolate (lookup : Text → Option (Option Text)) : Text → Text
  | [] => []
  | c :: rest =>
      if c = '$' then
        match readReference? rest with
        | some (name, default, after) =>
            let value := ((lookup name).getD (some default)).getD []
            if after.length < rest.length then value ++ interpolate lookup after
            else value
        | none => c :: interpolate lookup rest
      else c :: interpolate lookup rest
termination_by s => s.length

/-- Sets a variable to its value with the references replaced, by what the file has
set so far and else by the environment. -/
def define (environment : Entries Text Text) (known : Entries Text (Option Text))
    (binding : Binding) : Entries Text (Option Text) :=
  let lookup (name : Text) : Option (Option Text) :=
    Entries.get? name known <|> (Entries.get? name environment).map some
  Entries.insert binding.1 (binding.2.map (interpolate lookup)) known

/-- The variables that a file defines in an environment. -/
def read (environment : Entries Text Text) (content : Text) :
    Entries Text (Option Text) :=
  (bindings (normaliseNewlines content)).foldl (define environment) []

end TextMode.VariableFile
