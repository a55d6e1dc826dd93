import TextMode.Text.Basic

/-!
# Log levels
-/

namespace TextMode

inductive LogLevel where
  | debug
  | info
  | warning
  | error
  | critical
  deriving DecidableEq, Repr

namespace LogLevel

def all : List LogLevel :=
  [debug, info, warning, error, critical]

def name : LogLevel → Text
  | debug => "DEBUG".toList
  | info => "INFO".toList
  | warning => "WARNING".toList
  | error => "ERROR".toList
  | critical => "CRITICAL".toList

def severity : LogLevel → Nat
  | debug => 10
  | info => 20
  | warning => 30
  | error => 40
  | critical => 50

/-- The capitals of a letter.  Besides the ASCII letters these are the letters and
ligatures whose capitals are ASCII letters; no other capitals occur in the name of a
level. -/
def capitals (c : Char) : Text :=
  match c with
  | 'ß' => ['S', 'S']
  | 'ı' => ['I']
  | 'ſ' => ['S']
  | 'ﬀ' => ['F', 'F']
  | 'ﬁ' => ['F', 'I']
  | 'ﬂ' => ['F', 'L']
  | 'ﬃ' => ['F', 'F', 'I']
  | 'ﬄ' => ['F', 'F', 'L']
  | 'ﬅ' => ['S', 'T']
  | 'ﬆ' => ['S', 'T']
  | c => [c.toUpper]

/-- The level whose name is the given text in capitals. -/
def ofText? (s : Text) : Option LogLevel :=
  all.find? fun level => level.name = s.flatMap capitals

end LogLevel

end TextMode
