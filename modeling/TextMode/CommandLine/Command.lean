import TextMode.Text.Basic

/-!
# Commands

There are three commands: `dimen` converts dimension literals to ems, `expand`
expands a body with its arguments, and `scan` splits mixed content and shows its
segments and its nodes.
-/

namespace TextMode

inductive CommandName where
  | dimen
  | expand
  | scan
  deriving DecidableEq, Repr

namespace CommandName

def all : List CommandName :=
  [dimen, expand, scan]

def spelling : CommandName → Text
  | dimen => "dimen".toList
  | expand => "expand".toList
  | scan => "scan".toList

def ofSpelling? (s : Text) : Option CommandName :=
  all.find? fun name => name.spelling = s

end CommandName

inductive Command where
  | dimen (literals : List Text)
  | expand (body : Text) (arguments : List Text)
  | scan (text : Text) (level : Option Int) (font : Option Text)
  deriving DecidableEq, Repr

end TextMode
