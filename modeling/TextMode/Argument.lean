import TextMode.Text.Blank

/-!
# Argument texts

Arguments of commands and options of environments are trimmed before use.  A
backslash that ends the trimmed text was the first half of a control space, so
its space must not be lost.
-/

namespace TextMode.Argument

open TextMode.Text

/-- The core of an argument.  If the core ends in a backslash and the argument
in a space, one space is put back. -/
def trim (s : Text) : Text :=
  if (core s).getLast? = some '\\' && s.getLast? = some ' ' then core s ++ [' ']
  else core s

/-- The vertical alignment that a short option stands for; any other option
stands for itself. -/
def alignmentOfOption (option : Text) : Text :=
  match option with
  | ['t'] => "baseline 1".toList
  | ['b'] => "baseline -1".toList
  | ['c'] => "center".toList
  | _ => option

/-- The vertical alignment of an array with the given option, or `none` if the
option is blank and the alignment stays as it is. -/
def arrayAlignment? (option : Text) : Option Text :=
  match trim option with
  | [] => none
  | trimmed => some (alignmentOfOption trimmed)

end TextMode.Argument
