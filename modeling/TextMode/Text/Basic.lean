/-!
# Texts

A text is a list of code points.  Every length, position and limit of this
library counts its members.
-/

namespace TextMode

abbrev Text := List Char

/-- The parts of a text before, between and behind the separators in it. -/
def Text.splitOn (separator : Char) : Text → List Text
  | [] => [[]]
  | c :: rest =>
      match splitOn separator rest with
      | [] => [[c]]
      | first :: others =>
          if c = separator then [] :: first :: others else (c :: first) :: others

end TextMode
