import TextMode.Text.Basic

/-!
# Blank characters

The blanks of the library are the white space of Unicode together with the four
information separators `U+001C` to `U+001F`.  Trimming takes maximal runs of
blanks off the edges of a text and leaves its core.
-/

namespace TextMode.Text

/-- White space, the information separators included; the zero-width characters
are not blank. -/
def isBlank (c : Char) : Bool :=
  let n := c.toNat
  (0x09 ≤ n && n ≤ 0x0d) || (0x1c ≤ n && n ≤ 0x20) || n == 0x85 || n == 0xa0 ||
    n == 0x1680 || (0x2000 ≤ n && n ≤ 0x200a) || n == 0x2028 || n == 0x2029 ||
    n == 0x202f || n == 0x205f || n == 0x3000

def noBreakSpace : Char := '\u00a0'

def leadingBlanks (s : Text) : Text :=
  s.takeWhile isBlank

def dropLeadingBlanks (s : Text) : Text :=
  s.dropWhile isBlank

def dropTrailingBlanks (s : Text) : Text :=
  (s.reverse.dropWhile isBlank).reverse

/-- The part of a text between its first and its last character that is not
blank. -/
def core (s : Text) : Text :=
  dropTrailingBlanks (dropLeadingBlanks s)

def normaliseLeadingEdge (s : Text) : Text :=
  if s.head?.any isBlank then noBreakSpace :: dropLeadingBlanks s else s

def normaliseTrailingEdge (s : Text) : Text :=
  if s.getLast?.any isBlank then dropTrailingBlanks s ++ [noBreakSpace] else s

/-- Each run of blanks at an edge becomes one no-break space.  That space is a
blank itself, so a text of blanks only shrinks to a single one. -/
def normaliseEdges (s : Text) : Text :=
  normaliseTrailingEdge (normaliseLeadingEdge s)

end TextMode.Text
