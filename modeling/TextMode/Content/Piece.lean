import TextMode.Text.Basic

/-!
# Pieces of mixed content

Mixed content is cut into plain text and islands of notation.  An island is
written between dollars, between `\(` and `\)`, or as a whole reference command
with its braces.
-/

namespace TextMode

inductive IslandKind where
  | dollar
  | parenthesis
  | reference
  deriving DecidableEq, Repr

/-- The name under which a kind is shown to users. -/
def IslandKind.name : IslandKind → Text
  | dollar => "DOLLAR_MATH".toList
  | parenthesis => "PAREN_MATH".toList
  | reference => "REF_BRACE_MATH".toList

/-- The last character of the delimiter that closes an island of the kind. -/
def IslandKind.closing : IslandKind → Char
  | dollar => '$'
  | parenthesis => ')'
  | reference => '}'

/-- A stretch of mixed content.  Escapes in plain text are resolved; an island
keeps its source as it was written. -/
inductive Piece where
  | plain (text : Text)
  | island (kind : IslandKind) (source : Text)
  deriving DecidableEq, Repr

def Piece.modeName : Piece → Text
  | plain _ => "PLAIN".toList
  | island kind _ => kind.name

def Piece.source : Piece → Text
  | plain text => text
  | island _ source => source

end TextMode
