import TextMode.Error
import TextMode.Notation.Token
import TextMode.Text.Decimal

/-!
# Brace groups

Tokens are nested by braces into items, blanks and comments included.  The first
fault from the left is reported: a closing brace without an open one, a stray
backslash, or braces left open at the end.
-/

namespace TextMode.Notation

inductive Item where
  | single (token : Token)
  | group (items : List Item)
  deriving Repr

inductive Fault where
  | missingCloseBrace
  | extraCloseBrace
  | strayBackslash
  deriving DecidableEq, Repr

/-- The error that reports a fault of `text`.  A stray backslash is the last
character of its text. -/
def Fault.report (text : Text) : Fault → TexError
  | missingCloseBrace =>
      ErrorFamily.malformedNotation.report [] "MissingCloseBrace".toList
        "Missing close brace".toList
  | extraCloseBrace =>
      ErrorFamily.malformedNotation.report [] "ExtraCloseBrace".toList
        "Extra close brace or missing open brace".toList
  | strayBackslash =>
      ErrorFamily.malformedNotation.report [Text.decimal (text.length - 1)]
        "UnexpectedInput".toList "Unexpected input at position %1".toList

namespace Item

mutual

/-- The text of an item, with its braces if it is a group. -/
def lexeme : Item → Text
  | single token => token.lexeme
  | group items => '{' :: lexemes items ++ ['}']

def lexemes : List Item → Text
  | [] => []
  | item :: items => lexeme item ++ lexemes items

end

/-- Nests tokens.  `outer` holds the items before each open brace, innermost
first, and `inner` those after the last one, both in reverse order. -/
def nest (outer : List (List Item)) (inner : List Item) :
    List Token → Except Fault (List Item)
  | [] =>
      match outer with
      | [] => .ok inner.reverse
      | _ :: _ => .error .missingCloseBrace
  | .openBrace :: tokens => nest (inner :: outer) [] tokens
  | .closeBrace :: tokens =>
      match outer with
      | [] => .error .extraCloseBrace
      | before :: outer => nest outer (group inner.reverse :: before) tokens
  | .strayBackslash :: _ => .error .strayBackslash
  | token :: tokens => nest outer (single token :: inner) tokens

/-- The items of a text. -/
def read (text : Text) : Except Fault (List Item) :=
  nest [] [] (tokenize text)

end Item

end TextMode.Notation
