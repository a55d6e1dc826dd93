import TextMode.Text.Basic

/-!
# Texts on a console

A console shows neither bells, backspaces, vertical tabs, form feeds nor carriage
returns, and fills up to every eighth column for a tab.

Some texts are shown through markup, in which brackets hold tags.  Text that looks
like a tag is protected and comes out as it is, with the backslashes before it.  Before
any other opening bracket one backslash is lost.
-/

namespace TextMode

/-- What becomes of a text on a console, by itself and shown through markup. -/
structure Console where
  plain : Text → Text
  markup : Text → Text

namespace Console

def isHidden (c : Char) : Bool :=
  let n := c.toNat
  n = 7 || n = 8 || n = 11 || n = 12 || n = 13

def tabWidth : Nat :=
  8

/-- Replaces tabs by spaces, where the text starts in the given column. -/
def expandTabs (column : Nat) : Text → Text
  | [] => []
  | '\n' :: rest => '\n' :: expandTabs 0 rest
  | '\t' :: rest =>
      let width := tabWidth - column % tabWidth
      List.replicate width ' ' ++ expandTabs (column + width) rest
  | c :: rest => c :: expandTabs (column + 1) rest

/-- A text as the console shows it. -/
def shown (s : Text) : Text :=
  expandTabs 0 (s.filter fun c => !isHidden c)

def isTagStart (c : Char) : Bool :=
  c.isLower || c = '#' || c = '/' || c = '@'

/-- The length of what looks like a tag at the start of a text, with the backslashes
before it. -/
def tagLength? (s : Text) : Option Nat :=
  match s.dropWhile (· = '\\') with
  | '[' :: c :: rest =>
      if isTagStart c then
        let inside := rest.takeWhile fun d => d ≠ '[' && d ≠ ']'
        if (rest.drop inside.length).head? = some ']' then
          some ((s.takeWhile (· = '\\')).length + inside.length + 3)
        else none
      else none
  | _ => none

/-- A text that has gone through markup.  The next `kept` characters belong to what
looks like a tag. -/
def throughMarkup (kept : Nat) : Text → Text
  | [] => []
  | c :: rest =>
      match kept, tagLength? (c :: rest) with
      | kept + 1, _ => c :: throughMarkup kept rest
      | 0, some length => c :: throughMarkup (length - 1) rest
      | 0, none =>
          if c = '\\' && rest.head? = some '[' then throughMarkup 0 rest
          else c :: throughMarkup 0 rest

/-- A single backslash at the end of a text is protected by another one. -/
def protectEnd (s : Text) : Text :=
  match s.reverse with
  | ['\\'] => s ++ ['\\']
  | '\\' :: c :: _ => if c = '\\' then s else s ++ ['\\']
  | _ => s

/-- A text shown through markup. -/
def shownThroughMarkup (s : Text) : Text :=
  shown (throughMarkup 0 (protectEnd s))

def standard : Console where
  plain := shown
  markup := shownThroughMarkup

end Console

end TextMode
