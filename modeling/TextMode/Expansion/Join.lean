import TextMode.Error

/-!
# Joining pieces of an expansion

A piece that starts with a letter must not lengthen a control word at the end of
the piece before it, so a space is put between them.  No joined text may be longer
than the limit of the buffer.
-/

namespace TextMode.Expansion

/-- Why an expansion fails.  An overflow records the limit and the lengths of the
two pieces. -/
inductive Fault where
  | illegalParameter (spelling : Text)
  | overflow (limit : Int) (left right : Nat)
  deriving DecidableEq, Repr

def Fault.report : Fault → TexError
  | illegalParameter spelling => .illegalMacroParameter spelling
  | overflow .. => .macroBufferOverflow

/-- Whether a text ends in a backslash and letters, the backslash not being escaped
itself: the backslashes before the last letters are odd in number. -/
def endsInControlWord (s : Text) : Bool :=
  let reversed := s.reverse
  let backslashes := (reversed.dropWhile Char.isAlpha).takeWhile (· = '\\')
  reversed.head?.any Char.isAlpha && backslashes.length % 2 = 1

/-- The left piece with the space that the right piece makes necessary. -/
def separated (left right : Text) : Text :=
  if right.head?.any Char.isAlpha && endsInControlWord left then left ++ [' '] else left

def join (limit : Int) (left right : Text) : Except Fault Text :=
  let left := separated left right
  if limit < (left.length + right.length : Nat) then
    .error (.overflow limit left.length right.length)
  else .ok (left ++ right)

end TextMode.Expansion
