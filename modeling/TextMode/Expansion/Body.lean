import TextMode.Text.Decimal

/-!
# Bodies of commands

The body of a command is read as escaped characters, doubled hashes, placeholders
for arguments and other characters.  A backslash always takes the next character
with it, so a hash after it is none.
-/

namespace TextMode.Expansion

inductive BodyToken where
  | escape (char : Char)
  | strayBackslash
  | doubledHash
  /-- The placeholder of the argument with this index. -/
  | placeholder (index : Fin 9)
  /-- A hash before a character that is neither a hash nor a digit from `1` to
  `9`, or at the end. -/
  | malformedHash (next : Option Char)
  | character (char : Char)
  deriving DecidableEq, Repr

/-- The argument that a digit from `1` to `9` selects. -/
def placeholderIndex? (c : Char) : Option (Fin 9) :=
  if h : '1'.toNat ≤ c.toNat ∧ c.toNat ≤ '9'.toNat then
    some ⟨c.toNat - '1'.toNat, by
      have hlow : '1'.toNat = 49 := by decide
      have hhigh : '9'.toNat = 57 := by decide
      omega⟩
  else none

namespace BodyToken

/-- A token as it is written. -/
def spelling : BodyToken → Text
  | escape char => ['\\', char]
  | strayBackslash => ['\\']
  | doubledHash => ['#', '#']
  | placeholder index => '#' :: Text.decimal (index.val + 1)
  | malformedHash next => '#' :: next.toList
  | character char => [char]

/-- The token of a hash before the character `c`. -/
def ofHash (c : Char) : BodyToken :=
  if c = '#' then doubledHash
  else
    match placeholderIndex? c with
    | some index => placeholder index
    | none => malformedHash (some c)

end BodyToken

def readBody : Text → List BodyToken
  | [] => []
  | ['\\'] => [.strayBackslash]
  | '\\' :: c :: rest => .escape c :: readBody rest
  | ['#'] => [.malformedHash none]
  | '#' :: c :: rest => BodyToken.ofHash c :: readBody rest
  | c :: rest => .character c :: readBody rest

end TextMode.Expansion
