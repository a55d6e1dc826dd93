import TextMode.Text.Printable

/-!
# Quoted texts

A quoted text stands in single quotes, or in double quotes if it holds a single
quote and no double quote.  The quote in use and the backslash are escaped by a
backslash, line feed, carriage return and tab have short escapes, and any other
character that is not printable is written by its code point in two, four or
eight hexadecimal digits, the fewest that fit.
-/

namespace TextMode.Text

/-- A digit below sixteen in lower case. -/
def hexDigit (n : Nat) : Char :=
  Nat.digitChar n

/-- The last `width` hexadecimal digits of `n`. -/
def hexDigits : Nat → Nat → Text
  | 0, _ => []
  | width + 1, n => hexDigits width (n / 16) ++ [hexDigit (n % 16)]

/-- The written form of one character between the quotes `delimiter`. -/
def escapeChar (delimiter c : Char) : Text :=
  if c = delimiter || c = '\\' then ['\\', c]
  else if c = '\n' then ['\\', 'n']
  else if c = '\r' then ['\\', 'r']
  else if c = '\t' then ['\\', 't']
  else if isPrintable c then [c]
  else if c.toNat < 0x100 then '\\' :: 'x' :: hexDigits 2 c.toNat
  else if c.toNat < 0x10000 then '\\' :: 'u' :: hexDigits 4 c.toNat
  else '\\' :: 'U' :: hexDigits 8 c.toNat

def quoteDelimiter (s : Text) : Char :=
  if s.contains '\'' && !s.contains '"' then '"' else '\''

def quote (s : Text) : Text :=
  let delimiter := quoteDelimiter s
  delimiter :: s.flatMap (escapeChar delimiter) ++ [delimiter]

end TextMode.Text
