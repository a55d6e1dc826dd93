import TextMode.Json.Reader
import TextMode.Text.Blank

/-!
# Numbers in settings

A value given as text may be a number with spaces around it, with a sign, with
leading zeros, and with single underscores between its characters.  An integer may
carry a point with nothing but zeros behind it.
-/

namespace TextMode.Settings

/-- White space without the information separators. -/
def isSpace (c : Char) : Bool :=
  Text.isBlank c && !(0x1c ≤ c.toNat && c.toNat ≤ 0x1f)

def trimSpaces (s : Text) : Text :=
  ((s.dropWhile isSpace).reverse.dropWhile isSpace).reverse

def hasDoubleUnderscore : Text → Bool
  | '_' :: '_' :: _ => true
  | _ :: rest => hasDoubleUnderscore rest
  | [] => false

/-- The text without its underscores, if it has some and each stands alone between
other characters. -/
def withoutUnderscores? (s : Text) : Option Text :=
  if s.head? = some '_' || s.getLast? = some '_' || !s.contains '_' ||
      hasDoubleUnderscore s then none
  else some (s.filter (· ≠ '_'))

/-- Digits with at most one point among them, and at least one digit. -/
def readCoefficient? (s : Text) : Option (Text × Text × Text) :=
  let whole := s.takeWhile Char.isDigit
  match s.dropWhile Char.isDigit with
  | '.' :: rest =>
      let fraction := rest.takeWhile Char.isDigit
      if whole.isEmpty && fraction.isEmpty then none
      else some (whole, fraction, rest.dropWhile Char.isDigit)
  | rest => if whole.isEmpty then none else some (whole, [], rest)

/-- A double precision number without a sign. -/
def readUnsigned? (negative : Bool) (s : Text) : Option Binary64 := do
  let word := String.ofList (s.map Char.toLower)
  if word = "inf" || word = "infinity" then some (.infinite negative)
  else if word = "nan" then some .nan
  else
    let (whole, fraction, rest) ← readCoefficient? s
    let (exponent, rest) := Json.readExponent rest
    if rest.isEmpty then
      some (.ofDecimal negative (Text.ofDigits (whole ++ fraction))
        (exponent.getD 0 - fraction.length))
    else none

def readSigned? (s : Text) : Option Binary64 :=
  match s with
  | '-' :: rest => readUnsigned? true rest
  | '+' :: rest => readUnsigned? false rest
  | _ => readUnsigned? false s

/-- A double precision number. -/
def readBinary64? (s : Text) : Option Binary64 :=
  readSigned? (trimSpaces s) <|> (withoutUnderscores? s).bind readSigned?

/-- An integer with neither a plus sign nor superfluous zeros. -/
def readPlainInteger? (s : Text) : Option Int := do
  let (number, rest) ← Json.readNumber s
  if rest.isEmpty then number.toInt? else none

/-- Drops zeros and underscores after a first zero; `previous` is the character
before `s`.  The last of them stays before a point or at the end. -/
def dropZerosAfter (previous : Char) (s : Text) : Option Text :=
  match s with
  | [] => some [previous]
  | c :: rest =>
      if c = '0' || c = '_' then dropZerosAfter c rest
      else if c.isDigit then some (c :: rest)
      else if c = '.' then some (previous :: c :: rest)
      else none

/-- Drops leading zeros.  Anything but a digit or a minus sign in the first place is
no integer. -/
def dropLeadingZeros? (s : Text) : Option Text :=
  match s with
  | [] => none
  | c :: rest =>
      if c = '0' then dropZerosAfter c rest
      else if c.isDigit || c = '-' then some (c :: rest)
      else none

/-- Drops a point and the zeros after it at the end of a text. -/
def dropZeroFraction (s : Text) : Text :=
  match s.dropWhile (· ≠ '.') with
  | [] => s
  | _ :: fraction => if fraction.all (· = '0') then s.takeWhile (· ≠ '.') else s

def dropPlus (s : Text) : Text :=
  match s with
  | '+' :: rest => rest
  | _ => s

/-- The plain form of an integer with the allowed decoration. -/
def plainInteger? (s : Text) : Option Text := do
  let digits ← dropLeadingZeros? (dropPlus (trimSpaces s))
  let whole := dropZeroFraction digits
  return (withoutUnderscores? whole).getD whole

def readInteger? (s : Text) : Option Int :=
  readPlainInteger? s <|> (plainInteger? s).bind readPlainInteger?

end TextMode.Settings
