import TextMode.Text.Basic

/-!
# Decimal numbers as texts
-/

namespace TextMode.Text

def decimal (n : Nat) : Text :=
  Nat.toDigits 10 n

def signedDecimal : Int → Text
  | .ofNat n => decimal n
  | .negSucc n => '-' :: decimal (n + 1)

def digitValue (c : Char) : Nat :=
  c.toNat - '0'.toNat

/-- The number that a list of ASCII digits denotes. -/
def ofDigits (digits : Text) : Nat :=
  digits.foldl (fun value c => 10 * value + digitValue c) 0

def dropTrailingZeros (digits : Text) : Text :=
  (digits.reverse.dropWhile (· = '0')).reverse

def padZeros (width : Nat) (digits : Text) : Text :=
  List.replicate (width - digits.length) '0' ++ digits

/-- A fraction part behind its point, or nothing if all its digits are zeros. -/
def fractionPart (digits : Text) : Text :=
  match dropTrailingZeros digits with
  | [] => []
  | significant => '.' :: significant

end TextMode.Text
