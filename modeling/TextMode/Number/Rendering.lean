import TextMode.Number.Binary64

/-!
# Decimal renderings of double precision numbers

Both renderings round the exact binary value, a tie going to the even digit.
-/

namespace TextMode.Binary64

def signText (negative : Bool) : Text :=
  if negative then ['-'] else []

def infiniteText (negative : Bool) : Text :=
  signText negative ++ "inf".toList

/-- A number of thousandths, without trailing zeros behind the point. -/
def thousandthsText (n : Nat) : Text :=
  Text.decimal (n / 1000) ++
    Text.fractionPart (Text.padZeros 3 (Text.decimal (n % 1000)))

/-- At most three decimals. -/
def fixedText : Binary64 → Text
  | finite negative significand exponent _ =>
      signText negative ++
        thousandthsText
          (roundQuotient (numerator significand exponent * 1000) (denominator exponent))
  | infinite negative => infiniteText negative
  | nan => "nan".toList

/-- The integer part of the decimal logarithm of a positive quotient. -/
def decimalExponent (numerator denominator : Nat) : Int :=
  let guess : Int := (Text.decimal numerator).length - (Text.decimal denominator).length
  if numerator * Nat.pow 10 (-guess).toNat < denominator * Nat.pow 10 guess.toNat then guess - 1
  else guess

/-- A positive quotient rounded to six significant digits: the digits as a number,
and the exponent of the first of them. -/
def sixDigits (numerator denominator : Nat) : Nat × Int :=
  let exponent := decimalExponent numerator denominator
  let digits :=
    roundQuotient (numerator * Nat.pow 10 (5 - exponent).toNat)
      (denominator * Nat.pow 10 (exponent - 5).toNat)
  if digits = 1000000 then (100000, exponent + 1) else (digits, exponent)

/-- Six digits with the point after the digit of exponent zero. -/
def positionalText (digits : Text) (exponent : Int) : Text :=
  if exponent < 0 then
    '0' :: Text.fractionPart (List.replicate (-exponent - 1).toNat '0' ++ digits)
  else
    digits.take (exponent.toNat + 1) ++ Text.fractionPart (digits.drop (exponent.toNat + 1))

/-- Six digits with the point after the first, and an exponent of two digits or
more. -/
def scientificText (digits : Text) (exponent : Int) : Text :=
  digits.take 1 ++ Text.fractionPart (digits.drop 1) ++
    'e' :: (if exponent < 0 then '-' else '+') ::
      Text.padZeros 2 (Text.decimal exponent.natAbs)

/-- Six significant digits without trailing zeros, positional for exponents from
`-4` to `5`. -/
def generalText : Binary64 → Text
  | finite negative significand exponent _ =>
      if significand = 0 then signText negative ++ ['0']
      else
        let (digits, first) :=
          sixDigits (numerator significand exponent) (denominator exponent)
        signText negative ++
          if -4 ≤ first ∧ first < 6 then positionalText (Text.decimal digits) first
          else scientificText (Text.decimal digits) first
  | infinite negative => infiniteText negative
  | nan => "nan".toList

end TextMode.Binary64
