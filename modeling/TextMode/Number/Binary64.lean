import TextMode.Text.Decimal

/-!
# Binary floating point in double precision

A finite number is a sign, a significand below `2 ^ 53` and a power of two.  All
arithmetic is exact first and then rounded to the nearest number, a tie going to
the even significand.
-/

namespace TextMode

/-- The pairs that stand for a finite magnitude.  The significand has 53 bits
unless the exponent is least, so no magnitude has two forms. -/
abbrev Binary64.Canonical (significand : Nat) (exponent : Int) : Prop :=
  significand < Nat.pow 2 53 ∧ -1074 ≤ exponent ∧ exponent ≤ 971 ∧
    (Nat.pow 2 52 ≤ significand ∨ exponent = -1074)

inductive Binary64 where
  | finite (negative : Bool) (significand : Nat) (exponent : Int)
      (canonical : Binary64.Canonical significand exponent)
  | infinite (negative : Bool)
  | nan
  deriving DecidableEq, Repr

/-- The quotient rounded to the nearest natural number, a tie going to the even
one. -/
def roundQuotient (numerator denominator : Nat) : Nat :=
  let quotient := numerator / denominator
  let twice := 2 * (numerator % denominator)
  if twice < denominator then quotient
  else if denominator < twice then quotient + 1
  else quotient + quotient % 2

namespace Binary64

def zero (negative : Bool) : Binary64 :=
  finite negative 0 (-1074) (by decide)

/-- The integer part of the binary logarithm of a positive quotient. -/
def binaryExponent (numerator denominator : Nat) : Int :=
  let guess : Int := numerator.log2 - denominator.log2
  if numerator * Nat.pow 2 (-guess).toNat < denominator * Nat.pow 2 guess.toNat then guess - 1
  else guess

/-- The number with the given significand and exponent, where the significand may
have been rounded up to `2 ^ 53`.  What is too large is infinite. -/
def pack (negative : Bool) (significand : Nat) (exponent : Int) : Binary64 :=
  if h : Canonical significand exponent then finite negative significand exponent h
  else if h : Canonical (Nat.pow 2 52) (exponent + 1) ∧ significand = Nat.pow 2 53 then
    finite negative (Nat.pow 2 52) (exponent + 1) h.1
  else infinite negative

/-- The number nearest to a quotient of natural numbers, with the given sign. -/
def ofRatio (negative : Bool) (numerator denominator : Nat) : Binary64 :=
  if numerator = 0 then zero negative
  else
    let exponent := max (binaryExponent numerator denominator - 52) (-1074)
    pack negative
      (roundQuotient (numerator * Nat.pow 2 (-exponent).toNat)
        (denominator * Nat.pow 2 exponent.toNat))
      exponent

/-- The number nearest to `coefficient * 10 ^ exponent`.  Magnitudes from `10 ^ 310`
on and below `10 ^ -330` are settled without computing the power. -/
def ofDecimal (negative : Bool) (coefficient : Nat) (exponent : Int) : Binary64 :=
  if coefficient = 0 then zero negative
  else if 310 ≤ exponent then infinite negative
  else if (Text.decimal coefficient).length + exponent ≤ -330 then zero negative
  else
    ofRatio negative (coefficient * Nat.pow 10 exponent.toNat) (Nat.pow 10 (-exponent).toNat)

def numerator (significand : Nat) (exponent : Int) : Nat :=
  significand * Nat.pow 2 exponent.toNat

def denominator (exponent : Int) : Nat :=
  Nat.pow 2 (-exponent).toNat

def isZero : Binary64 → Bool
  | finite _ significand _ _ => significand = 0
  | _ => false

def isPositive : Binary64 → Bool
  | finite negative significand _ _ => !negative && 0 < significand
  | infinite negative => !negative
  | nan => false

/-- Whether the first number is nearer to zero than the second. -/
def magnitudeLt : Binary64 → Binary64 → Bool
  | finite _ m e _, finite _ n f _ =>
      numerator m e * denominator f < numerator n f * denominator e
  | finite .., infinite _ => true
  | _, _ => false

def mul : Binary64 → Binary64 → Binary64
  | finite s m e _, finite t n f _ =>
      ofRatio (s ^^ t) (numerator m e * numerator n f) (denominator e * denominator f)
  | finite s m _ _, infinite t => if m = 0 then nan else infinite (s ^^ t)
  | infinite s, finite t n _ _ => if n = 0 then nan else infinite (s ^^ t)
  | infinite s, infinite t => infinite (s ^^ t)
  | _, _ => nan

def div : Binary64 → Binary64 → Binary64
  | finite s m e _, finite t n f _ =>
      if n = 0 then if m = 0 then nan else infinite (s ^^ t)
      else
        ofRatio (s ^^ t) (numerator m e * denominator f) (denominator e * numerator n f)
  | finite s .., infinite t => zero (s ^^ t)
  | infinite s, finite t .. => infinite (s ^^ t)
  | _, _ => nan

instance : Mul Binary64 := ⟨mul⟩

instance : Div Binary64 := ⟨div⟩

/-- The interchange encoding: sign, eleven bits of biased exponent, 52 bits of
fraction. -/
def toBits : Binary64 → Nat
  | finite negative significand exponent _ =>
      signBit negative +
        if significand < Nat.pow 2 52 then significand
        else (exponent + 1075).toNat * Nat.pow 2 52 + (significand - Nat.pow 2 52)
  | infinite negative => signBit negative + 0x7ff * Nat.pow 2 52
  | nan => 0x7ff8 * Nat.pow 2 48
where
  signBit (negative : Bool) : Nat :=
    if negative then Nat.pow 2 63 else 0

end Binary64

end TextMode
