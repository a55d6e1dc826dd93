import TextMode.Entries
import TextMode.Number.Binary64

/-!
# JSON values

Numbers are kept as they are written, so an integer of any size and a fraction of
any length lose nothing.
-/

namespace TextMode

structure JsonNumber where
  negative : Bool
  whole : Text
  fraction : Option Text
  exponent : Option Int
  deriving DecidableEq, Repr

namespace JsonNumber

/-- The integer that a number denotes if it is written without fraction and
exponent. -/
def toInt? (number : JsonNumber) : Option Int :=
  match number.fraction, number.exponent with
  | none, none =>
      let magnitude : Int := Text.ofDigits number.whole
      some (if number.negative then -magnitude else magnitude)
  | _, _ => none

def toBinary64 (number : JsonNumber) : Binary64 :=
  let fraction := number.fraction.getD []
  .ofDecimal number.negative (Text.ofDigits (number.whole ++ fraction))
    (number.exponent.getD 0 - fraction.length)

def text (number : JsonNumber) : Text :=
  (if number.negative then ['-'] else []) ++ number.whole ++
    (match number.fraction with
      | none => []
      | some digits => '.' :: digits) ++
    match number.exponent with
    | none => []
    | some exponent => 'e' :: Text.signedDecimal exponent

end JsonNumber

inductive Json where
  | null
  | bool (value : Bool)
  | number (value : JsonNumber)
  /-- One of the words for infinity and for what is not a number. -/
  | extended (value : Binary64)
  | string (value : Text)
  | array (items : List Json)
  | object (entries : List (Text × Json))
  deriving Repr

end TextMode
