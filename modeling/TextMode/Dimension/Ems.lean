import TextMode.Dimension.Literal
import TextMode.Error
import TextMode.Number.Rendering

/-!
# Dimensions in ems

Ten points or twelve twelfths of a pica make an em, and eighteen mu.  Pixels and
the absolute units depend on the ems and the pixels of an inch.
-/

namespace TextMode

structure Dimension where
  magnitude : Binary64
  unit : LengthUnit
  deriving DecidableEq, Repr

structure UnitRatios where
  emPerInch : Binary64
  pxPerInch : Binary64
  deriving DecidableEq, Repr

namespace UnitRatios

def standard : UnitRatios where
  emPerInch := .ofRatio false 72 10
  pxPerInch := .ofRatio false 72 1

end UnitRatios

/-- Pixels have no length when there are none to an inch. -/
inductive ConversionFault where
  | noPixels
  deriving DecidableEq, Repr

namespace Dimension

/-- The length in ems.  The order of the operations matters, since each of them
rounds. -/
def toEm (ratios : UnitRatios) (dimension : Dimension) : Except ConversionFault Binary64 :=
  let m := dimension.magnitude
  match dimension.unit with
  | .em => .ok m
  | .ex => .ok (m * .ofRatio false 43 100)
  | .pt => .ok (m / .ofRatio false 10 1)
  | .pc => .ok (m * .ofRatio false 12 10)
  | .px =>
      if ratios.pxPerInch.isZero then .error .noPixels
      else .ok (m * ratios.emPerInch / ratios.pxPerInch)
  | .inch => .ok (m * ratios.emPerInch)
  | .cm => .ok (m * ratios.emPerInch / .ofRatio false 254 100)
  | .mm => .ok (m * ratios.emPerInch / .ofRatio false 254 10)
  | .mu => .ok (m / .ofRatio false 18 1)

/-- The magnitude in six significant digits and the symbol of the unit. -/
def text (dimension : Dimension) : Text :=
  dimension.magnitude.generalText ++ dimension.unit.symbol

/-- The dimension that a text denotes as a whole. -/
def read? (s : Text) : Option Dimension :=
  (matchLiteral? s).map fun found => ⟨found.numeral.magnitude, found.unit⟩

/-- The dimension that is the argument of `command`. -/
def require (s command : Text) : Except TexError Dimension :=
  match read? s with
  | some dimension => .ok dimension
  | none => .error (.malformedDimension command)

end Dimension

/-- The length in ems that a text denotes; a text that is no dimension has none. -/
def emsOfText (ratios : UnitRatios) (s : Text) : Except ConversionFault Binary64 :=
  match Dimension.read? s with
  | some dimension => dimension.toEm ratios
  | none => .ok (.zero false)

/-- Lengths nearer to zero than this are shown as zero. -/
def shownAsZero : Binary64 :=
  .ofRatio false 6 10000

/-- A length in ems with at most three decimals. -/
def formatEm (magnitude : Binary64) : Text :=
  if magnitude.magnitudeLt shownAsZero then "0em".toList
  else magnitude.fixedText ++ "em".toList

end TextMode
