import TextMode.Text.DecimalDigit

/-!
# Reported errors

An error has a kind, a key under which a caller finds its own wording, a
template with the default wording, and the parameters of the template.  In a
template `%` directly followed by a decimal digit `k` stands for the `k`-th
parameter.
-/

namespace TextMode

inductive ErrorKind where
  | malformedDimension
  | illegalMacroParameter
  | macroBufferOverflow
  | unterminatedNotationIsland
  | malformedNotation
  | erroneousNesting
  deriving DecidableEq, Repr

def ErrorKind.name : ErrorKind → Text
  | malformedDimension => "MalformedDimension".toList
  | illegalMacroParameter => "IllegalMacroParameter".toList
  | macroBufferOverflow => "MacroBufferOverflow".toList
  | unterminatedNotationIsland => "UnterminatedNotationIsland".toList
  | malformedNotation => "MalformedNotation".toList
  | erroneousNesting => "ErroneousNesting".toList

/-- Every kind but a malformed dimension ends the current top-level reading. -/
def ErrorKind.isFatal (kind : ErrorKind) : Bool :=
  kind ≠ .malformedDimension

structure TexError where
  kind : ErrorKind
  key : Text
  template : Text
  params : List Text
  deriving DecidableEq, Repr

/-- Replaces the placeholders of a template in one pass from the left.  A
placeholder without a parameter stays as it is, and a parameter is not read for
placeholders. -/
def fillTemplate (params : List Text) : Text → Text
  | [] => []
  | '%' :: c :: rest =>
      match Text.decimalDigit? c with
      | some (k + 1) => (params[k]?).getD ['%', c] ++ fillTemplate params rest
      | some 0 => '%' :: c :: fillTemplate params rest
      | none => '%' :: fillTemplate params (c :: rest)
  | c :: rest => c :: fillTemplate params rest

def TexError.message (error : TexError) : Text :=
  fillTemplate error.params error.template

/-- The standing wording of a family of errors. -/
structure ErrorFamily where
  kind : ErrorKind
  defaultKey : Text
  defaultTemplate : Text
  deriving DecidableEq, Repr

namespace ErrorFamily

/-- The family that is named by no cause. -/
def unspecified : ErrorFamily :=
  ⟨.malformedNotation, "TexError".toList, "TeX error".toList⟩

def malformedDimension : ErrorFamily :=
  ⟨.malformedDimension, "MissingDimOrUnits".toList,
    "Missing dimension or its units for %1".toList⟩

def illegalMacroParameter : ErrorFamily :=
  ⟨.illegalMacroParameter, "IllegalMacroParam".toList,
    "Illegal macro parameter reference".toList⟩

def macroBufferOverflow : ErrorFamily :=
  ⟨.macroBufferOverflow, "MaxBufferSize".toList,
    "Internal buffer size exceeded; is there a recursive macro call?".toList⟩

def unterminatedNotationIsland : ErrorFamily :=
  ⟨.unterminatedNotationIsland, "MathNotTerminated".toList,
    "Math not terminated in text box".toList⟩

def malformedNotation : ErrorFamily :=
  ⟨.malformedNotation, "MalformedNotation".toList, "Malformed notation".toList⟩

def erroneousNesting : ErrorFamily :=
  ⟨.erroneousNesting, "ErroneousNestingEq".toList,
    "Erroneous nesting of equation structures".toList⟩

/-- An error of the family.  An empty key or template gives way to the standing
one. -/
def report (family : ErrorFamily) (params : List Text) (key template : Text) :
    TexError where
  kind := family.kind
  key := if key.isEmpty then family.defaultKey else key
  template := if template.isEmpty then family.defaultTemplate else template
  params := params

end ErrorFamily

namespace TexError

def malformedDimension (command : Text) : TexError :=
  ErrorFamily.malformedDimension.report [command] [] []

def illegalMacroParameter (placeholder : Text) : TexError :=
  ErrorFamily.illegalMacroParameter.report [placeholder] [] []

def macroBufferOverflow : TexError :=
  ErrorFamily.macroBufferOverflow.report [] [] []

def unterminatedNotationIsland : TexError :=
  ErrorFamily.unterminatedNotationIsland.report [] [] []

def erroneousNesting : TexError :=
  ErrorFamily.erroneousNesting.report [] [] []

end TexError

end TextMode
