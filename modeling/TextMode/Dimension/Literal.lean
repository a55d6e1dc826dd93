import TextMode.Number.Binary64
import TextMode.Text.Blank

/-!
# Dimension literals

A dimension literal is a numeral and a unit, with blanks before, between and after
them.  A numeral has an optional sign and a decimal point or comma, with digits on
at least one side of it; digits behind the point are needed if there are none before
it.
-/

namespace TextMode

inductive LengthUnit where
  | em
  | ex
  | pt
  | pc
  | px
  | inch
  | cm
  | mm
  | mu
  deriving DecidableEq, Repr

namespace LengthUnit

def all : List LengthUnit :=
  [em, ex, pt, pc, px, inch, cm, mm, mu]

def symbol : LengthUnit → Text
  | em => ['e', 'm']
  | ex => ['e', 'x']
  | pt => ['p', 't']
  | pc => ['p', 'c']
  | px => ['p', 'x']
  | inch => ['i', 'n']
  | cm => ['c', 'm']
  | mm => ['m', 'm']
  | mu => ['m', 'u']

def ofSymbol? (symbol : Text) : Option LengthUnit :=
  all.find? fun length => length.symbol = symbol

/-- The name under which a unit is shown, its symbol in capitals. -/
def name (length : LengthUnit) : Text :=
  length.symbol.map Char.toUpper

end LengthUnit

/-- A numeral as it was written, but for the choice of point or comma. -/
structure Numeral where
  sign : Option Char
  whole : Text
  /-- The digits behind the point, or none if there is no point. -/
  fraction : Option Text
  deriving DecidableEq, Repr

namespace Numeral

/-- The numeral with a decimal point. -/
def text (numeral : Numeral) : Text :=
  numeral.sign.toList ++ numeral.whole ++
    match numeral.fraction with
    | none => []
    | some digits => '.' :: digits

def magnitude (numeral : Numeral) : Binary64 :=
  let fraction := numeral.fraction.getD []
  .ofDecimal (numeral.sign = some '-') (Text.ofDigits (numeral.whole ++ fraction))
    (-fraction.length)

def readSign (s : Text) : Option Char × Text :=
  match s with
  | '+' :: rest => (some '+', rest)
  | '-' :: rest => (some '-', rest)
  | _ => (none, s)

/-- The digits behind a point or comma at the start of a text. -/
def readFraction (s : Text) : Option Text × Text :=
  match s with
  | c :: rest =>
      if c = '.' || c = ',' then
        (some (rest.takeWhile Char.isDigit), rest.dropWhile Char.isDigit)
      else (none, s)
  | [] => (none, [])

/-- The longest numeral at the start of a text, with what follows it. -/
def read? (s : Text) : Option (Numeral × Text) :=
  let (sign, unsigned) := readSign s
  let whole := unsigned.takeWhile Char.isDigit
  let (fraction, rest) := readFraction (unsigned.dropWhile Char.isDigit)
  if whole.isEmpty && (fraction.getD []).isEmpty then none
  else some (⟨sign, whole, fraction⟩, rest)

end Numeral

/-- A unit at the start of a text, with what follows it. -/
def LengthUnit.read? : Text → Option (LengthUnit × Text)
  | c :: d :: rest => (ofSymbol? [c, d]).map fun length => (length, rest)
  | _ => none

/-- A dimension literal found at the start of a text. -/
structure LiteralMatch where
  numeral : Numeral
  unit : LengthUnit
  /-- The number of characters of the text that belong to the literal. -/
  length : Nat
  deriving DecidableEq, Repr

/-- A numeral and a unit with blanks before each, and what follows the unit. -/
def readLiteral? (s : Text) : Option (Numeral × LengthUnit × Text) := do
  let (numeral, rest) ← Numeral.read? (Text.dropLeadingBlanks s)
  let (unit, rest) ← LengthUnit.read? (Text.dropLeadingBlanks rest)
  return (numeral, unit, rest)

/-- Matches a text that is a dimension literal as a whole. -/
def matchLiteral? (s : Text) : Option LiteralMatch := do
  let (numeral, unit, rest) ← readLiteral? s
  if rest.all Text.isBlank then some ⟨numeral, unit, s.length⟩ else none

/-- Matches a dimension literal at the start of a text.  One space after the unit
belongs to it. -/
def matchLeadingLiteral? (s : Text) : Option LiteralMatch := do
  let (numeral, unit, rest) ← readLiteral? s
  let space := if rest.head? = some ' ' then 1 else 0
  return ⟨numeral, unit, s.length - rest.length + space⟩

theorem length_readFraction_le (s : Text) : (Numeral.readFraction s).2.length ≤ s.length := by
  unfold Numeral.readFraction
  repeat' split
  · simp only [List.length_cons]
    exact Nat.le_succ_of_le (List.dropWhile_suffix _).length_le
  · exact Nat.le_refl _
  · exact Nat.le_refl _

theorem length_readSign_le (s : Text) : (Numeral.readSign s).2.length ≤ s.length := by
  unfold Numeral.readSign
  split <;> simp

theorem length_lt_of_readLiteral? {s rest : Text} {numeral : Numeral} {unit : LengthUnit}
    (h : readLiteral? s = some (numeral, unit, rest)) : rest.length < s.length := by
  simp only [readLiteral?, Option.bind_eq_bind, Option.bind_eq_some_iff, Prod.exists,
    Option.pure_def, Option.some.injEq, Prod.mk.injEq] at h
  obtain ⟨_, middle, hnumeral, _, _, hunit, -, -, rfl⟩ := h
  have hmiddle : middle.length ≤ s.length := by
    simp only [Numeral.read?] at hnumeral
    split at hnumeral
    · cases hnumeral
    · simp only [Option.some.injEq, Prod.mk.injEq] at hnumeral
      rw [← hnumeral.2]
      calc
        _ ≤ _ := length_readFraction_le _
        _ ≤ _ := (List.dropWhile_suffix _).length_le
        _ ≤ _ := length_readSign_le _
        _ ≤ _ := (List.dropWhile_suffix _).length_le
  have hdropped : (Text.dropLeadingBlanks middle).length ≤ middle.length :=
    (List.dropWhile_suffix _).length_le
  unfold LengthUnit.read? at hunit
  split at hunit
  case h_1 heq =>
    obtain ⟨_, -, hpair⟩ := Option.map_eq_some_iff.1 hunit
    have hlength := congrArg List.length heq
    simp only [Prod.mk.injEq] at hpair
    rw [← hpair.2]
    simp only [List.length_cons] at hlength
    omega
  case h_2 => cases hunit

/-- A match takes at least one character of a text that has one. -/
theorem length_drop_lt_of_matchLeadingLiteral? {s : Text} {found : LiteralMatch}
    (h : matchLeadingLiteral? s = some found) : (s.drop found.length).length < s.length := by
  simp only [matchLeadingLiteral?, Option.bind_eq_bind, Option.bind_eq_some_iff, Prod.exists,
    Option.pure_def, Option.some.injEq] at h
  obtain ⟨_, _, rest, hread, rfl⟩ := h
  have := length_lt_of_readLiteral? hread
  simp only [List.length_drop]
  omega

/-- The literals that follow one another at the start of a text, and the text after
the last. -/
def leadingLiterals (s : Text) : List LiteralMatch × Text :=
  match _h : matchLeadingLiteral? s with
  | none => ([], s)
  | some found =>
      let (others, rest) := leadingLiterals (s.drop found.length)
      (found :: others, rest)
termination_by s.length
decreasing_by exact length_drop_lt_of_matchLeadingLiteral? _h

end TextMode
