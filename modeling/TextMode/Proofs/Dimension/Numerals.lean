import Mathlib
import TextMode.Dimension.Literal
import TextMode.Proofs.Text.Runs
import TextMode.Settings.Number

/-!
# The grammar of numerals

A numeral is a sign, if any, and digits with a point or a comma among them.  The grammar
is stated on texts.  The reader takes the longest numeral, so it finds a given one in front
of whatever cannot lengthen it.  Written with a point, a numeral denotes its magnitude to
the reader of numbers in settings as well.
-/

namespace TextMode

def IsSign (sign : Option Char) : Prop :=
  sign = none ∨ sign = some '+' ∨ sign = some '-'

/-- A decimal point or a decimal comma. -/
def IsSeparator (c : Char) : Prop :=
  c = '.' ∨ c = ','

def AreDigits (digits : Text) : Prop :=
  ∀ c ∈ digits, c.isDigit

/-- Digits are needed behind the separator only if there are none before it. -/
inductive IsUnsigned : Text → Prop where
  | fraction {separator : Char} {digits : Text} :
      IsSeparator separator → digits ≠ [] → AreDigits digits →
      IsUnsigned (separator :: digits)
  | whole {digits : Text} : digits ≠ [] → AreDigits digits → IsUnsigned digits
  | mixed {whole fraction : Text} {separator : Char} :
      whole ≠ [] → AreDigits whole → IsSeparator separator → AreDigits fraction →
      IsUnsigned (whole ++ separator :: fraction)

def IsNumeral (written : Text) : Prop :=
  ∃ sign unsigned, IsSign sign ∧ IsUnsigned unsigned ∧ written = sign.toList ++ unsigned

/-! ## Points for commas -/

/-- A text with its first comma turned into a point. -/
def withPoint : Text → Text
  | [] => []
  | c :: rest => if c = ',' then '.' :: rest else c :: withPoint rest

theorem withPoint_append {before : Text} (hbefore : ',' ∉ before) (rest : Text) :
    withPoint (before ++ rest) = before ++ withPoint rest := by
  induction before with
  | nil => rfl
  | cons c before ih =>
      obtain ⟨hc, hrest⟩ := not_or.mp (mt List.mem_cons.mpr hbefore)
      rw [List.cons_append, withPoint, if_neg (Ne.symm hc), ih hrest, List.cons_append]

theorem withPoint_of_not_mem {text : Text} (htext : ',' ∉ text) : withPoint text = text := by
  have hsplit := withPoint_append htext []
  rwa [List.append_nil, withPoint, List.append_nil] at hsplit

/-- A numeral has one separator at most, so replacing the first comma is replacing all of
them. -/
theorem withPoint_separator {separator : Char} (hseparator : IsSeparator separator)
    {digits : Text} (hdigits : ',' ∉ digits) :
    withPoint (separator :: digits) = '.' :: digits := by
  rcases hseparator with rfl | rfl
  · rw [withPoint, if_neg (by decide), withPoint_of_not_mem hdigits]
  · rw [withPoint, if_pos rfl]

/-! ## Digits -/

namespace AreDigits

theorem not_mem {digits : Text} (hdigits : AreDigits digits) {c : Char}
    (hc : c.isDigit = false) : c ∉ digits := by
  intro hmem
  exact ne_of_accepts (hdigits c hmem) hc rfl

theorem nil : AreDigits [] :=
  List.forall_mem_nil _

theorem append {left right : Text} (hleft : AreDigits left) (hright : AreDigits right) :
    AreDigits (left ++ right) :=
  List.forall_mem_append.mpr ⟨hleft, hright⟩

theorem takeWhile (text : Text) : AreDigits (text.takeWhile Char.isDigit) := by
  intro c hc
  exact List.mem_takeWhile_imp hc

end AreDigits

/-! ## Numerals and their written forms -/

namespace Numeral

/-- The parts of a numeral can be told apart when they are written one after another. -/
structure WellFormed (numeral : Numeral) : Prop where
  sign : IsSign numeral.sign
  whole : AreDigits numeral.whole
  fraction : AreDigits (numeral.fraction.getD [])
  digits_ne_nil : numeral.whole ++ numeral.fraction.getD [] ≠ []

/-- A fraction is written as a separator and its digits. -/
def WritesFraction : Option Text → Text → Prop
  | none, written => written = []
  | some digits, written => ∃ separator, IsSeparator separator ∧ written = separator :: digits

def Writes (numeral : Numeral) (written : Text) : Prop :=
  ∃ fraction, WritesFraction numeral.fraction fraction ∧
    written = numeral.sign.toList ++ (numeral.whole ++ fraction)

/-- Whatever writes a well-formed numeral is a numeral of the grammar. -/
theorem isNumeral_of_writes {numeral : Numeral} {written : Text} (hwell : numeral.WellFormed)
    (hwrites : numeral.Writes written) : IsNumeral written := by
  obtain ⟨sign, whole, fraction⟩ := numeral
  obtain ⟨fractionText, hfraction, rfl⟩ := hwrites
  refine ⟨sign, whole ++ fractionText, hwell.sign, ?_, rfl⟩
  have hne := hwell.digits_ne_nil
  cases fraction with
  | none =>
      obtain rfl : fractionText = [] := hfraction
      exact .whole hne (hwell.whole.append .nil)
  | some digits =>
      obtain ⟨separator, hseparator, rfl⟩ := hfraction
      cases whole with
      | nil => exact .fraction hseparator hne hwell.fraction
      | cons first whole =>
          exact .mixed (List.cons_ne_nil first whole) hwell.whole hseparator hwell.fraction

/-- Every numeral of the grammar is the written form of a well-formed one.  Its parts are
read off the rule that it was made by. -/
theorem exists_writes_of_isNumeral {written : Text} (hwritten : IsNumeral written) :
    ∃ numeral : Numeral, numeral.WellFormed ∧ numeral.Writes written := by
  obtain ⟨sign, unsigned, hsign, hunsigned, rfl⟩ := hwritten
  cases hunsigned with
  | @fraction separator digits hseparator hne hdigits =>
      exact ⟨⟨sign, [], some digits⟩, ⟨hsign, .nil, hdigits, hne⟩,
        separator :: digits, ⟨separator, hseparator, rfl⟩, rfl⟩
  | whole hne hdigits =>
      exact ⟨⟨sign, unsigned, none⟩, ⟨hsign, hdigits, .nil, by simpa using hne⟩,
        [], rfl, by rw [List.append_nil]⟩
  | @mixed whole fraction separator hne hwhole hseparator hfraction =>
      exact ⟨⟨sign, whole, some fraction⟩, ⟨hsign, hwhole, hfraction, by simp [hne]⟩,
        separator :: fraction, ⟨separator, hseparator, rfl⟩, rfl⟩

/-- The text of a numeral is its written form with a point for a comma.  Sign and digits are
kept as they were written. -/
theorem text_eq_withPoint {numeral : Numeral} {written : Text} (hwell : numeral.WellFormed)
    (hwrites : numeral.Writes written) : numeral.text = withPoint written := by
  obtain ⟨sign, whole, fraction⟩ := numeral
  obtain ⟨fractionText, hfraction, rfl⟩ := hwrites
  have hsign : ',' ∉ sign.toList := by
    rcases hwell.sign with rfl | rfl | rfl <;> decide
  have hwhole : ',' ∉ whole := hwell.whole.not_mem rfl
  rw [withPoint_append hsign, withPoint_append hwhole, text, List.append_assoc]
  cases fraction with
  | none =>
      obtain rfl : fractionText = [] := hfraction
      rfl
  | some digits =>
      obtain ⟨separator, hseparator, rfl⟩ := hfraction
      have hdigits : ',' ∉ digits := hwell.fraction.not_mem rfl
      rw [withPoint_separator hseparator hdigits]

/-! ## Reading numerals -/

/-- What stands behind a numeral cannot be a part of it. -/
def EndsNumeral (rest : Text) : Prop :=
  ∀ c ∈ rest.head?, c.isDigit = false ∧ ¬ IsSeparator c

theorem EndsNumeral.not_isDigit {rest : Text} (hrest : EndsNumeral rest) :
    rest.head?.all fun c => !c.isDigit := by
  cases rest with
  | nil => rfl
  | cons c rest => simp [(hrest c rfl).1]

theorem WritesFraction.not_isDigit {fraction : Option Text} {written rest : Text}
    (hwrites : WritesFraction fraction written) (hrest : EndsNumeral rest) :
    (written ++ rest).head?.all fun c => !c.isDigit := by
  cases fraction with
  | none =>
      obtain rfl : written = [] := hwrites
      exact hrest.not_isDigit
  | some digits =>
      obtain ⟨separator, rfl | rfl, rfl⟩ := hwrites <;> rfl

/-- A sign is taken if there is one, and together with what is left it is the text. -/
theorem readSign_spec (text : Text) :
    IsSign (readSign text).1 ∧ text = (readSign text).1.toList ++ (readSign text).2 := by
  unfold readSign
  split <;> simp [IsSign]

theorem readSign_append {sign : Option Char} (hsign : IsSign sign) {rest : Text}
    (hrest : ∀ c ∈ rest.head?, c ≠ '+' ∧ c ≠ '-') :
    readSign (sign.toList ++ rest) = (sign, rest) := by
  rcases hsign with rfl | rfl | rfl
  · cases rest with
    | nil => rfl
    | cons c rest => simp [readSign, hrest c rfl]
  · rfl
  · rfl

/-- A fraction is taken with its separator, even if no digit follows that.  Together with
what is left it is the text. -/
theorem readFraction_spec (text : Text) :
    AreDigits ((readFraction text).1.getD []) ∧
      ∃ written, WritesFraction (readFraction text).1 written ∧
        text = written ++ (readFraction text).2 := by
  unfold readFraction
  split
  · next c rest =>
      split
      · next hseparator =>
          have hc : IsSeparator c := by simpa [IsSeparator] using hseparator
          refine ⟨.takeWhile rest, c :: rest.takeWhile Char.isDigit, ⟨c, hc, rfl⟩, ?_⟩
          rw [List.cons_append, List.takeWhile_append_dropWhile]
      · exact ⟨.nil, [], rfl, rfl⟩
  · exact ⟨.nil, [], rfl, rfl⟩

/-- A fraction is read in front of anything that starts with neither digit nor separator,
for its digits end there. -/
theorem readFraction_append {fraction : Option Text} {written rest : Text}
    (hdigits : AreDigits (fraction.getD [])) (hwrites : WritesFraction fraction written)
    (hrest : EndsNumeral rest) : readFraction (written ++ rest) = (fraction, rest) := by
  cases fraction with
  | none =>
      obtain rfl : written = [] := hwrites
      cases rest with
      | nil => rfl
      | cons c rest =>
          have hc : ¬(c = '.' || c = ',') := by simpa [IsSeparator] using (hrest c rfl).2
          rw [List.nil_append, readFraction, if_neg hc]
  | some digits =>
      obtain ⟨separator, hseparator, rfl⟩ := hwrites
      have hc : separator = '.' || separator = ',' := by simpa [IsSeparator] using hseparator
      obtain ⟨htake, hdrop⟩ := @span_run Char Char.isDigit digits rest hdigits hrest.not_isDigit
      rw [List.cons_append, readFraction, if_pos hc, htake, hdrop]

/-- What is read is a numeral, and it was written in front of what is left. -/
theorem writes_of_read? {text rest : Text} {numeral : Numeral}
    (hread : read? text = some (numeral, rest)) :
    numeral.WellFormed ∧ ∃ written, numeral.Writes written ∧ text = written ++ rest := by
  obtain ⟨hsign, htext⟩ := readSign_spec text
  obtain ⟨hdigits, written, hwritten, hfraction⟩ :=
    readFraction_spec ((readSign text).2.dropWhile Char.isDigit)
  simp only [read?] at hread
  split at hread
  · cases hread
  · next hnonempty =>
      simp only [Option.some.injEq, Prod.mk.injEq] at hread
      obtain ⟨rfl, rfl⟩ := hread
      refine ⟨⟨hsign, .takeWhile _, hdigits, ?_⟩, _, ⟨written, hwritten, rfl⟩, ?_⟩
      · simpa [List.isEmpty_iff] using hnonempty
      calc
        text = (readSign text).1.toList ++ (readSign text).2 := htext
        _ = (readSign text).1.toList ++ ((readSign text).2.takeWhile Char.isDigit ++
              (readSign text).2.dropWhile Char.isDigit) := by
            rw [List.takeWhile_append_dropWhile]
        _ = _ := by
            conv_lhs => rw [hfraction]
            simp only [List.append_assoc]

/-- Behind its sign a numeral starts with a digit or with its separator. -/
theorem WellFormed.head_ne_sign {numeral : Numeral} (hwell : numeral.WellFormed)
    {fraction : Text} (hfraction : WritesFraction numeral.fraction fraction) (rest : Text) :
    ∀ c ∈ (numeral.whole ++ (fraction ++ rest)).head?, c ≠ '+' ∧ c ≠ '-' := by
  obtain ⟨sign, whole, parts⟩ := numeral
  intro c hc
  cases whole with
  | cons first whole =>
      obtain rfl : first = c := by simpa using hc
      have hdigit : first.isDigit := hwell.whole first (List.mem_cons_self ..)
      exact ⟨ne_of_accepts hdigit rfl, ne_of_accepts hdigit rfl⟩
  | nil =>
      cases parts with
      | none => exact absurd rfl hwell.digits_ne_nil
      | some digits =>
          obtain ⟨separator, hseparator, rfl⟩ := hfraction
          obtain rfl : separator = c := by simpa using hc
          rcases hseparator with rfl | rfl <;> decide

/-- A numeral is read in front of anything that cannot lengthen it.  A digit would lengthen
it, and so would a separator if it has none yet. -/
theorem read?_append {numeral : Numeral} {written rest : Text} (hwell : numeral.WellFormed)
    (hwrites : numeral.Writes written) (hrest : EndsNumeral rest) :
    read? (written ++ rest) = some (numeral, rest) := by
  obtain ⟨fraction, hfraction, rfl⟩ := hwrites
  obtain ⟨htake, hdrop⟩ := span_run hwell.whole (hfraction.not_isDigit hrest)
  have hsign := readSign_append hwell.sign (hwell.head_ne_sign hfraction rest)
  have hnonempty : ¬(numeral.whole.isEmpty && (numeral.fraction.getD []).isEmpty) := by
    simpa [List.isEmpty_iff] using hwell.digits_ne_nil
  simp only [read?, List.append_assoc, hsign, htake, hdrop,
    readFraction_append hwell.fraction hfraction hrest]
  rw [if_neg hnonempty]

/-! ## The number that a numeral denotes -/

open Settings (readCoefficient? readUnsigned? readSigned? readBinary64? trimSpaces isSpace)

/-- The fraction behind a point. -/
def pointedFraction : Option Text → Text
  | none => []
  | some digits => '.' :: digits

theorem text_eq (numeral : Numeral) :
    numeral.text =
      numeral.sign.toList ++ (numeral.whole ++ pointedFraction numeral.fraction) := by
  rw [text, List.append_assoc]
  rfl

theorem writesFraction_pointedFraction (fraction : Option Text) :
    WritesFraction fraction (pointedFraction fraction) := by
  cases fraction with
  | none => rfl
  | some digits => exact ⟨'.', .inl rfl, rfl⟩

theorem WellFormed.head?_unsigned {numeral : Numeral} (hwell : numeral.WellFormed) :
    ∀ c ∈ (numeral.whole ++ pointedFraction numeral.fraction).head?, c ≠ '+' ∧ c ≠ '-' := by
  have hwrites := writesFraction_pointedFraction numeral.fraction
  simpa using hwell.head_ne_sign hwrites []

/-- A digit or a point. -/
def IsUnsignedChar (c : Char) : Prop :=
  c.isDigit ∨ c = '.'

theorem IsUnsignedChar.toLower {c : Char} (hc : IsUnsignedChar c) : c.toLower = c := by
  have hupper : ¬(c.val ≥ 'A'.val ∧ c.val ≤ 'Z'.val) := by
    rcases hc with hdigit | rfl
    · intro ⟨hlow, _⟩
      have hhigh : c.val ≤ '9'.val := (Bool.and_eq_true_iff.mp hdigit).2 |> of_decide_eq_true
      have := UInt32.le_trans hlow hhigh
      exact absurd this (by decide)
    · decide
  rw [Char.toLower, dif_neg hupper]

/-- A numeral consists of digits and a point behind its sign.  Words for numbers, exponents
and underscores do not occur. -/
theorem WellFormed.isUnsignedChar {numeral : Numeral} (hwell : numeral.WellFormed) :
    ∀ c ∈ numeral.whole ++ pointedFraction numeral.fraction, IsUnsignedChar c := by
  obtain ⟨sign, whole, fraction⟩ := numeral
  intro c hc
  rcases List.mem_append.mp hc with hwhole | hfraction
  · exact .inl (hwell.whole c hwhole)
  · cases fraction with
    | none => cases hfraction
    | some digits =>
        rcases List.mem_cons.mp hfraction with rfl | hdigits
        · exact .inr rfl
        · exact .inl (hwell.fraction c hdigits)

/-- Digits and a fraction are read as a coefficient, which leaves no exponent behind it. -/
theorem readCoefficient?_unsigned {numeral : Numeral} (hwell : numeral.WellFormed) :
    readCoefficient? (numeral.whole ++ pointedFraction numeral.fraction) =
      some (numeral.whole, numeral.fraction.getD [], []) := by
  obtain ⟨sign, whole, fraction⟩ := numeral
  have hne := hwell.digits_ne_nil
  cases fraction with
  | none =>
      obtain ⟨htake, hdrop⟩ := @span_run Char Char.isDigit whole [] hwell.whole rfl
      have hwhole : ¬whole.isEmpty := by simpa [List.isEmpty_iff] using hne
      simp only [pointedFraction, readCoefficient?, htake, hdrop, if_neg hwhole, Option.getD_none]
  | some digits =>
      obtain ⟨htake, hdrop⟩ :=
        @span_run Char Char.isDigit whole ('.' :: digits) hwell.whole rfl
      obtain ⟨htakeDigits, hdropDigits⟩ :=
        @span_run Char Char.isDigit digits [] hwell.fraction rfl
      rw [List.append_nil] at htakeDigits hdropDigits
      have hdigits : ¬(whole.isEmpty && digits.isEmpty) := by
        simpa [List.isEmpty_iff] using hne
      simp only [pointedFraction, readCoefficient?, htake, hdrop, htakeDigits, hdropDigits,
        if_neg hdigits, Option.getD_some]

/-- The digits of a numeral denote a decimal number.  They are not one of the words that
stand for a number, because each of these holds an `n`. -/
theorem readUnsigned?_unsigned {numeral : Numeral} (hwell : numeral.WellFormed)
    (negative : Bool) :
    readUnsigned? negative (numeral.whole ++ pointedFraction numeral.fraction) =
      some (.ofDecimal negative (Text.ofDigits (numeral.whole ++ numeral.fraction.getD []))
        (-(numeral.fraction.getD []).length)) := by
  have hchars := hwell.isUnsignedChar
  have hcoefficient := readCoefficient?_unsigned hwell
  generalize numeral.whole ++ pointedFraction numeral.fraction = unsigned at hchars hcoefficient ⊢
  have hlower : unsigned.map Char.toLower = unsigned := by
    rw [List.map_congr_left fun c hc => (hchars c hc).toLower, List.map_id']
  have hword : ∀ word : String, 'n' ∈ word.toList → String.ofList unsigned ≠ word := by
    rintro word hmem rfl
    rw [String.toList_ofList] at hmem
    rcases hchars 'n' hmem with hdigit | hpoint
    · exact absurd hdigit (by decide)
    · exact absurd hpoint (by decide)
  have hinf := hword "inf" (by decide)
  have hinfinity := hword "infinity" (by decide)
  have hnan := hword "nan" (by decide)
  simp [readUnsigned?, hlower, hcoefficient, hinf, hinfinity, hnan, Json.readExponent]

theorem trimSpaces_of_forall {text : Text} (htext : ∀ c ∈ text, isSpace c = false) :
    trimSpaces text = text := by
  have hdrop : ∀ run : Text, (∀ c ∈ run, isSpace c = false) → run.dropWhile isSpace = run := by
    intro run hrun
    cases run with
    | nil => rfl
    | cons c run => simp [hrun c (List.mem_cons_self ..)]
  have hreverse : ∀ c ∈ text.reverse, isSpace c = false := by
    intro c hc
    exact htext c (List.mem_reverse.mp hc)
  rw [trimSpaces, hdrop text htext, hdrop text.reverse hreverse, List.reverse_reverse]

theorem isSpace_of_isUnsignedChar {c : Char} (hc : IsUnsignedChar c) : isSpace c = false := by
  rcases hc with hdigit | rfl
  · rw [isSpace, Text.isBlank_eq_false_of_isDigit hdigit]
    rfl
  · decide

/-- There are no spaces in a numeral, so nothing is trimmed before it is read as a
number. -/
theorem WellFormed.trimSpaces_text {numeral : Numeral} (hwell : numeral.WellFormed) :
    trimSpaces numeral.text = numeral.text := by
  apply trimSpaces_of_forall
  intro c hc
  rw [text_eq] at hc
  rcases List.mem_append.mp hc with hsign | hunsigned
  · rcases hwell.sign with hnone | hplus | hminus
    · rw [hnone] at hsign
      cases hsign
    · rw [hplus] at hsign
      obtain rfl : c = '+' := List.mem_singleton.mp hsign
      decide
    · rw [hminus] at hsign
      obtain rfl : c = '-' := List.mem_singleton.mp hsign
      decide
  · exact isSpace_of_isUnsignedChar (hwell.isUnsignedChar c hunsigned)

theorem readSigned?_of_head {text : Text} (htext : ∀ c ∈ text.head?, c ≠ '+' ∧ c ≠ '-') :
    readSigned? text = readUnsigned? false text := by
  cases text with
  | nil => rfl
  | cons c text =>
      have hc := htext c rfl
      simp [readSigned?, hc]

/-- The text of a numeral denotes its magnitude.  The sign is read first, then the digits as
a decimal number that is rounded once. -/
theorem readBinary64?_text {numeral : Numeral} (hwell : numeral.WellFormed) :
    readBinary64? numeral.text = some numeral.magnitude := by
  have hunsigned : readUnsigned? (numeral.sign = some '-')
      (numeral.whole ++ pointedFraction numeral.fraction) = some numeral.magnitude :=
    readUnsigned?_unsigned hwell _
  have hsigned : readSigned? numeral.text = some numeral.magnitude := by
    rw [text_eq, ← hunsigned]
    rcases hwell.sign with hsign | hsign | hsign
    · rw [hsign, Option.toList_none, List.nil_append, readSigned?_of_head hwell.head?_unsigned]
      rfl
    · rw [hsign]
      rfl
    · rw [hsign]
      rfl
  rw [readBinary64?, hwell.trimSpaces_text, hsigned]
  rfl

end Numeral

end TextMode
