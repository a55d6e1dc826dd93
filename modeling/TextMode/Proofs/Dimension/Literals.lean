import Mathlib
import TextMode.Proofs.Dimension.Ems
import TextMode.Proofs.Dimension.Numerals

/-!
# The grammar of dimension literals

A literal is a numeral and a unit with blanks before each.  Neither can be lengthened by
what follows it, so a text starts with one literal at most.  Matching a whole text and
matching its beginning find the same literal, and the readers of dimensions accept what is
matched as a whole and nothing else.
-/

namespace TextMode

open Text (isBlank)

/-- A numeral and a unit with blanks before each. -/
def IsLiteral (written : Text) (unit : LengthUnit) (literal : Text) : Prop :=
  ∃ before between, (∀ c ∈ before, isBlank c) ∧ IsNumeral written ∧ (∀ c ∈ between, isBlank c) ∧
    literal = before ++ written ++ between ++ unit.symbol

/-! ## Units -/

namespace LengthUnit

theorem ofSymbol?_eq_some_iff {symbol : Text} {unit : LengthUnit} :
    ofSymbol? symbol = some unit ↔ symbol = unit.symbol := by
  constructor
  · intro hfound
    exact (of_decide_eq_true (List.find?_some hfound :)).symm
  · rintro rfl
    cases unit <;> decide

/-- A unit is read exactly if the text starts with its symbol.  No symbol is the beginning
of another, so the order in which they are tried does not matter. -/
theorem read?_eq_some_iff {text rest : Text} {unit : LengthUnit} :
    read? text = some (unit, rest) ↔ text = unit.symbol ++ rest := by
  constructor
  · intro hread
    unfold read? at hread
    split at hread
    · next c d tail =>
        obtain ⟨found, hfound, hpair⟩ := Option.map_eq_some_iff.mp hread
        obtain ⟨rfl, rfl⟩ := Prod.mk.inj hpair
        rw [← ofSymbol?_eq_some_iff.mp hfound]
        rfl
    · cases hread
  · rintro rfl
    cases unit <;> rfl

/-- A unit starts with a letter.  It can be mistaken neither for a digit or separator of the
numeral nor for a blank in front. -/
theorem head?_symbol (unit : LengthUnit) (rest : Text) :
    ∀ c ∈ (unit.symbol ++ rest).head?, c.isDigit = false ∧ isBlank c = false ∧ ¬ IsSeparator c := by
  intro c hc
  cases unit <;> cases hc <;> simp [IsSeparator] <;> decide

end LengthUnit

/-! ## Blanks -/

/-- Blanks and a unit end the numeral before them. -/
theorem endsNumeral_blanks {between : Text} (hbetween : ∀ c ∈ between, isBlank c)
    (unit : LengthUnit) (rest : Text) :
    Numeral.EndsNumeral (between ++ (unit.symbol ++ rest)) := by
  intro c hc
  cases between with
  | nil =>
      obtain ⟨hdigit, -, hseparator⟩ := unit.head?_symbol rest c hc
      exact ⟨hdigit, hseparator⟩
  | cons blank between =>
      obtain rfl : blank = c := by simpa using hc
      have hblank : isBlank blank := hbetween blank (List.mem_cons_self ..)
      constructor
      · by_contra hdigit
        rw [Text.isBlank_eq_false_of_isDigit (by simpa using hdigit)] at hblank
        exact Bool.false_ne_true hblank
      · rintro (rfl | rfl) <;> exact absurd hblank (by decide)

theorem IsSeparator.not_isBlank {c : Char} (hc : IsSeparator c) : isBlank c = false := by
  rcases hc with rfl | rfl <;> decide

theorem AreDigits.not_isBlank {digits : Text} (hdigits : AreDigits digits) :
    ∀ c ∈ digits, isBlank c = false := by
  intro c hc
  exact Text.isBlank_eq_false_of_isDigit (hdigits c hc)

/-- A number holds no blank.  Blanks in a literal are therefore those in front of the
numeral and those before the unit. -/
theorem IsUnsigned.not_isBlank {unsigned : Text} (hunsigned : IsUnsigned unsigned) :
    unsigned ≠ [] ∧ ∀ c ∈ unsigned, isBlank c = false := by
  cases hunsigned with
  | fraction hseparator _ hdigits =>
      refine ⟨List.cons_ne_nil _ _, List.forall_mem_cons.mpr ?_⟩
      exact ⟨hseparator.not_isBlank, hdigits.not_isBlank⟩
  | whole hne hdigits => exact ⟨hne, hdigits.not_isBlank⟩
  | mixed hne hwhole hseparator hfraction =>
      refine ⟨List.append_ne_nil_of_left_ne_nil hne _, List.forall_mem_append.mpr ?_⟩
      exact ⟨hwhole.not_isBlank, List.forall_mem_cons.mpr
        ⟨hseparator.not_isBlank, hfraction.not_isBlank⟩⟩

theorem IsNumeral.not_isBlank {written : Text} (hwritten : IsNumeral written) :
    written ≠ [] ∧ ∀ c ∈ written, isBlank c = false := by
  obtain ⟨sign, unsigned, hsign, hunsigned, rfl⟩ := hwritten
  obtain ⟨hne, hblank⟩ := hunsigned.not_isBlank
  refine ⟨List.append_ne_nil_of_right_ne_nil _ hne, List.forall_mem_append.mpr ⟨?_, hblank⟩⟩
  rcases hsign with rfl | rfl | rfl
  · exact List.forall_mem_nil _
  · exact List.forall_mem_singleton.mpr rfl
  · exact List.forall_mem_singleton.mpr rfl

/-- Blanks before a numeral end where it starts, so they can be dropped before it is
read. -/
theorem IsNumeral.dropLeadingBlanks {written : Text} (hwritten : IsNumeral written)
    {before : Text} (hbefore : ∀ c ∈ before, isBlank c) (rest : Text) :
    Text.dropLeadingBlanks (before ++ (written ++ rest)) = written ++ rest := by
  obtain ⟨hne, hblank⟩ := hwritten.not_isBlank
  obtain ⟨first, tail, rfl⟩ := List.exists_cons_of_ne_nil hne
  apply (span_run hbefore _).2
  simp [hblank first (List.mem_cons_self ..)]

theorem LengthUnit.dropLeadingBlanks {between : Text} (hbetween : ∀ c ∈ between, isBlank c)
    (unit : LengthUnit) (rest : Text) :
    Text.dropLeadingBlanks (between ++ (unit.symbol ++ rest)) = unit.symbol ++ rest := by
  apply (span_run hbetween _).2
  cases unit <;> rfl

/-! ## Reading literals -/

/-- What is read is a literal of the grammar, and its numeral was written in front of the
unit. -/
theorem isLiteral_of_readLiteral? {text rest : Text} {numeral : Numeral} {unit : LengthUnit}
    (hread : readLiteral? text = some (numeral, unit, rest)) :
    numeral.WellFormed ∧ ∃ written literal, numeral.Writes written ∧
      IsLiteral written unit literal ∧ text = literal ++ rest := by
  simp only [readLiteral?, Option.bind_eq_bind, Option.bind_eq_some_iff, Prod.exists,
    Option.pure_def, Option.some.injEq, Prod.mk.injEq] at hread
  obtain ⟨numeral, behind, hnumeral, unit, rest, hunit, rfl, rfl, rfl⟩ := hread
  obtain ⟨hwell, written, hwrites, htext⟩ := Numeral.writes_of_read? hnumeral
  have hbehind := LengthUnit.read?_eq_some_iff.mp hunit
  refine ⟨hwell, written, _, hwrites, ⟨text.takeWhile isBlank, behind.takeWhile isBlank,
    fun _ => List.mem_takeWhile_imp, Numeral.isNumeral_of_writes hwell hwrites,
    fun _ => List.mem_takeWhile_imp, rfl⟩, ?_⟩
  calc
    text = text.takeWhile isBlank ++ Text.dropLeadingBlanks text :=
        (List.takeWhile_append_dropWhile ..).symm
    _ = text.takeWhile isBlank ++ (written ++ behind) := by rw [htext]
    _ = text.takeWhile isBlank ++ (written ++ (behind.takeWhile isBlank ++
          Text.dropLeadingBlanks behind)) := by
        rw [Text.dropLeadingBlanks, List.takeWhile_append_dropWhile]
    _ = _ := by
        rw [hbehind]
        simp only [List.append_assoc]

/-- A literal is read in front of anything, since its unit ends it.  This is the half of the
grammar that needs the numeral not to be read too far. -/
theorem readLiteral?_append {numeral : Numeral} {written literal : Text} {unit : LengthUnit}
    (hwell : numeral.WellFormed) (hwrites : numeral.Writes written)
    (hliteral : IsLiteral written unit literal) (rest : Text) :
    readLiteral? (literal ++ rest) = some (numeral, unit, rest) := by
  obtain ⟨before, between, hbefore, hnumeral, hbetween, rfl⟩ := hliteral
  have hread := Numeral.read?_append hwell hwrites (endsNumeral_blanks hbetween unit rest)
  have hunit : LengthUnit.read? (unit.symbol ++ rest) = some (unit, rest) :=
    LengthUnit.read?_eq_some_iff.mpr rfl
  simp only [readLiteral?, List.append_assoc, hnumeral.dropLeadingBlanks hbefore, hread,
    Option.bind_eq_bind, Option.bind_some, LengthUnit.dropLeadingBlanks hbetween, hunit,
    Option.pure_def]

/-- A text has one reading as a literal and what follows it.  Reading is a function, and
each reading is read. -/
theorem IsLiteral.unique {written written' literal literal' rest rest' : Text}
    {unit unit' : LengthUnit} (hliteral : IsLiteral written unit literal)
    (hliteral' : IsLiteral written' unit' literal') (heq : literal ++ rest = literal' ++ rest') :
    written = written' ∧ unit = unit' ∧ literal = literal' := by
  obtain ⟨before, between, hbefore, hnumeral, hbetween, rfl⟩ := hliteral
  obtain ⟨before', between', hbefore', hnumeral', hbetween', rfl⟩ := hliteral'
  obtain ⟨numeral, hwell, hwrites⟩ := Numeral.exists_writes_of_isNumeral hnumeral
  obtain ⟨numeral', hwell', hwrites'⟩ := Numeral.exists_writes_of_isNumeral hnumeral'
  have hdropped := congrArg Text.dropLeadingBlanks heq
  simp only [List.append_assoc, hnumeral.dropLeadingBlanks hbefore,
    hnumeral'.dropLeadingBlanks hbefore'] at hdropped
  have hread := Numeral.read?_append hwell hwrites (endsNumeral_blanks hbetween unit rest)
  rw [hdropped, Numeral.read?_append hwell' hwrites' (endsNumeral_blanks hbetween' unit' rest'),
    Option.some.injEq, Prod.mk.injEq] at hread
  obtain ⟨-, hbehind⟩ := hread
  have hunit := congrArg (LengthUnit.read? ∘ Text.dropLeadingBlanks) hbehind
  simp only [Function.comp_apply, LengthUnit.dropLeadingBlanks hbetween,
    LengthUnit.dropLeadingBlanks hbetween', LengthUnit.read?_eq_some_iff.mpr rfl,
    Option.some.injEq, Prod.mk.injEq] at hunit
  obtain ⟨rfl, rfl⟩ := hunit
  rw [hbehind] at hdropped
  exact ⟨List.append_cancel_right hdropped, rfl, List.append_cancel_right heq⟩

/-! ## Matching -/

/-- What a match shows: the numeral with a point, the unit and the length. -/
def LiteralMatch.shown (found : LiteralMatch) : Text × LengthUnit × Nat :=
  (found.numeral.text, found.unit, found.length)

/-- The space behind a unit that belongs to the literal. -/
def followingSpace (rest : Text) : Nat :=
  if rest.head? = some ' ' then 1 else 0

variable {text rest numeral : Text} {unit : LengthUnit} {length : Nat}

/-- A literal that is read has the text of the written one, with a point for a comma.  The
blanks in it and in front are not kept. -/
theorem exists_readLiteral?_iff :
    (∃ read, readLiteral? text = some (read, unit, rest) ∧ read.text = numeral) ↔
      ∃ written literal, IsLiteral written unit literal ∧ text = literal ++ rest ∧
        numeral = withPoint written := by
  constructor
  · rintro ⟨read, hread, rfl⟩
    obtain ⟨hwell, written, literal, hwrites, hliteral, htext⟩ := isLiteral_of_readLiteral? hread
    exact ⟨written, literal, hliteral, htext, Numeral.text_eq_withPoint hwell hwrites⟩
  · rintro ⟨written, literal, hliteral, rfl, rfl⟩
    have hnumeral : IsNumeral written := hliteral.choose_spec.choose_spec.2.1
    obtain ⟨read, hwell, hwrites⟩ := Numeral.exists_writes_of_isNumeral hnumeral
    exact ⟨read, readLiteral?_append hwell hwrites hliteral rest,
      Numeral.text_eq_withPoint hwell hwrites⟩

/-- A text is matched as a whole if only blanks follow the literal.  The length of the match
is that of the text, blanks included. -/
theorem matchLiteral?_eq_some_iff {found : LiteralMatch} :
    matchLiteral? text = some found ↔
      ∃ rest, readLiteral? text = some (found.numeral, found.unit, rest) ∧
        (∀ c ∈ rest, isBlank c) ∧ found.length = text.length := by
  obtain ⟨numeral, unit, length⟩ := found
  simp only [matchLiteral?, Option.bind_eq_bind, Option.bind_eq_some_iff, Prod.exists,
    Option.ite_none_right_eq_some, Option.some.injEq, LiteralMatch.mk.injEq, List.all_eq_true]
  constructor
  · rintro ⟨read, found, rest, hread, hrest, rfl, rfl, rfl⟩
    exact ⟨rest, hread, hrest, rfl⟩
  · rintro ⟨rest, hread, hrest, rfl⟩
    exact ⟨numeral, unit, rest, hread, hrest, rfl, rfl, rfl⟩

/-- At the beginning of a text one space behind the literal belongs to the match, and no
other blank. -/
theorem matchLeadingLiteral?_eq_some_iff {found : LiteralMatch} :
    matchLeadingLiteral? text = some found ↔
      ∃ rest, readLiteral? text = some (found.numeral, found.unit, rest) ∧
        found.length = text.length - rest.length + followingSpace rest := by
  obtain ⟨numeral, unit, length⟩ := found
  simp only [matchLeadingLiteral?, Option.bind_eq_bind, Option.bind_eq_some_iff, Prod.exists,
    Option.pure_def, Option.some.injEq, LiteralMatch.mk.injEq]
  constructor
  · rintro ⟨read, found, rest, hread, rfl, rfl, rfl⟩
    exact ⟨rest, hread, rfl⟩
  · rintro ⟨rest, hread, rfl⟩
    exact ⟨numeral, unit, rest, hread, rfl, rfl, rfl⟩

theorem shown_eq_some_iff {found : Option LiteralMatch} :
    found.map LiteralMatch.shown = some (numeral, unit, length) ↔
      ∃ read, found = some ⟨read, unit, length⟩ ∧ read.text = numeral := by
  rw [Option.map_eq_some_iff]
  constructor
  · rintro ⟨⟨read, unit, length⟩, hfound, hshown⟩
    obtain ⟨rfl, rfl, rfl⟩ : read.text = numeral ∧ _ = _ ∧ _ = _ := by
      simpa [LiteralMatch.shown] using hshown
    exact ⟨read, hfound, rfl⟩
  · rintro ⟨read, hfound, rfl⟩
    exact ⟨_, hfound, rfl⟩

/-- What is shown of a match as a whole is given by the grammar: a literal, then blanks up
to the end. -/
theorem shown_matchLiteral?_iff :
    (matchLiteral? text).map LiteralMatch.shown = some (numeral, unit, length) ↔
      ∃ written literal rest, IsLiteral written unit literal ∧ (∀ c ∈ rest, isBlank c) ∧
        text = literal ++ rest ∧ numeral = withPoint written ∧ length = text.length := by
  simp only [shown_eq_some_iff, matchLiteral?_eq_some_iff]
  constructor
  · rintro ⟨read, ⟨rest, hread, hrest, hlength⟩, hnumeral⟩
    obtain ⟨written, literal, hliteral, htext, hnumeral⟩ :=
      exists_readLiteral?_iff.mp ⟨read, hread, hnumeral⟩
    exact ⟨written, literal, rest, hliteral, hrest, htext, hnumeral, hlength⟩
  · rintro ⟨written, literal, rest, hliteral, hrest, htext, hnumeral, hlength⟩
    obtain ⟨read, hread, hnumeral⟩ :=
      exists_readLiteral?_iff.mpr ⟨written, literal, hliteral, htext, hnumeral⟩
    exact ⟨read, ⟨rest, hread, hrest, hlength⟩, hnumeral⟩

/-- What is shown of a match at the beginning is given by the grammar as well.  Anything may
follow the literal. -/
theorem shown_matchLeadingLiteral?_iff :
    (matchLeadingLiteral? text).map LiteralMatch.shown = some (numeral, unit, length) ↔
      ∃ written literal rest, IsLiteral written unit literal ∧ text = literal ++ rest ∧
        numeral = withPoint written ∧ length = literal.length + followingSpace rest := by
  have hlength : ∀ literal rest : Text, text = literal ++ rest →
      text.length - rest.length = literal.length := by
    rintro literal rest rfl
    rw [List.length_append, Nat.add_sub_cancel]
  simp only [shown_eq_some_iff, matchLeadingLiteral?_eq_some_iff]
  constructor
  · rintro ⟨read, ⟨rest, hread, rfl⟩, hnumeral⟩
    obtain ⟨written, literal, hliteral, htext, hnumeral⟩ :=
      exists_readLiteral?_iff.mp ⟨read, hread, hnumeral⟩
    exact ⟨written, literal, rest, hliteral, htext, hnumeral, by rw [hlength _ _ htext]⟩
  · rintro ⟨written, literal, rest, hliteral, htext, hnumeral, rfl⟩
    obtain ⟨read, hread, hnumeral⟩ :=
      exists_readLiteral?_iff.mpr ⟨written, literal, hliteral, htext, hnumeral⟩
    exact ⟨read, ⟨rest, hread, by rw [hlength _ _ htext]⟩, hnumeral⟩

/-- Dropping a space that follows the unit leaves blanks exactly if there were only
blanks. -/
theorem forall_isBlank_drop_followingSpace :
    (∀ c ∈ rest.drop (followingSpace rest), isBlank c) ↔ ∀ c ∈ rest, isBlank c := by
  rw [followingSpace]
  split
  · next hspace =>
      obtain ⟨tail, rfl⟩ := List.head?_eq_some_iff.mp hspace
      have hblank : isBlank ' ' = true := by decide
      simp [hblank]
  · rfl

/-- Matching a text as a whole is matching its beginning with blanks left over. -/
theorem shown_matchLiteral?_iff_leading :
    (matchLiteral? text).map LiteralMatch.shown = some (numeral, unit, text.length) ↔
      ∃ length, (matchLeadingLiteral? text).map LiteralMatch.shown = some (numeral, unit, length) ∧
        ∀ c ∈ text.drop length, isBlank c := by
  have hdrop : ∀ literal rest : Text, text = literal ++ rest →
      text.drop (literal.length + followingSpace rest) = rest.drop (followingSpace rest) := by
    rintro literal rest rfl
    rw [← List.drop_drop, List.drop_left]
  simp only [shown_matchLiteral?_iff, shown_matchLeadingLiteral?_iff]
  constructor
  · rintro ⟨written, literal, rest, hliteral, hrest, htext, hnumeral, -⟩
    refine ⟨_, ⟨written, literal, rest, hliteral, htext, hnumeral, rfl⟩, ?_⟩
    rw [hdrop _ _ htext]
    exact forall_isBlank_drop_followingSpace.mpr hrest
  · rintro ⟨_, ⟨written, literal, rest, hliteral, htext, hnumeral, rfl⟩, hrest⟩
    rw [hdrop _ _ htext] at hrest
    exact ⟨written, literal, rest, hliteral, forall_isBlank_drop_followingSpace.mp hrest, htext,
      hnumeral, trivial⟩

/-! ## Readers of dimensions -/

/-- A dimension is read from a text that is matched as a whole.  Its magnitude is the number
that the numeral denotes. -/
theorem Dimension.read?_eq_some_iff {dimension : Dimension} :
    read? text = some dimension ↔
      ∃ numeral, (matchLiteral? text).map LiteralMatch.shown =
          some (numeral, dimension.unit, text.length) ∧
        Settings.readBinary64? numeral = some dimension.magnitude := by
  obtain ⟨magnitude, unit⟩ := dimension
  have hdenotes : ∀ found, matchLiteral? text = some found →
      found.length = text.length ∧
        Settings.readBinary64? found.numeral.text = some found.numeral.magnitude := by
    intro found hfound
    obtain ⟨rest, hread, -, hlength⟩ := matchLiteral?_eq_some_iff.mp hfound
    exact ⟨hlength, Numeral.readBinary64?_text (isLiteral_of_readLiteral? hread).1⟩
  constructor
  · intro hread
    obtain ⟨found, hfound, hdimension⟩ := Option.map_eq_some_iff.mp hread
    obtain ⟨rfl, rfl⟩ := Dimension.mk.inj hdimension
    obtain ⟨hlength, hmagnitude⟩ := hdenotes found hfound
    refine ⟨found.numeral.text, shown_eq_some_iff.mpr ⟨found.numeral, ?_, rfl⟩, hmagnitude⟩
    rw [hfound, ← hlength]
  · rintro ⟨_, hshown, hmagnitude⟩
    obtain ⟨numeral, hfound, rfl⟩ := shown_eq_some_iff.mp hshown
    obtain ⟨-, hdenoted⟩ := hdenotes _ hfound
    obtain rfl : magnitude = numeral.magnitude :=
      Option.some.inj (hmagnitude.symm.trans hdenoted)
    rw [read?, hfound]
    rfl

theorem Dimension.read?_eq_none_iff : read? text = none ↔ matchLiteral? text = none :=
  Option.map_eq_none_iff

/-- A dimension that is required is missing exactly if the text does not match as a whole.
The error names the command. -/
theorem Dimension.require_eq_error_iff {command : Text} {error : TexError} :
    require text command = .error error ↔
      matchLiteral? text = none ∧ error = .malformedDimension command := by
  rw [← read?_eq_none_iff, require]
  cases read? text with
  | none => simp [eq_comm]
  | some dimension => simp

theorem Dimension.require_eq_ok_iff {command : Text} {dimension : Dimension} :
    require text command = .ok dimension ↔ read? text = some dimension := by
  rw [require]
  cases read? text with
  | none => simp
  | some found => simp

/-- A text denotes a length in pixels exactly if it is matched as a whole with that unit. -/
theorem exists_read?_px_iff :
    (∃ dimension, Dimension.read? text = some dimension ∧ dimension.unit = .px) ↔
      ∃ numeral length, (matchLiteral? text).map LiteralMatch.shown =
        some (numeral, .px, length) := by
  constructor
  · rintro ⟨dimension, hread, hunit⟩
    obtain ⟨numeral, hshown, -⟩ := Dimension.read?_eq_some_iff.mp hread
    rw [hunit] at hshown
    exact ⟨numeral, text.length, hshown⟩
  · rintro ⟨_, length, hshown⟩
    obtain ⟨numeral, hfound, -⟩ := shown_eq_some_iff.mp hshown
    refine ⟨⟨numeral.magnitude, .px⟩, ?_, rfl⟩
    rw [Dimension.read?, hfound]
    rfl

/-- Dimension literals are matched by their grammar, as a whole or at the beginning of a
text, and the readers of dimensions agree with the match of the whole text. -/
theorem dimension_literals_recognised (text : Text) :
    (∀ numeral unit length,
      (matchLiteral? text).map LiteralMatch.shown = some (numeral, unit, length) ↔
        ∃ written literal rest, IsLiteral written unit literal ∧ (∀ c ∈ rest, isBlank c) ∧
          text = literal ++ rest ∧ numeral = withPoint written ∧ length = text.length) ∧
    (∀ numeral unit length,
      (matchLeadingLiteral? text).map LiteralMatch.shown = some (numeral, unit, length) ↔
        ∃ written literal rest, IsLiteral written unit literal ∧ text = literal ++ rest ∧
          numeral = withPoint written ∧
          length = literal.length + if rest.head? = some ' ' then 1 else 0) ∧
    (∀ written unit literal rest written' unit' literal' rest',
      IsLiteral written unit literal → text = literal ++ rest →
      IsLiteral written' unit' literal' → text = literal' ++ rest' →
      written = written' ∧ unit = unit') ∧
    (∀ numeral unit,
      (matchLiteral? text).map LiteralMatch.shown = some (numeral, unit, text.length) ↔
        ∃ length,
          (matchLeadingLiteral? text).map LiteralMatch.shown = some (numeral, unit, length) ∧
          ∀ c ∈ text.drop length, isBlank c) ∧
    (∀ dimension, Dimension.read? text = some dimension ↔
      ∃ numeral, (matchLiteral? text).map LiteralMatch.shown =
          some (numeral, dimension.unit, text.length) ∧
        Settings.readBinary64? numeral = some dimension.magnitude) ∧
    (∀ command error, Dimension.require text command = .error error ↔
      matchLiteral? text = none ∧ error = .malformedDimension command) ∧
    (∀ command dimension, Dimension.require text command = .ok dimension ↔
      Dimension.read? text = some dimension) ∧
    (∀ ratios em, emsOfText ratios text = .ok em ↔
      (matchLiteral? text = none ∧ em = .zero false) ∨
        ∃ dimension, Dimension.read? text = some dimension ∧ dimension.toEm ratios = .ok em) ∧
    (∀ ratios fault, emsOfText ratios text = .error fault ↔
      ratios.pxPerInch.isZero = true ∧
        ∃ numeral length, (matchLiteral? text).map LiteralMatch.shown =
          some (numeral, .px, length)) ∧
    ∃ em, emsOfText UnitRatios.standard text = .ok em := by
  refine ⟨?_, ?_, ?_, ?_, ?_, ?_, ?_, ?_, ?_, ?_⟩
  · intro numeral unit length
    exact shown_matchLiteral?_iff
  · intro numeral unit length
    exact shown_matchLeadingLiteral?_iff
  · intro written unit literal rest written' unit' literal' rest' hliteral htext hliteral' htext'
    obtain ⟨hwritten, hunit, -⟩ := hliteral.unique hliteral' (htext.symm.trans htext')
    exact ⟨hwritten, hunit⟩
  · intro numeral unit
    exact shown_matchLiteral?_iff_leading
  · intro dimension
    exact Dimension.read?_eq_some_iff
  · intro command error
    exact Dimension.require_eq_error_iff
  · intro command dimension
    exact Dimension.require_eq_ok_iff
  · intro ratios em
    rw [← Dimension.read?_eq_none_iff]
    exact emsOfText_eq_ok_iff
  · intro ratios fault
    rw [emsOfText_eq_error_iff, exists_read?_px_iff]
  · exact exists_emsOfText (by decide +kernel) text

end TextMode
