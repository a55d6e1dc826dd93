import Mathlib
import TextMode.Proofs.Dimension.Literals

/-!
# Sequences of dimension literals

Literals are matched at the start of a text, each behind the one before, until none is
found.  Every match is a literal as a whole, with the space behind it if there is one, so the
text is cut into such parts and a rest.  A space that is dropped with a literal is missed by
nobody, because blanks before the next literal belong to it anyway.
-/

namespace TextMode

open Text (isBlank)

/-- A numeral and a unit as they are written in a literal. -/
structure WrittenLiteral where
  numeral : Text
  unit : LengthUnit
  text : Text
  isLiteral : IsLiteral numeral unit text

/-- The numeral with a point for a comma, and the unit. -/
def WrittenLiteral.reading (literal : WrittenLiteral) : Text × LengthUnit :=
  (withPoint literal.numeral, literal.unit)

def LiteralMatch.reading (found : LiteralMatch) : Text × LengthUnit :=
  (found.numeral.text, found.unit)

/-- A literal is matched at the start of the text and dropped, and so on until there is none.
Each match stands behind the part that is dropped with it. -/
inductive Resumes : Text → List (Text × LiteralMatch) → Text → Prop where
  | stop {text : Text} : matchLeadingLiteral? text = none → Resumes text [] text
  | next {text rest : Text} {found : LiteralMatch} {steps : List (Text × LiteralMatch)} :
      matchLeadingLiteral? text = some found →
      Resumes (text.drop found.length) steps rest →
      Resumes text ((text.take found.length, found) :: steps) rest

/-! ## One step -/

variable {text rest : Text} {found : LiteralMatch}

theorem matchLeadingLiteral?_eq_none_iff :
    matchLeadingLiteral? text = none ↔ readLiteral? text = none := by
  rw [matchLeadingLiteral?]
  cases readLiteral? text <;> simp

/-- A literal that is read is dropped with the space behind it. -/
theorem exists_matchLeadingLiteral? {numeral : Numeral} {unit : LengthUnit}
    (hread : readLiteral? text = some (numeral, unit, rest)) :
    ∃ length, matchLeadingLiteral? text = some ⟨numeral, unit, length⟩ ∧
      text.drop length = rest.drop (followingSpace rest) := by
  obtain ⟨-, written, literal, -, -, rfl⟩ := isLiteral_of_readLiteral? hread
  refine ⟨_, matchLeadingLiteral?_eq_some_iff.mpr ⟨rest, hread, rfl⟩, ?_⟩
  rw [List.length_append, Nat.add_sub_cancel, ← List.drop_drop, List.drop_left]

/-- A literal has a digit and the two letters of its unit at least. -/
theorem IsLiteral.three_le_length {written literal : Text} {unit : LengthUnit}
    (hliteral : IsLiteral written unit literal) : 3 ≤ literal.length := by
  obtain ⟨before, between, -, hnumeral, -, rfl⟩ := hliteral
  have hwritten := List.length_pos_iff.mpr hnumeral.not_isBlank.1
  have hsymbol : unit.symbol.length = 2 := by cases unit <;> rfl
  simp only [List.length_append, hsymbol]
  omega

/-- What is dropped is a literal as a whole, and the match is the same.  The space that is
dropped with it is a blank behind the literal. -/
theorem matchLiteral?_take (hfound : matchLeadingLiteral? text = some found) :
    3 ≤ found.length ∧ found.length ≤ text.length ∧
      matchLiteral? (text.take found.length) = some found := by
  obtain ⟨rest, hread, hlength⟩ := matchLeadingLiteral?_eq_some_iff.mp hfound
  obtain ⟨hwell, written, literal, hwrites, hliteral, rfl⟩ := isLiteral_of_readLiteral? hread
  rw [List.length_append, Nat.add_sub_cancel] at hlength
  have hspace : followingSpace rest ≤ rest.length ∧
      ∀ c ∈ rest.take (followingSpace rest), isBlank c := by
    rw [followingSpace]
    split
    · next hhead =>
        obtain ⟨tail, rfl⟩ := List.head?_eq_some_iff.mp hhead
        have hblank : isBlank ' ' = true := by decide
        simp [hblank]
    · simp
  have htake : (literal ++ rest).take found.length =
      literal ++ rest.take (followingSpace rest) := by
    rw [hlength, List.take_length_add_append]
  have hthree := hliteral.three_le_length
  refine ⟨by omega, by rw [List.length_append]; omega, ?_⟩
  rw [htake, matchLiteral?_eq_some_iff]
  refine ⟨_, readLiteral?_append hwell hwrites hliteral _, hspace.2, ?_⟩
  rw [hlength, List.length_append, List.length_take, Nat.min_eq_left hspace.1]

/-! ## Runs -/

theorem leadingLiterals_of_none (hnone : matchLeadingLiteral? text = none) :
    leadingLiterals text = ([], text) := by
  rw [leadingLiterals]
  split <;> simp_all

theorem leadingLiterals_of_some (hfound : matchLeadingLiteral? text = some found) :
    leadingLiterals text =
      (found :: (leadingLiterals (text.drop found.length)).1,
        (leadingLiterals (text.drop found.length)).2) := by
  rw [leadingLiterals]
  split <;> simp_all

/-- Matching goes on until nothing more is matched.  Each match takes three characters at
least, so it comes to an end. -/
theorem exists_resumes (text : Text) :
    ∃ steps, Resumes text steps (leadingLiterals text).2 ∧
      (leadingLiterals text).1 = steps.map Prod.snd := by
  fun_induction leadingLiterals text with
  | case1 text hnone => exact ⟨[], .stop hnone, rfl⟩
  | case2 text found hfound others rest hrun ih =>
      rw [hrun] at ih
      obtain ⟨steps, hsteps, rfl⟩ := ih
      exact ⟨_, .next hfound hsteps, rfl⟩

namespace Resumes

variable {steps : List (Text × LiteralMatch)}

/-- The steps of a text are determined by it, for each step is the match at the beginning of
what the last one has left. -/
theorem unique {others : List (Text × LiteralMatch)} {rest' : Text}
    (hsteps : Resumes text steps rest) (hothers : Resumes text others rest') :
    others = steps ∧ rest' = rest := by
  induction hsteps generalizing others rest' with
  | stop hnone =>
      cases hothers with
      | stop _ => exact ⟨rfl, rfl⟩
      | next hfound _ => cases hnone.symm.trans hfound
  | next hfound _ ih =>
      cases hothers with
      | stop hnone => cases hnone.symm.trans hfound
      | next hfound' hothers =>
          obtain rfl := Option.some.inj (hfound.symm.trans hfound')
          obtain ⟨rfl, rfl⟩ := ih hothers
          exact ⟨rfl, rfl⟩

/-- The parts that are dropped and the rest are the text, in order and without loss. -/
theorem flatMap_append (hsteps : Resumes text steps rest) :
    steps.flatMap Prod.fst ++ rest = text := by
  induction hsteps with
  | stop _ => rfl
  | next _ _ ih => rw [List.flatMap_cons, List.append_assoc, ih, List.take_append_drop]

/-- Each part is a literal as a whole with the match that was found for it, and the rest
starts with none. -/
theorem matched (hsteps : Resumes text steps rest) :
    (∀ step ∈ steps, 3 ≤ step.1.length ∧ step.2.length = step.1.length ∧
      matchLiteral? step.1 = some step.2) ∧
    matchLeadingLiteral? rest = none := by
  induction hsteps with
  | stop hnone => exact ⟨List.forall_mem_nil _, hnone⟩
  | next hfound _ ih =>
      obtain ⟨hthree, hle, hmatch⟩ := matchLiteral?_take hfound
      refine ⟨List.forall_mem_cons.mpr ⟨?_, ih.1⟩, ih.2⟩
      rw [List.length_take, Nat.min_eq_left hle]
      exact ⟨hthree, rfl, hmatch⟩

/-- Three characters for each step bound the number of steps by a third of the length. -/
theorem three_mul_length_le (hsteps : Resumes text steps rest) :
    3 * steps.length ≤ text.length := by
  induction hsteps with
  | stop _ => exact Nat.zero_le _
  | next hfound _ ih =>
      obtain ⟨hthree, hle, -⟩ := matchLiteral?_take hfound
      rw [List.length_drop] at ih
      rw [List.length_cons]
      omega

end Resumes

/-! ## Literals one behind another -/

/-- What the matches of a text show, their lengths excepted. -/
def readings (text : Text) : List (Text × LengthUnit) :=
  (leadingLiterals text).1.map LiteralMatch.reading

/-- A space in front of a literal makes no difference to it, since blanks there are dropped
anyhow. -/
theorem readLiteral?_drop_followingSpace (text : Text) :
    readLiteral? (text.drop (followingSpace text)) = readLiteral? text := by
  have hdropped : Text.dropLeadingBlanks (text.drop (followingSpace text)) =
      Text.dropLeadingBlanks text := by
    rw [followingSpace]
    split
    · next hhead =>
        obtain ⟨tail, rfl⟩ := List.head?_eq_some_iff.mp hhead
        rfl
    · rfl
  rw [readLiteral?, readLiteral?, hdropped]

theorem leadingLiterals_of_unread (hread : readLiteral? text = none) :
    leadingLiterals text = ([], text) :=
  leadingLiterals_of_none (matchLeadingLiteral?_eq_none_iff.mpr hread)

/-- One literal is read, and the others are those of what is left behind it and its
space. -/
theorem readings_of_read {numeral : Numeral} {unit : LengthUnit}
    (hread : readLiteral? text = some (numeral, unit, rest)) :
    readings text = (numeral.text, unit) :: readings (rest.drop (followingSpace rest)) ∧
      (leadingLiterals text).2 = (leadingLiterals (rest.drop (followingSpace rest))).2 := by
  obtain ⟨length, hfound, hdrop⟩ := exists_matchLeadingLiteral? hread
  have hrun := leadingLiterals_of_some hfound
  rw [hdrop] at hrun
  rw [readings, hrun]
  exact ⟨rfl, rfl⟩

/-- Without the space before it a literal is still the same. -/
theorem readings_drop_followingSpace (text : Text) :
    readings (text.drop (followingSpace text)) = readings text ∧
      (leadingLiterals (text.drop (followingSpace text))).2 =
        if readLiteral? text = none then text.drop (followingSpace text)
        else (leadingLiterals text).2 := by
  have hspace := readLiteral?_drop_followingSpace text
  cases hread : readLiteral? text with
  | none =>
      rw [hread] at hspace
      rw [readings, readings, leadingLiterals_of_unread hread, leadingLiterals_of_unread hspace]
      exact ⟨rfl, rfl⟩
  | some read =>
      obtain ⟨numeral, unit, rest⟩ := read
      rw [hread] at hspace
      obtain ⟨hreadings, hrest⟩ := readings_of_read hread
      obtain ⟨hreadings', hrest'⟩ := readings_of_read hspace
      exact ⟨hreadings'.trans hreadings.symm, hrest'.trans hrest.symm⟩

theorem WrittenLiteral.exists_read (literal : WrittenLiteral) (rest : Text) :
    ∃ read, readLiteral? (literal.text ++ rest) = some (read, literal.unit, rest) ∧
      (read.text, literal.unit) = literal.reading := by
  obtain ⟨read, hread, hnumeral⟩ := exists_readLiteral?_iff.mpr
    ⟨literal.numeral, literal.text, literal.isLiteral, rfl, rfl⟩
  exact ⟨read, hread, by rw [hnumeral, reading]⟩

/-- Literals are found as they were written.  Only the last may take a character of what
follows them, a space.

The induction is on the literals.  A space between two of them is taken with the first, and
the second is read all the same. -/
theorem readings_written (literals : List WrittenLiteral) {tail : Text}
    (htail : readLiteral? tail = none) :
    readings (literals.flatMap WrittenLiteral.text ++ tail) =
        literals.map WrittenLiteral.reading ∧
      (leadingLiterals (literals.flatMap WrittenLiteral.text ++ tail)).2 =
        if literals = [] then tail else tail.drop (followingSpace tail) := by
  induction literals with
  | nil =>
      rw [List.flatMap_nil, List.nil_append, readings, leadingLiterals_of_unread htail]
      exact ⟨rfl, rfl⟩
  | cons literal literals ih =>
      obtain ⟨read, hread, hreading⟩ :=
        literal.exists_read (literals.flatMap WrittenLiteral.text ++ tail)
      obtain ⟨hreadings, hrest⟩ := readings_of_read hread
      obtain ⟨hbehind, hbehindRest⟩ :=
        readings_drop_followingSpace (literals.flatMap WrittenLiteral.text ++ tail)
      rw [List.flatMap_cons, List.append_assoc, hreadings, hrest, hbehind, hbehindRest, ih.1, ih.2,
        hreading]
      refine ⟨rfl, ?_⟩
      cases literals with
      | nil => simp [htail]
      | cons next literals =>
          obtain ⟨_, hnext, -⟩ :=
            next.exists_read (literals.flatMap WrittenLiteral.text ++ tail)
          simp [hnext]

/-- Literals that are matched one behind another are read without loss.

Of literals that abut, before a text that starts with none, all numerals and units are found in
order, and nothing else.  Any text is cut into the parts that are dropped and the rest in one
way; each part is a literal as a whole with the match that was found for it, and takes three
characters at least. -/
theorem literals_read_in_sequence :
    (∀ (literals : List WrittenLiteral) (tail : Text), matchLeadingLiteral? tail = none →
      readings (literals.flatMap WrittenLiteral.text ++ tail) =
          literals.map WrittenLiteral.reading ∧
        (leadingLiterals (literals.flatMap WrittenLiteral.text ++ tail)).2 =
          if literals = [] then tail else tail.drop (followingSpace tail)) ∧
    ∀ text : Text, ∃ steps rest, leadingLiterals text = (steps.map Prod.snd, rest) ∧
      Resumes text steps rest ∧
      (∀ others rest', Resumes text others rest' → others = steps ∧ rest' = rest) ∧
      steps.flatMap Prod.fst ++ rest = text ∧
      (∀ step ∈ steps, 3 ≤ step.1.length ∧ step.2.length = step.1.length ∧
        matchLiteral? step.1 = some step.2) ∧
      3 * steps.length ≤ text.length ∧
      matchLeadingLiteral? rest = none := by
  constructor
  · intro literals tail htail
    exact readings_written literals (matchLeadingLiteral?_eq_none_iff.mp htail)
  · intro text
    obtain ⟨steps, hsteps, hmatches⟩ := exists_resumes text
    obtain ⟨hmatched, hrest⟩ := hsteps.matched
    refine ⟨steps, _, Prod.ext hmatches rfl, hsteps, fun _ _ => hsteps.unique,
      hsteps.flatMap_append, hmatched, hsteps.three_mul_length_le, hrest⟩

theorem areDigits_singleton {c : Char} (hc : c.isDigit) : AreDigits [c] :=
  List.forall_mem_singleton.mpr hc

/-- A fraction directly behind a unit, and a sign behind a tab. -/
def abuttingLiterals : List WrittenLiteral :=
  [ { numeral := ['1', '.'], unit := .em, text := "1.em".toList,
      isLiteral := ⟨[], [], List.forall_mem_nil _,
        ⟨none, _, .inl rfl, .mixed (List.cons_ne_nil '1' []) (areDigits_singleton rfl) (.inl rfl)
          .nil, rfl⟩, List.forall_mem_nil _, rfl⟩ },
    { numeral := [',', '5'], unit := .ex, text := ",5ex".toList,
      isLiteral := ⟨[], [], List.forall_mem_nil _,
        ⟨none, _, .inl rfl,
          .fraction (.inr rfl) (List.cons_ne_nil '5' []) (areDigits_singleton rfl), rfl⟩,
        List.forall_mem_nil _, rfl⟩ },
    { numeral := ['-', '3'], unit := .cm, text := "\t-3 cm".toList,
      isLiteral := ⟨['\t'], [' '], List.forall_mem_singleton.mpr (by decide),
        ⟨some '-', _, .inr (.inr rfl), .whole (List.cons_ne_nil '3' []) (areDigits_singleton rfl),
          rfl⟩, List.forall_mem_singleton.mpr (by decide), rfl⟩ } ]

/-- A tail that begins as one more literal.  It has a numeral and no unit, so only the space
in front of it is taken. -/
theorem literals_read_in_sequence_abutting :
    matchLeadingLiteral? " 4 ".toList = none ∧
      readings "1.em,5ex\t-3 cm 4 ".toList =
        [("1.".toList, .em), (".5".toList, .ex), ("-3".toList, .cm)] ∧
      (leadingLiterals "1.em,5ex\t-3 cm 4 ".toList).2 = "4 ".toList := by
  have htail : matchLeadingLiteral? " 4 ".toList = none := by decide
  exact ⟨htail, literals_read_in_sequence.1 abuttingLiterals " 4 ".toList htail⟩

end TextMode
