import Mathlib
import TextMode.Proofs.Notation.Reports

/-!
# The recursion between notation and mixed content

An island builds the bodies of its text boxes, and mixed content reads its islands.  An
island may be as long as the text it stands in, so mixed content alone does not descend; a
text box does, by the seven characters it takes besides its body.  So the length of a text bounds
the readings that wait for one another, and a reader below that bound is never asked.
-/

namespace TextMode

/-! ## Descent -/

/-- From an island to an island in one of its text boxes the text gets shorter.  The box
takes seven characters, and splitting its body adds none. -/
theorem Calls.length_descent {context : Context} {text : Text} {box inner : Reading}
    (hbox : Calls (.island context text) box) (hinner : Calls box inner) :
    inner.text.length + 7 ≤ text.length := by
  have hbody : box.text.length + 7 ≤ text.length := hbox.descends.2
  have hsource := hinner.descends.2
  omega

/-- Of the readings that wait for one another the text has room for few, because every
second is of an island.

The induction is on the chain.  An island adds itself to the islands and mixed content to
the others; an island that calls pays for what is added with the seven characters of a text
box. -/
theorem countP_isIsland_le {first : Reading} {later : List Reading}
    (hchain : (first :: later).IsChain Calls) :
    (first :: later).countP Reading.isIsland ≤ first.text.length / 7 + 1 ∧
      (first :: later).countP (!·.isIsland) ≤
        first.text.length / 7 + if first.isIsland then 0 else 1 := by
  induction later generalizing first with
  | nil => cases hisland : first.isIsland <;> simp [hisland]
  | cons second later ih =>
      obtain ⟨hcall, hrest⟩ := List.isChain_cons_cons.mp hchain
      obtain ⟨hislands, hcontents⟩ := ih hrest
      obtain ⟨hside, hlength⟩ := hcall.descends
      rw [List.countP_cons, List.countP_cons (a := first)]
      cases hisland : first.isIsland <;>
        simp only [hside, hisland, Bool.not_true, Bool.not_false, Bool.false_eq_true, if_true,
          if_false] at hlength hcontents ⊢ <;>
        omega

namespace Notation

/-! ## Rounds -/

/-- Reads one level of notation, and the islands in its text boxes with `reader`. -/
def readThrough (reader : IslandReader) : IslandReader :=
  readLevel (build reader none)

theorem readThrough_congr {left right : IslandReader} {context : Context} {text : Text}
    (hagree : ∀ box inner source, Calls (.island context text) box →
      Calls box (.island inner source) → left inner source = right inner source) :
    readThrough left context text = readThrough right context text := by
  apply readLevel_congr
  intro inner body hbox
  apply build_congr
  intro source hisland
  exact hagree _ _ _ hbox hisland

/-- A reader that stands below more levels than the text has room for is not asked.  Every
round takes seven characters off the texts that the readers below are asked about. -/
theorem iterate_readThrough {rounds : ℕ} {text : Text} (hrounds : text.length / 7 + 1 ≤ rounds)
    (bottom : IslandReader) (context : Context) :
    readThrough^[rounds] bottom context text = read context text := by
  induction rounds generalizing context text with
  | zero => omega
  | succ rounds ih =>
      calc
        readThrough^[rounds + 1] bottom context text
            = readThrough (readThrough^[rounds] bottom) context text := by
          rw [Function.iterate_succ_apply']
        _ = readThrough read context text := by
          apply readThrough_congr
          intro box inner source hbox hisland
          have hlength := hbox.length_descent hisland
          rw [Reading.text] at hlength
          exact ih (by omega) inner
        _ = read context text := (read_eq_readLevel context text).symm

theorem build_iterate_readThrough {rounds : ℕ} {text : Text}
    (hrounds : text.length / 7 + 1 ≤ rounds) (bottom : IslandReader)
    (level : Option ScriptLevel) (context : Context) :
    build (readThrough^[rounds] bottom) level context text = build read level context text := by
  apply build_congr
  intro source hisland
  have hsource := hisland.length_source
  exact iterate_readThrough (by omega) bottom context

end Notation

/-! ## Outcomes -/

/-- Whether there is a result, or an error of the two kinds that mixed content has. -/
def Settles {α : Type} (outcome : Except TexError α) : Prop :=
  (∃ result, outcome = .ok result) ∨
    ∃ error, outcome = .error error ∧
      (error.kind = .unterminatedNotationIsland ∨ error.kind = .malformedNotation)

theorem FailsInContent.settles {α : Type} {outcome : Except TexError α}
    (hfails : FailsInContent outcome) : Settles outcome := by
  cases outcome with
  | ok result => exact .inl ⟨result, rfl⟩
  | error error =>
      rcases hfails error rfl with rfl | ⟨source, fault, rfl⟩
      · exact .inr ⟨_, rfl, .inl rfl⟩
      · exact .inr ⟨_, rfl, .inr (Notation.kind_report fault source)⟩

open Notation in
/-- The recursion between notation and mixed content ends on every text.

Whatever is read of an island below its own level is at least seven characters shorter, and
no island is longer than the text it is found in; no other reading has a say in the outcome.
So of the readings that wait for one another at most `text.length / 7 + 1` are of islands and
as many of mixed content, and that many rounds settle the text, whatever reader stands at the
bottom.  The recursion has one solution, which gives a result or one of two kinds of
errors. -/
theorem recursion_ends (level : Option ScriptLevel) (context : Context) (text : Text) :
    (∀ box inner, Calls (.island context text) box → Calls box inner →
      inner.text.length + 7 ≤ text.length) ∧
    (∀ pieces kind source, split text = .ok pieces → .island kind source ∈ pieces →
      source.length ≤ text.length) ∧
    (∀ left right : IslandReader,
      ((∀ box inner source, Calls (.island context text) box → Calls box (.island inner source) →
          left inner source = right inner source) →
        readThrough left context text = readThrough right context text) ∧
      ((∀ source, Calls (.content context text) (.island context source) →
          left context source = right context source) →
        build left level context text = build right level context text)) ∧
    (∀ first later, first.text = text → (first :: later).IsChain Calls →
      (first :: later).countP Reading.isIsland ≤ text.length / 7 + 1 ∧
        (first :: later).countP (!·.isIsland) ≤ text.length / 7 + 1) ∧
    (∀ bottom rounds, text.length / 7 + 1 ≤ rounds →
      readThrough^[rounds] bottom context text = read context text ∧
        build (readThrough^[rounds] bottom) level context text =
          build read level context text) ∧
    (∀ reader, readThrough reader = reader ↔ reader = read) ∧
    Settles (read context text) ∧ Settles (build read level context text) := by
  refine ⟨fun _ _ => Calls.length_descent, fun _ _ _ => length_source_le_of_split, ?_, ?_, ?_, ?_,
    (failsInContent_read context text).settles,
    (failsInContent_build failsInContent_read level context text).settles⟩
  · intro left right
    exact ⟨readThrough_congr, build_congr level⟩
  · rintro first later rfl hchain
    obtain ⟨hislands, hcontents⟩ := countP_isIsland_le hchain
    refine ⟨hislands, hcontents.trans ?_⟩
    split <;> omega
  · intro bottom rounds hrounds
    exact ⟨iterate_readThrough hrounds bottom context,
      build_iterate_readThrough hrounds bottom level context⟩
  · intro reader
    constructor
    · intro hfixed
      funext context text
      rw [← iterate_readThrough (Nat.le_refl _) reader context, Function.iterate_fixed hfixed]
    · rintro rfl
      funext context text
      exact (read_eq_readLevel context text).symm

end TextMode
