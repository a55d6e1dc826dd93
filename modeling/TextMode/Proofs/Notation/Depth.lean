import Mathlib
import TextMode.Notation.Reader
import TextMode.Proofs.Content.Splitting
import TextMode.Proofs.Notation.Items

/-!
# The depth of notation

Notation is read to a bounded depth of text boxes.  The bound that the reader takes
from the length of a text is never reached before the text boxes are, so the reader
satisfies the unbounded recursion between notation and mixed content.
-/

namespace TextMode

/-- Runs over a list agree if the functions agree on its members.  So a reader may be
replaced by another one that agrees with it on the parts of one text. -/
theorem mapM_congr {α β ε : Type} {left right : α → Except ε β} {values : List α}
    (hagree : ∀ value ∈ values, left value = right value) :
    values.mapM left = values.mapM right := by
  induction values with
  | nil => rfl
  | cons value values ih =>
      have hhead := hagree value (List.mem_cons_self ..)
      have htail := ih fun other hother => hagree other (List.mem_cons_of_mem _ hother)
      rw [List.mapM_cons, List.mapM_cons, hhead, htail]

/-- A call of the recursion between notation and mixed content. -/
inductive Reading where
  /-- An island is read. -/
  | island (context : Context) (text : Text)
  /-- Mixed content is built. -/
  | content (context : Context) (text : Text)

def Reading.text : Reading → Text
  | island _ text | content _ text => text

def Reading.isIsland : Reading → Bool
  | island _ _ => true
  | content _ _ => false

/-- The calls that a call can make itself: an island builds the bodies of its text boxes,
and mixed content reads its islands. -/
inductive Calls : Reading → Reading → Prop
  | textBox {context : Context} {text : Text} {elements : List Notation.Element}
      {box : Notation.TextCommand × Text} (hread : Notation.Element.read text = .ok elements)
      (hbox : box ∈ Notation.Element.allBoxes elements) :
      Calls (.island context text) (.content (box.1.enter context) box.2)
  | piece {context : Context} {text source : Text} {pieces : List Piece} {kind : IslandKind}
      (hsplit : split text = .ok pieces) (hpiece : .island kind source ∈ pieces) :
      Calls (.content context text) (.island context source)

/-- Islands and mixed content call each other.  The call of an island is seven characters
shorter, which its text box takes, and that of mixed content is no longer. -/
theorem Calls.descends {outer inner : Reading} (hcall : Calls outer inner) :
    inner.isIsland = !outer.isIsland ∧
      inner.text.length + (if outer.isIsland then 7 else 0) ≤ outer.text.length := by
  cases hcall with
  | textBox hread hbox => exact ⟨rfl, Notation.Element.length_box_of_read hread hbox⟩
  | piece hsplit hpiece => exact ⟨rfl, length_source_le_of_split hsplit hpiece⟩

/-- The body of a text box is shorter than the island that holds the box, by the seven
characters that the box takes at least. -/
theorem Calls.length_body {context inner : Context} {text body : Text}
    (hcall : Calls (.island context text) (.content inner body)) :
    body.length + 7 ≤ text.length :=
  hcall.descends.2

theorem Calls.length_source {context inner : Context} {text source : Text}
    (hcall : Calls (.content context text) (.island inner source)) :
    source.length ≤ text.length :=
  hcall.descends.2

/-- What is built depends on how the islands of the text are read and on nothing else that
is read. -/
theorem build_congr {left right : IslandReader} {context : Context} {text : Text}
    (level : Option ScriptLevel)
    (hagree : ∀ source, Calls (.content context text) (.island context source) →
      left context source = right context source) :
    build left level context text = build right level context text := by
  have hscan : scan left context text = scan right context text := by
    rw [scan, scan]
    cases hsplit : split text with
    | error error => rfl
    | ok pieces =>
        apply mapM_congr
        intro piece hpiece
        cases piece with
        | plain content => rfl
        | island kind source => simp only [Piece.read, hagree source (.piece hsplit hpiece)]
  rw [build, build, hscan]

namespace Notation

namespace Element

variable {left right : Context → Text → Except TexError (List Node)}

mutual

theorem toNode_congr (context : Context) : ∀ element : Element,
    (∀ box ∈ boxes element, left (box.1.enter context) box.2 = right (box.1.enter context) box.2) →
    toNode left context element = toNode right context element
  | control _ | special _ | characters _ => fun _ => rfl
  | group elements => by
      intro hagree
      rw [toNode, toNode, toNodes_congr context elements hagree]
  | textBox command body => by
      intro hagree
      have hbody := hagree (command, body) (List.mem_singleton_self _)
      rw [toNode, toNode, hbody]

/-- The nodes of elements depend on how the bodies of their text boxes are read and on
nothing else that is read. -/
theorem toNodes_congr (context : Context) : ∀ elements : List Element,
    (∀ box ∈ allBoxes elements,
      left (box.1.enter context) box.2 = right (box.1.enter context) box.2) →
    toNodes left context elements = toNodes right context elements
  | [] => fun _ => rfl
  | element :: elements => by
      intro hagree
      have hhead := toNode_congr context element fun box hbox =>
        hagree box (List.mem_append_left _ hbox)
      have htail := toNodes_congr context elements fun box hbox =>
        hagree box (List.mem_append_right _ hbox)
      rw [toNodes, toNodes, hhead, htail]

end

end Element

/-- A level of notation depends on how the bodies of its text boxes are read under the fonts
of their commands, and on nothing else that is read. -/
theorem readLevel_congr {left right : Context → Text → Except TexError (List Node)}
    {context : Context} {text : Text}
    (hagree : ∀ inner body, Calls (.island context text) (.content inner body) →
      left inner body = right inner body) :
    readLevel left context text = readLevel right context text := by
  rw [readLevel, readLevel]
  cases hread : Element.read text with
  | error fault => rfl
  | ok elements =>
      have hnodes := Element.toNodes_congr context elements fun box hbox =>
        hagree _ _ (.textBox hread hbox)
      simp only [Except.mapError, bind, Except.bind, hnodes]

/-- Bounds that the text boxes of a text cannot exceed give the same result.  The induction
is on the first bound.  A text of fewer than seven characters has no text box, so nothing is
asked of the reader below a bound that is used up. -/
theorem readWithin_eq_of_le {first second : Nat} {text : Text}
    (hfirst : text.length / 7 ≤ first) (hsecond : text.length / 7 ≤ second)
    (context : Context) :
    readWithin first context text = readWithin second context text := by
  induction first generalizing second text context with
  | zero =>
      cases second with
      | zero => rfl
      | succ second =>
          apply readLevel_congr
          intro inner body hbox
          have hbody := hbox.length_body
          omega
  | succ first ih =>
      cases second with
      | zero =>
          apply readLevel_congr
          intro inner body hbox
          have hbody := hbox.length_body
          omega
      | succ second =>
          apply readLevel_congr
          intro inner body hbox
          apply build_congr
          intro source hisland
          have hbody := hbox.length_body
          have hsource := hisland.length_source
          exact ih (by omega) (by omega) inner

/-- An island is read at its own level, and the bodies of its text boxes are mixed
content whose islands are read in the same way. -/
theorem read_eq_readLevel (context : Context) (text : Text) :
    read context text = readLevel (build read none) context text := by
  calc
    read context text = readWithin (text.length / 7 + 1) context text :=
      readWithin_eq_of_le (Nat.le_refl _) (Nat.le_succ _) context
    _ = readLevel (build read none) context text := by
      apply readLevel_congr
      intro inner body hbox
      apply build_congr
      intro source hisland
      have hbody := hbox.length_body
      have hsource := hisland.length_source
      exact readWithin_eq_of_le (by omega) (Nat.le_refl _) inner

end Notation

end TextMode
