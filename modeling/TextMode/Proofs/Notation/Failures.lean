import Mathlib
import TextMode.Proofs.Notation.Depth

/-!
# The order of failures

Mixed content is split before any island is read, and an island is read at its own
level before any of its text boxes is opened.  So the error of a text is that of the
outermost level that fails, and within one level that of the first part that fails.
A reading that fails gives no nodes at all.
-/

namespace TextMode

section Outcomes

variable {α β γ ε : Type}

/-- The first member of a list on which `read` fails, fails with `error`. -/
def FailsFirst (read : α → Except ε β) (values : List α) (error : ε) : Prop :=
  ∃ before value after, values = before ++ value :: after ∧
    (∀ earlier ∈ before, ∃ result, read earlier = .ok result) ∧ read value = .error error

/-- An outcome fails as the first member of a list does that cannot be read, and it
succeeds if all of them can. -/
def SettledBy (outcome : Except ε γ) (read : α → Except ε β) (values : List α) : Prop :=
  (∀ error, outcome = .error error ↔ FailsFirst read values error) ∧
    ((∃ result, outcome = .ok result) ↔ ∀ value ∈ values, ∃ result, read value = .ok result)

def failure? : Except ε α → Option ε
  | .error error => some error
  | .ok _ => none

theorem failure?_eq_some_iff {outcome : Except ε α} {error : ε} :
    failure? outcome = some error ↔ outcome = .error error := by
  cases outcome <;> simp [failure?]

theorem failure?_eq_none_iff {outcome : Except ε α} :
    failure? outcome = none ↔ ∃ result, outcome = .ok result := by
  cases outcome <;> simp [failure?]

theorem failure?_bind_pure (outcome : Except ε α) (f : α → β) :
    failure? (outcome >>= fun result => pure (f result)) = failure? outcome := by
  cases outcome <;> rfl

/-- The failures of two steps, the second of which only adds a result to the first.  The
first step comes first, so its error hides that of the second. -/
theorem failure?_bind_bind_pure (first : Except ε α) (second : Except ε β) (f : α → β → γ) :
    failure? (first >>= fun left => second >>= fun right => pure (f left right)) =
      (failure? first).or (failure? second) := by
  cases first with
  | error error => rfl
  | ok left => exact failure?_bind_pure second (f left)

/-- A run over a list fails as its first member does that fails.  The members behind it are
not looked at. -/
theorem failure?_mapM (read : α → Except ε β) (values : List α) :
    failure? (values.mapM read) = values.findSome? fun value => failure? (read value) := by
  induction values with
  | nil => rfl
  | cons value values ih =>
      rw [List.mapM_cons, failure?_bind_bind_pure, ih, List.findSome?_cons]
      cases failure? (read value) <;> rfl

/-- An outcome that fails as the first member of a list does is settled by that list: it
succeeds if every member can be read. -/
theorem settledBy_of_failure? {outcome : Except ε γ} {read : α → Except ε β} {values : List α}
    (hfailure : failure? outcome = values.findSome? fun value => failure? (read value)) :
    SettledBy outcome read values := by
  constructor
  · intro error
    rw [← failure?_eq_some_iff, hfailure, List.findSome?_eq_some_iff]
    simp only [FailsFirst, failure?_eq_some_iff, failure?_eq_none_iff]
    constructor
    · rintro ⟨before, value, after, hvalues, hvalue, hbefore⟩
      exact ⟨before, value, after, hvalues, hbefore, hvalue⟩
    · rintro ⟨before, value, after, hvalues, hbefore, hvalue⟩
      exact ⟨before, value, after, hvalues, hvalue, hbefore⟩
  · rw [← failure?_eq_none_iff, hfailure, List.findSome?_eq_none_iff]
    simp only [failure?_eq_none_iff]

end Outcomes

/-! ## Mixed content -/

/-- The sources of the islands among pieces. -/
def islandSources : List Piece → List Text
  | [] => []
  | .plain _ :: pieces => islandSources pieces
  | .island _ source :: pieces => source :: islandSources pieces

theorem findSome?_pieces (read : IslandReader) (context : Context) (pieces : List Piece) :
    (pieces.findSome? fun piece => failure? (piece.read read context)) =
      (islandSources pieces).findSome? fun source => failure? (read context source) := by
  induction pieces with
  | nil => rfl
  | cons piece pieces ih =>
      cases piece with
      | plain text => exact ih
      | island kind source =>
          rw [List.findSome?_cons, islandSources, List.findSome?_cons, Piece.read,
            failure?_bind_pure, ih]

theorem failure?_build (read : IslandReader) (level : Option ScriptLevel) (context : Context)
    (text : Text) :
    failure? (build read level context text) = failure? (scan read context text) :=
  failure?_bind_pure _ _

theorem failure?_scan {read : IslandReader} {context : Context} {text : Text}
    {pieces : List Piece} (hsplit : split text = .ok pieces) :
    failure? (scan read context text) =
      (islandSources pieces).findSome? fun source => failure? (read context source) := by
  rw [scan, hsplit, ← findSome?_pieces]
  exact failure?_mapM _ _

/-- A text that cannot be split fails with the error of the splitter, whatever reader
stands ready for its islands. -/
theorem build_of_split_eq_error {text : Text} {error : TexError}
    (hsplit : split text = .error error) (read : IslandReader) (level : Option ScriptLevel)
    (context : Context) :
    build read level context text = .error error := by
  rw [build, scan, hsplit]
  rfl

theorem eq_of_split_eq_error {text : Text} {error : TexError}
    (hsplit : split text = .error error) : error = .unterminatedNotationIsland := by
  rw [split_eq_cut?] at hsplit
  cases hcut : cut? text with
  | none =>
      rw [hcut] at hsplit
      exact (Except.error.inj hsplit).symm
  | some spans => simp [hcut] at hsplit

/-! ## Notation -/

namespace Notation

namespace Element

/-- Reads the body of a text box as mixed content under the font of its command. -/
def openBox (build : Context → Text → Except TexError (List Node)) (context : Context)
    (box : TextCommand × Text) : Except TexError (List Node) :=
  build (box.1.enter context) box.2

variable {build : Context → Text → Except TexError (List Node)}

mutual

theorem failure?_toNode (context : Context) : ∀ element : Element,
    failure? (toNode build context element) =
      (boxes element).findSome? fun box => failure? (openBox build context box)
  | control _ | special _ | characters _ => rfl
  | group elements => by
      rw [toNode, boxes, failure?_bind_pure, failure?_toNodes context elements]
  | textBox command body => by
      rw [toNode, boxes, failure?_bind_pure, List.findSome?_singleton, openBox]

/-- Elements fail as their first text box does, and groups do not change the order.  Nothing
else of notation can fail once its braces are nested. -/
theorem failure?_toNodes (context : Context) : ∀ elements : List Element,
    failure? (toNodes build context elements) =
      (allBoxes elements).findSome? fun box => failure? (openBox build context box)
  | [] => rfl
  | element :: elements => by
      rw [toNodes, allBoxes, failure?_bind_bind_pure, failure?_toNode context element,
        failure?_toNodes context elements, List.findSome?_append]

end

theorem read_of_read_items {text : Text} {items : List Item}
    (hitems : Item.read text = .ok items) : read text = .ok (ofItems none items) := by
  rw [read, hitems]
  rfl

theorem read_of_fault {text : Text} {fault : Fault} (hfault : Item.read text = .error fault) :
    read text = .error fault := by
  rw [read, hfault]
  rfl

end Element

/-- Notation that is malformed at its own level is reported before a text box is opened,
whatever the text boxes hold. -/
theorem readLevel_of_fault {text : Text} {fault : Fault}
    (hfault : Item.read text = .error fault)
    (build : Context → Text → Except TexError (List Node)) (context : Context) :
    readLevel build context text = .error (fault.report text) := by
  rw [readLevel, Element.read_of_fault hfault]
  rfl

/-- Notation that is accepted at its own level is the tree of its nodes, unless one of its
text boxes fails. -/
theorem readLevel_of_items {text : Text} {items : List Item}
    (hitems : Item.read text = .ok items)
    (build : Context → Text → Except TexError (List Node)) (context : Context) :
    readLevel build context text =
      (Element.toNodes build context (Element.ofItems none items)).map (.group "math" []) := by
  rw [readLevel, Element.read_of_read_items hitems]
  rfl

theorem exists_of_readLevel {build : Context → Text → Except TexError (List Node)}
    {context : Context} {text : Text} {tree : Node}
    (hread : readLevel build context text = .ok tree) :
    ∃ items nodes, Item.read text = .ok items ∧
      Element.toNodes build context (Element.ofItems none items) = .ok nodes ∧
      tree = .group "math" [] nodes := by
  cases hitems : Item.read text with
  | error fault =>
      rw [readLevel_of_fault hitems] at hread
      cases hread
  | ok items =>
      rw [readLevel_of_items hitems] at hread
      cases hnodes : Element.toNodes build context (Element.ofItems none items) with
      | error error =>
          rw [hnodes] at hread
          cases hread
      | ok nodes =>
          rw [hnodes] at hread
          exact ⟨items, nodes, rfl, hnodes, (Except.ok.inj hread).symm⟩

theorem failure?_readLevel {text : Text} {items : List Item}
    (hitems : Item.read text = .ok items)
    (build : Context → Text → Except TexError (List Node)) (context : Context) :
    failure? (readLevel build context text) =
      (Element.allBoxes (Element.ofItems none items)).findSome? fun box =>
        failure? (Element.openBox build context box) := by
  rw [readLevel, Element.read_of_read_items hitems, ← Element.failure?_toNodes]
  exact failure?_bind_pure _ _

theorem kind_report (fault : Fault) (text : Text) :
    (fault.report text).kind = .malformedNotation := by
  cases fault <;> rfl

end Notation

open Notation in
/-- Failures come outermost level first, and leftmost first within a level.

A text that cannot be split is unterminated for every reader of islands; otherwise its
first island that cannot be read settles the outcome.  An island that is malformed at its
own level is reported as such for every reader of text boxes; otherwise its first text
box that cannot be built settles the outcome.  Scanning a text fails as building it
does. -/
theorem failures_in_order (level : Option ScriptLevel) (context : Context) (text : Text) :
    (∀ error, split text = .error error →
      error = .unterminatedNotationIsland ∧
        ∀ reader : IslandReader, build reader level context text = .error error) ∧
    (∀ pieces, split text = .ok pieces →
      SettledBy (build read level context text) (read context) (islandSources pieces)) ∧
    (∀ fault, Item.read text = .error fault →
      (fault.report text).kind = .malformedNotation ∧
        read context text = .error (fault.report text) ∧
        ∀ opener, readLevel opener context text = .error (fault.report text)) ∧
    (∀ items, Item.read text = .ok items →
      SettledBy (read context text) (Element.openBox (build read none) context)
        (Element.allBoxes (Element.ofItems none items))) ∧
    (∀ error, scan read context text = .error error ↔
      build read level context text = .error error) := by
  refine ⟨?_, ?_, ?_, ?_, ?_⟩
  · intro error hsplit
    refine ⟨eq_of_split_eq_error hsplit, ?_⟩
    intro reader
    exact build_of_split_eq_error hsplit reader level context
  · intro pieces hsplit
    apply settledBy_of_failure?
    rw [failure?_build, failure?_scan hsplit]
  · intro fault hfault
    refine ⟨kind_report fault text, ?_, ?_⟩
    · rw [read_eq_readLevel]
      exact readLevel_of_fault hfault _ context
    · intro opener
      exact readLevel_of_fault hfault opener context
  · intro items hitems
    apply settledBy_of_failure?
    rw [read_eq_readLevel, failure?_readLevel hitems]
  · intro error
    rw [← failure?_eq_some_iff, ← failure?_eq_some_iff, failure?_build]

end TextMode
