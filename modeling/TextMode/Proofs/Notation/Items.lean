import Mathlib
import TextMode.Notation.Element

/-!
# Items and elements of a text

The items of a text spell that text, and the elements of the items keep the order of
the tokens that mean something.  Both facts bound a text box by the text it stands
in, because its command and its braces belong to that text as well.
-/

namespace TextMode.Notation

namespace Item

theorem lexemes_append (left right : List Item) :
    lexemes (left ++ right) = lexemes left ++ lexemes right := by
  induction left with
  | nil => rfl
  | cons item left ih => simp only [List.cons_append, lexemes, ih, List.append_assoc]

/-- The text of the items that are nested so far, open braces included. -/
def openText : List (List Item) → List Item → Text
  | [], inner => lexemes inner.reverse
  | before :: outer, inner => openText outer before ++ '{' :: lexemes inner.reverse

theorem openText_cons (outer : List (List Item)) (item : Item) (inner : List Item) :
    openText outer (item :: inner) = openText outer inner ++ lexeme item := by
  cases outer <;> simp [openText, lexemes_append, lexemes]

/-- Nesting loses no character.  The invariant is the text of the items that are nested so
far, with the braces that are open written between them. -/
theorem lexemes_of_nest {outer : List (List Item)} {inner items : List Item}
    {tokens : List Token} (hnest : nest outer inner tokens = .ok items) :
    lexemes items = openText outer inner ++ tokens.flatMap Token.lexeme := by
  fun_induction nest outer inner tokens with
  | case1 inner =>
      obtain rfl : inner.reverse = items := by simpa using hnest
      simp [openText]
  | case2 => simp at hnest
  | case3 outer inner tokens ih =>
      rw [ih hnest]
      simp [openText, lexemes, Token.lexeme]
  | case4 => simp at hnest
  | case5 inner tokens before outer ih =>
      rw [ih hnest]
      simp [openText_cons, openText, lexeme, Token.lexeme]
  | case6 => simp at hnest
  | case7 outer inner token tokens _ _ _ ih =>
      rw [ih hnest]
      simp [openText_cons, lexeme]

/-- The items of a text spell the text, trivia included, so nothing of it gets lost before
the elements are made. -/
theorem lexemes_of_read {text : Text} {items : List Item} (hread : read text = .ok items) :
    lexemes items = text := by
  have hlexemes := lexemes_of_nest hread
  rwa [flatMap_lexeme_tokenize] at hlexemes

end Item

namespace Element

theorem ofItems_trivia {token : Token} (htrivia : token.isTrivia)
    (waiting : Option TextCommand) (rest : List Item) :
    ofItems waiting (.single token :: rest) = ofItems waiting rest := by
  simp [ofItems, htrivia]

theorem ofItems_command {name : Text} {command : TextCommand}
    (hname : TextCommand.ofName? name = some command) (waiting : Option TextCommand)
    (rest : List Item) :
    ofItems waiting (.single (.controlWord name) :: rest) =
      unjoined waiting ++ ofItems (some command) rest := by
  simp [ofItems, Token.isTrivia, hname]

/-- A token that is no text command stands for itself, and so does a text command that waits
in front of it. -/
theorem ofItems_token {token : Token} (htrivia : token.isTrivia = false)
    (hcommand : ∀ name, token = .controlWord name → TextCommand.ofName? name = none)
    (waiting : Option TextCommand) (rest : List Item) :
    ofItems waiting (.single token :: rest) =
      unjoined waiting ++ (ofToken token ++ ofItems none rest) := by
  cases token <;> simp_all [ofItems, ofToken]

theorem ofItems_group (items rest : List Item) :
    ofItems none (.group items :: rest) = group (ofItems none items) :: ofItems none rest := by
  rw [ofItems, members]

theorem ofItems_box (command : TextCommand) (items rest : List Item) :
    ofItems (some command) (.group items :: rest) =
      textBox command (Item.lexemes items) :: ofItems none rest := by
  rw [ofItems]

/-- Whether the first item that is not trivia is a group. -/
def StartsWithGroup : List Item → Prop
  | [] => False
  | .group _ :: _ => True
  | .single token :: rest => token.isTrivia ∧ StartsWithGroup rest

/-- A text command that meets no group stands for itself.  Trivia is passed over, because a
group may still come behind it. -/
theorem ofItems_waiting (command : TextCommand) : ∀ items : List Item,
    ¬ StartsWithGroup items →
    ofItems (some command) items = control command.name :: ofItems none items
  | [] => fun _ => rfl
  | .group _ :: _ => fun hgroup => absurd trivial hgroup
  | .single token :: rest => by
      intro hgroup
      by_cases htrivia : token.isTrivia
      · have hrest : ¬ StartsWithGroup rest := fun hrest => hgroup ⟨htrivia, hrest⟩
        rw [ofItems_trivia htrivia, ofItems_trivia htrivia, ofItems_waiting command rest hrest]
      · cases token <;> simp_all [ofItems, unjoined, Token.isTrivia]

theorem allBoxes_append (left right : List Element) :
    allBoxes (left ++ right) = allBoxes left ++ allBoxes right := by
  induction left with
  | nil => rfl
  | cons element left ih => simp only [List.cons_append, allBoxes, ih, List.append_assoc]

theorem allBoxes_unjoined (waiting : Option TextCommand) : allBoxes (unjoined waiting) = [] := by
  cases waiting <;> rfl

theorem allBoxes_ofToken (token : Token) : allBoxes (ofToken token) = [] := by
  cases token <;> rfl

/-- The written form of a text command that waits for its group. -/
def waitingText : Option TextCommand → Text
  | none => []
  | some command => '\\' :: command.name

theorem four_le_length_name (command : TextCommand) : 4 ≤ command.name.length := by
  cases command <;> decide

theorem letters_name (command : TextCommand) :
    command.name ≠ [] ∧ ∀ c ∈ command.name, c.isAlpha := by
  rw [← List.all_eq_true]
  cases command <;> decide

theorem name_of_ofName? {name : Text} {command : TextCommand}
    (hname : TextCommand.ofName? name = some command) : command.name = name := by
  simpa using List.find?_some hname

theorem ofName?_name (command : TextCommand) :
    TextCommand.ofName? command.name = some command := by
  cases command <;> decide

theorem name_injective {left right : TextCommand} (hname : left.name = right.name) :
    left = right := by
  have hsome := ofName?_name left
  rw [hname, ofName?_name] at hsome
  exact (Option.some.inj hsome).symm

/-- A token is trivia, a text command, or stands for itself.  These are the three ways in
which the elements of a list of items go on. -/
theorem token_cases (token : Token) :
    token.isTrivia ∨ (∃ command : TextCommand, token = .controlWord command.name) ∨
      token.isTrivia = false ∧ ∀ name, token = .controlWord name →
        TextCommand.ofName? name = none := by
  by_cases htrivia : token.isTrivia
  · exact .inl htrivia
  · by_cases hcommand : ∃ command : TextCommand, token = .controlWord command.name
    · exact .inr (.inl hcommand)
    · refine .inr (.inr ⟨by simpa using htrivia, ?_⟩)
      rintro name rfl
      refine Option.eq_none_iff_forall_ne_some.mpr fun command hname => ?_
      exact hcommand ⟨command, by rw [name_of_ofName? hname]⟩

/-- A text box takes seven characters besides its body: a backslash, the four letters that
the shortest of the names has at least, and two braces. -/
theorem length_box_of_ofItems : ∀ (waiting : Option TextCommand) (items : List Item),
    ∀ box ∈ allBoxes (ofItems waiting items),
      box.2.length + 7 ≤ (waitingText waiting).length + (Item.lexemes items).length
  | waiting, [] => by
      intro box hbox
      simp [ofItems, allBoxes_unjoined] at hbox
  | waiting, .single token :: rest => by
      intro box hbox
      simp only [Item.lexemes, Item.lexeme, List.length_append]
      obtain htrivia | ⟨command, rfl⟩ | ⟨htrivia, hname⟩ := token_cases token
      · rw [ofItems_trivia htrivia] at hbox
        have hrest := length_box_of_ofItems waiting rest box hbox
        omega
      · rw [ofItems_command (ofName?_name command), allBoxes_append, allBoxes_unjoined,
          List.nil_append] at hbox
        have hrest := length_box_of_ofItems (some command) rest box hbox
        simp only [waitingText] at hrest
        simp only [Token.lexeme]
        omega
      · rw [ofItems_token htrivia hname, allBoxes_append, allBoxes_append,
          allBoxes_unjoined, allBoxes_ofToken, List.nil_append, List.nil_append] at hbox
        have hrest := length_box_of_ofItems none rest box hbox
        simp only [waitingText, List.length_nil] at hrest
        omega
  | none, .group items :: rest => by
      intro box hbox
      rw [ofItems_group, allBoxes, boxes, List.mem_append] at hbox
      simp only [Item.lexemes, Item.lexeme, List.length_append, List.length_cons]
      rcases hbox with hbox | hbox
      · have hitems := length_box_of_ofItems none items box hbox
        simp only [waitingText, List.length_nil] at hitems
        omega
      · have hrest := length_box_of_ofItems none rest box hbox
        omega
  | some command, .group items :: rest => by
      intro box hbox
      rw [ofItems_box, allBoxes, boxes, List.mem_append, List.mem_singleton] at hbox
      simp only [Item.lexemes, Item.lexeme, List.length_append, List.length_cons]
      rcases hbox with rfl | hbox
      · have hname := four_le_length_name command
        simp only [waitingText, List.length_cons, List.length_nil]
        omega
      · have hrest := length_box_of_ofItems none rest box hbox
        simp only [waitingText, List.length_nil] at hrest
        omega

theorem length_box_of_read {text : Text} {elements : List Element}
    (hread : read text = .ok elements) {box : TextCommand × Text}
    (hbox : box ∈ allBoxes elements) : box.2.length + 7 ≤ text.length := by
  simp only [read] at hread
  cases hitems : Item.read text with
  | error fault => simp [hitems, Functor.map, Except.map] at hread
  | ok items =>
      obtain rfl : ofItems none items = elements := by
        simpa [hitems, Functor.map, Except.map] using hread
      have hlength := length_box_of_ofItems none items box hbox
      rwa [waitingText, List.length_nil, Nat.zero_add, Item.lexemes_of_read hitems] at hlength

end Element

end TextMode.Notation
