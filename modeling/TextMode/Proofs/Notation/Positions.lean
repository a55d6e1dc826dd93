import Mathlib
import TextMode.Proofs.Content.Splitting
import TextMode.Proofs.Notation.Items

/-!
# Positions in notation

Notation can also be read with positions.  Every token keeps the offset at which it stands
in the text, trivia is dropped before tokens are nested, a group keeps its two braces, and
the body of a text box is cut out of the text between them.  What is read in this way are
the elements of the text: the text between two braces is what the items inside spell.
-/

namespace TextMode.Notation

/-! ## Reading with positions -/

/-- A token and the offset in the text at which it starts. -/
structure PlacedToken where
  token : Token
  start : Nat

/-- The offset behind a token. -/
def PlacedToken.stop (placed : PlacedToken) : Nat :=
  placed.start + placed.token.lexeme.length

/-- The tokens of a text from an offset on. -/
def tokensFrom (text : Text) (start : Nat) : List PlacedToken :=
  match _hdrop : text.drop start with
  | [] => []
  | c :: rest =>
      let token := (Token.next c rest).1
      ⟨token, start⟩ :: tokensFrom text (start + token.lexeme.length)
termination_by text.length - start
decreasing_by
  have hlength := congrArg List.length _hdrop
  have hpos := List.length_pos_iff.mpr (Token.lexeme_ne_nil_of_next c rest)
  rw [List.length_drop, List.length_cons] at hlength
  omega

def withoutTrivia (tokens : List PlacedToken) : List PlacedToken :=
  tokens.filter fun placed => !placed.token.isTrivia

/-- A token, or the items between two braces. -/
inductive PlacedItem where
  | single (placed : PlacedToken)
  | group (opening : PlacedToken) (items : List PlacedItem) (closing : PlacedToken)

namespace PlacedItem

/-- Nests tokens that are not trivia.  Each open brace stands behind the items before it,
which are in reverse order. -/
def nest (outer : List (List PlacedItem × PlacedToken)) (inner : List PlacedItem) :
    List PlacedToken → Except Fault (List PlacedItem)
  | [] =>
      match outer with
      | [] => .ok inner.reverse
      | _ :: _ => .error .missingCloseBrace
  | placed :: rest =>
      match placed.token, outer with
      | .openBrace, outer => nest ((inner, placed) :: outer) [] rest
      | .closeBrace, [] => .error .extraCloseBrace
      | .closeBrace, (before, opening) :: outer =>
          nest outer (group opening inner.reverse placed :: before) rest
      | .strayBackslash, _ => .error .strayBackslash
      | _, outer => nest outer (single placed :: inner) rest

mutual

/-- The elements inside an item, if it is a group. -/
def members (text : Text) : PlacedItem → List Element
  | single _ => []
  | group _ items _ => elements text none items

/-- The elements of a list of items.  A group behind a waiting text command is cut out of
the text, from behind its open brace to its close brace. -/
def elements (text : Text) (waiting : Option TextCommand) : List PlacedItem → List Element
  | [] => Element.unjoined waiting
  | item :: rest =>
      match item, waiting with
      | .group opening _ closing, some command =>
          .textBox command (slice text opening.stop closing.start) :: elements text none rest
      | .group _ _ _, none => .group (members text item) :: elements text none rest
      | .single placed, _ =>
          Element.unjoined waiting ++
            match placed.token with
            | .controlWord name =>
                match TextCommand.ofName? name with
                | some command => elements text (some command) rest
                | none => .control name :: elements text none rest
            | token => Element.ofToken token ++ elements text none rest

end

/-- The elements of a text by the positions of its tokens. -/
def read (text : Text) : Except Fault (List Element) :=
  (elements text none) <$> nest [] [] (withoutTrivia (tokensFrom text 0))

theorem nest_single {token : Token} (hopen : token ≠ .openBrace) (hclose : token ≠ .closeBrace)
    (hstray : token ≠ .strayBackslash) (outer : List (List PlacedItem × PlacedToken))
    (inner : List PlacedItem) (start : Nat) (rest : List PlacedToken) :
    nest outer inner (⟨token, start⟩ :: rest) =
      nest outer (single ⟨token, start⟩ :: inner) rest := by
  cases token with
  | openBrace => exact absurd rfl hopen
  | closeBrace => exact absurd rfl hclose
  | strayBackslash => exact absurd rfl hstray
  | _ => rfl

end PlacedItem

/-! ## Places of tokens -/

/-- The tokens with their places if the first stands at an offset. -/
def placeTokens (start : Nat) : List Token → List PlacedToken
  | [] => []
  | token :: tokens => ⟨token, start⟩ :: placeTokens (start + token.lexeme.length) tokens

theorem drop_lexeme_next {text rest : Text} {start : Nat} {c : Char}
    (hdrop : text.drop start = c :: rest) :
    text.drop (start + (Token.next c rest).1.lexeme.length) = (Token.next c rest).2 := by
  rw [← Token.lexeme_next_append c rest] at hdrop
  exact drop_add_of_drop_eq_append _ hdrop

theorem tokensFrom_eq (text : Text) (start : Nat) :
    tokensFrom text start = placeTokens start (tokenize (text.drop start)) := by
  fun_induction tokensFrom text start with
  | case1 start hdrop => rw [hdrop, tokenize, placeTokens]
  | case2 start c rest hdrop token ih =>
      rw [hdrop, tokenize, placeTokens, ih, drop_lexeme_next hdrop]

/-! ## Places of items -/

namespace Item

mutual

/-- An item with its places if it starts at an offset.  Trivia has none. -/
def place (start : Nat) : Item → List PlacedItem
  | single token => if token.isTrivia then [] else [.single ⟨token, start⟩]
  | group items =>
      [.group ⟨.openBrace, start⟩ (placeAll (start + 1) items)
        ⟨.closeBrace, start + 1 + (lexemes items).length⟩]

def placeAll (start : Nat) : List Item → List PlacedItem
  | [] => []
  | item :: items => place start item ++ placeAll (start + (lexeme item).length) items

end

theorem placeAll_append (start : Nat) (left right : List Item) :
    placeAll start (left ++ right) =
      placeAll start left ++ placeAll (start + (lexemes left).length) right := by
  induction left generalizing start with
  | nil => rfl
  | cons item left ih =>
      rw [List.cons_append, placeAll, ih, placeAll, lexemes, List.length_append,
        List.append_assoc, Nat.add_assoc]

/-- Where the items behind the last open brace start. -/
def innerStart : List (List Item) → Nat
  | [] => 0
  | before :: outer => (openText outer before).length + 1

theorem length_openText (outer : List (List Item)) (inner : List Item) :
    (openText outer inner).length = innerStart outer + (lexemes inner.reverse).length := by
  cases outer with
  | nil => rw [openText, innerStart, Nat.zero_add]
  | cons before outer =>
      rw [openText, innerStart, List.length_append, List.length_cons, Nat.add_assoc,
        Nat.add_comm 1]

/-- The open braces with their places, each behind the items before it. -/
def placeOuter : List (List Item) → List (List PlacedItem × PlacedToken)
  | [] => []
  | before :: outer =>
      ((placeAll (innerStart outer) before.reverse).reverse,
        ⟨.openBrace, (openText outer before).length⟩) :: placeOuter outer

/-- The items behind the last open brace with their places, in reverse order as they
are. -/
def placeInner (outer : List (List Item)) (inner : List Item) : List PlacedItem :=
  (placeAll (innerStart outer) inner.reverse).reverse

theorem placeInner_cons (outer : List (List Item)) (item : Item) (inner : List Item) :
    placeInner outer (item :: inner) =
      (place (openText outer inner).length item).reverse ++ placeInner outer inner := by
  rw [placeInner, List.reverse_cons, placeAll_append, List.reverse_append, length_openText,
    placeAll, placeAll, List.append_nil, placeInner]

/-- Nesting keeps the places of tokens, and trivia makes no difference to it. -/
theorem nest_placeTokens (outer : List (List Item)) (inner : List Item) (tokens : List Token) :
    PlacedItem.nest (placeOuter outer) (placeInner outer inner)
        (withoutTrivia (placeTokens (openText outer inner).length tokens)) =
      (placeAll 0) <$> nest outer inner tokens := by
  fun_induction nest outer inner tokens with
  | case1 inner =>
      rw [placeTokens, withoutTrivia, List.filter_nil, placeOuter, PlacedItem.nest, placeInner,
        List.reverse_reverse]
      rfl
  | case2 inner before outer => rfl
  | case3 outer inner tokens ih =>
      have hposition : (openText (inner :: outer) []).length =
          (openText outer inner).length + Token.openBrace.lexeme.length := by
        rw [length_openText]
        rfl
      rw [← ih, hposition]
      rfl
  | case4 => rfl
  | case5 inner tokens before outer ih =>
      have hposition : (openText outer (group inner.reverse :: before)).length =
          (openText (before :: outer) inner).length + Token.closeBrace.lexeme.length := by
        rw [openText_cons, openText, lexeme, ← List.append_assoc, List.length_append]
        rfl
      have hinner : (placeInner (before :: outer) inner).reverse =
          placeAll ((openText outer before).length + 1) inner.reverse := by
        rw [placeInner, List.reverse_reverse]
        rfl
      rw [← ih, hposition, placeInner_cons, place, ← hinner, length_openText (before :: outer)]
      rfl
  | case6 outer inner tokens => rfl
  | case7 outer inner token tokens hopen hclose hstray ih =>
      have hposition : (openText outer (single token :: inner)).length =
          (openText outer inner).length + token.lexeme.length := by
        rw [openText_cons, List.length_append, lexeme]
      rw [← ih, hposition, placeInner_cons, place, placeTokens, withoutTrivia, withoutTrivia]
      by_cases htrivia : token.isTrivia
      · simp [htrivia]
      · simp [htrivia, PlacedItem.nest_single hopen hclose hstray]

end Item

namespace PlacedItem

theorem elements_single {token : Token} (text : Text) (waiting : Option TextCommand)
    (htrivia : token.isTrivia = false)
    (hname : ∀ name, token = .controlWord name → TextCommand.ofName? name = none)
    (start : Nat) (rest : List PlacedItem) :
    elements text waiting (single ⟨token, start⟩ :: rest) =
      Element.unjoined waiting ++ (Element.ofToken token ++ elements text none rest) := by
  cases token <;> simp_all [elements, Element.ofToken]

theorem elements_command {name : Text} {command : TextCommand}
    (hname : TextCommand.ofName? name = some command) (text : Text)
    (waiting : Option TextCommand) (start : Nat) (rest : List PlacedItem) :
    elements text waiting (single ⟨.controlWord name, start⟩ :: rest) =
      Element.unjoined waiting ++ elements text (some command) rest := by
  simp [elements, hname]

/-- The text between two braces is what the items inside spell. -/
theorem elements_placeAll (text : Text) : ∀ (waiting : Option TextCommand) (items : List Item)
    (start : Nat) {right : Text}, text.drop start = Item.lexemes items ++ right →
    elements text waiting (Item.placeAll start items) = Element.ofItems waiting items
  | waiting, [] => fun _ _ _ => by rw [Item.placeAll, elements, Element.ofItems]
  | waiting, .single token :: rest => by
      intro start right hdrop
      rw [Item.lexemes, Item.lexeme, List.append_assoc] at hdrop
      have hbehind := drop_add_of_drop_eq_append token.lexeme hdrop
      have hrest := fun waiting => elements_placeAll text waiting rest _ hbehind
      rw [Item.placeAll, Item.place, Item.lexeme]
      obtain htrivia | ⟨command, rfl⟩ | ⟨htrivia, hname⟩ := Element.token_cases token
      · rw [if_pos htrivia, List.nil_append, hrest, Element.ofItems_trivia htrivia]
      · have hname := Element.ofName?_name command
        rw [Element.ofItems_command hname, ← hrest]
        exact elements_command hname text waiting _ _
      · rw [if_neg (by simp [htrivia]), Element.ofItems_token htrivia hname, ← hrest]
        exact elements_single text waiting htrivia hname _ _
  | waiting, .group items :: rest => by
      intro start right hdrop
      rw [Item.lexemes, List.append_assoc] at hdrop
      have hbehind := drop_add_of_drop_eq_append (Item.lexeme (.group items)) hdrop
      have hrest := elements_placeAll text none rest _ hbehind
      have hinside : text.drop (start + 1) =
          Item.lexemes items ++ '}' :: (Item.lexemes rest ++ right) := by
        apply drop_add_of_drop_eq_append ['{']
        simpa [Item.lexeme] using hdrop
      cases waiting with
      | none =>
          rw [Element.ofItems_group, ← hrest, ← elements_placeAll text none items _ hinside]
          rfl
      | some command =>
          rw [Element.ofItems_box, ← hrest, ← slice_of_drop_eq_append hinside]
          rfl

/-- The elements that are read by positions are those of the text, and so are the faults.
The body of a text box is the part of the text between the braces behind its command. -/
theorem read_eq (text : Text) : read text = Element.read text := by
  have hnest : nest [] [] (withoutTrivia (tokensFrom text 0)) =
      Item.placeAll 0 <$> Item.read text := by
    rw [tokensFrom_eq]
    exact Item.nest_placeTokens [] [] (tokenize text)
  rw [read, hnest, Element.read]
  cases hitems : Item.read text with
  | error fault => rfl
  | ok items =>
      have hdrop : text.drop 0 = Item.lexemes items ++ [] := by
        rw [List.append_nil, Item.lexemes_of_read hitems, List.drop_zero]
      exact congrArg Except.ok (elements_placeAll text none items 0 hdrop)

end PlacedItem

end TextMode.Notation
