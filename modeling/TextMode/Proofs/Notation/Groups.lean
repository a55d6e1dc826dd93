import Mathlib
import TextMode.Proofs.Notation.Nesting

/-!
# The grammar of groups

Braces nest tokens into items, and a list of tokens nests in one way at most.  The reader
keeps a stack of the groups that are open; what it has read so far is open in the same way,
so it accepts exactly the lists that nest.
-/

namespace TextMode.Notation

/-- The tokens nest as the items. -/
inductive Groups : List Token → List Item → Prop where
  | nil : Groups [] []
  | single {token : Token} {tokens : List Token} {items : List Item} :
      token.IsSingle → Groups tokens items → Groups (token :: tokens) (.single token :: items)
  | group {inner tokens : List Token} {members items : List Item} :
      Groups inner members → Groups tokens items →
      Groups (.openBrace :: (inner ++ .closeBrace :: tokens)) (.group members :: items)

/-- Braces in the tokens are closed in the order in which they are opened, and there is no
stray backslash. -/
def IsNested (tokens : List Token) : Prop :=
  ∃ items, Groups tokens items

namespace Groups

theorem append {left right : List Token} {leftItems rightItems : List Item}
    (hleft : Groups left leftItems) (hright : Groups right rightItems) :
    Groups (left ++ right) (leftItems ++ rightItems) := by
  induction hleft with
  | nil => exact hright
  | single hsingle _ ih => exact .single hsingle ih
  | group hinner _ _ ih =>
      rw [List.cons_append, List.append_assoc, List.cons_append]
      exact .group hinner ih

/-- The items of nested tokens spell them.  The braces of a group are not kept in its item,
but a group is written with one of each. -/
theorem lexemes {tokens : List Token} {items : List Item} (hgroups : Groups tokens items) :
    Item.lexemes items = tokens.flatMap Token.lexeme := by
  induction hgroups with
  | nil => rfl
  | single _ _ ih => rw [Item.lexemes, ih, Item.lexeme, List.flatMap_cons]
  | group _ _ ihinner ih => simp [Item.lexemes, Item.lexeme, Token.lexeme, ihinner, ih]

/-- A closing brace that nested tokens leave over is the first one that they leave over.  So
two ways to end a group in the same tokens are one way. -/
theorem eq_of_append_closeBrace {left right leftRest rightRest : List Token}
    {leftItems rightItems : List Item} (hleft : Groups left leftItems)
    (hright : Groups right rightItems)
    (heq : left ++ .closeBrace :: leftRest = right ++ .closeBrace :: rightRest) :
    left = right ∧ leftRest = rightRest := by
  induction hleft generalizing right rightItems leftRest rightRest with
  | nil =>
      cases hright with
      | nil => exact ⟨rfl, (List.cons.inj heq).2⟩
      | single hsingle _ =>
          obtain ⟨rfl, -⟩ := List.cons.inj heq
          exact hsingle.elim
      | group _ _ => cases (List.cons.inj heq).1
  | single hsingle _ ih =>
      cases hright with
      | nil =>
          obtain ⟨rfl, -⟩ := List.cons.inj heq
          exact hsingle.elim
      | single _ hright =>
          obtain ⟨rfl, htail⟩ := List.cons.inj heq
          obtain ⟨rfl, rfl⟩ := ih hright htail
          exact ⟨rfl, rfl⟩
      | group _ _ =>
          obtain ⟨rfl, -⟩ := List.cons.inj heq
          exact hsingle.elim
  | group _ _ ihinner ih =>
      cases hright with
      | nil => cases (List.cons.inj heq).1
      | single hsingle _ =>
          obtain ⟨rfl, -⟩ := List.cons.inj heq
          exact hsingle.elim
      | group hinner hright =>
          simp only [List.cons_append, List.append_assoc, List.cons.injEq, true_and] at heq
          obtain ⟨rfl, htail⟩ := ihinner hinner heq
          obtain ⟨rfl, rfl⟩ := ih hright htail
          exact ⟨rfl, rfl⟩

/-! ## The reader -/

theorem nest {tokens : List Token} {items : List Item} (hgroups : Groups tokens items)
    (outer : List (List Item)) (inner : List Item) (rest : List Token) :
    Item.nest outer inner (tokens ++ rest) = Item.nest outer (items.reverse ++ inner) rest := by
  induction hgroups generalizing outer inner rest with
  | nil => rfl
  | single hsingle _ ih =>
      rw [List.cons_append, nest_single hsingle, ih]
      simp
  | group _ _ ihinner ih =>
      rw [List.cons_append, List.append_assoc, List.cons_append, Item.nest, ihinner, Item.nest, ih]
      simp

/-- A text whose tokens nest does so before anything that its last token does not reach
into.  The other tokens end inside the text and cannot reach beyond it. -/
theorem nestsAs {text rest : Text} {tokens : List Token} {items : List Item}
    (hgroups : Groups tokens items) (hlexes : Lexes text tokens)
    (hlast : ∀ token ∈ tokens.getLast?, token.EndsBefore rest) : NestsAs text items rest := by
  intro outer inner
  rw [lexes_iff.mp (hlexes.append (lexes_tokenize rest) hlast), hgroups.nest]

end Groups

/-- The tokens nest as the items on the stack and leave its groups open. -/
def LeavesOpen : List (List Item) → List Item → List Token → Prop
  | [], inner, tokens => Groups tokens inner.reverse
  | before :: outer, inner, tokens =>
      ∃ left right, tokens = left ++ .openBrace :: right ∧ LeavesOpen outer before left ∧
        Groups right inner.reverse

theorem LeavesOpen.append {outer : List (List Item)} {inner items : List Item}
    {tokens more : List Token} (hopened : LeavesOpen outer inner tokens)
    (hmore : Groups more items) : LeavesOpen outer (items.reverse ++ inner) (tokens ++ more) := by
  cases outer with
  | nil =>
      rw [LeavesOpen, List.reverse_append, List.reverse_reverse]
      exact Groups.append hopened hmore
  | cons before outer =>
      obtain ⟨left, right, rfl, hleft, hright⟩ := hopened
      refine ⟨left, right ++ more, by simp, hleft, ?_⟩
      rw [List.reverse_append, List.reverse_reverse]
      exact hright.append hmore

/-- What nesting accepts is nested.  The invariant is that the tokens read so far nest as
the items on the stack and leave its groups open. -/
theorem groups_of_nest {outer : List (List Item)} {inner items : List Item}
    {before rest : List Token} (hopened : LeavesOpen outer inner before)
    (hnest : Item.nest outer inner rest = .ok items) : Groups (before ++ rest) items := by
  fun_induction Item.nest outer inner rest generalizing before with
  | case1 inner =>
      obtain rfl : inner.reverse = items := by simpa using hnest
      rwa [List.append_nil]
  | case2 => simp at hnest
  | case3 outer inner rest ih =>
      have hnext : LeavesOpen (inner :: outer) [] (before ++ [.openBrace]) :=
        ⟨before, [], rfl, hopened, .nil⟩
      simpa using ih hnext hnest
  | case4 => simp at hnest
  | case5 inner rest last outer ih =>
      obtain ⟨left, right, rfl, hleft, hright⟩ := hopened
      have hgroup : Groups (.openBrace :: (right ++ [.closeBrace])) [.group inner.reverse] :=
        .group hright .nil
      simpa using ih (hleft.append hgroup) hnest
  | case6 => simp at hnest
  | case7 outer inner token rest hopen hclose hstray ih =>
      have hsingle : token.IsSingle := by
        cases token with
        | openBrace => exact absurd rfl hopen
        | closeBrace => exact absurd rfl hclose
        | strayBackslash => exact absurd rfl hstray
        | _ => trivial
      simpa using ih (hopened.append (.single hsingle .nil)) hnest

namespace Item

/-- A text is read as the items of its tokens, if these nest.  So the stack of the reader
accepts exactly what the grammar of groups allows. -/
theorem read_eq_ok_iff {text : Text} {items : List Item} :
    read text = .ok items ↔ Groups (tokenize text) items := by
  constructor
  · intro hread
    have hempty : LeavesOpen [] [] [] := Groups.nil
    exact groups_of_nest hempty hread
  · intro hgroups
    have hnest := hgroups.nest [] [] []
    rwa [List.append_nil, List.append_nil, nest, List.reverse_reverse] at hnest

end Item

end TextMode.Notation
