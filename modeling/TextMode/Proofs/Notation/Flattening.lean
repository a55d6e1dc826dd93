import Mathlib
import TextMode.Proofs.Notation.Division
import TextMode.Proofs.Outcomes

/-!
# Trees keep the order of the tokens

A tree flattened from the left shows what was read at its own level.  It is the list of
the tokens without trivia, each of them once and in its place, except that a text box
passes over its whole group.
-/

namespace TextMode

open TextMode.Notation

/-- What a flattened tree is made of. -/
inductive Flat where
  /-- A text that a node of some kind shows. -/
  | shown (kind : String) (text : Text)
  /-- A brace group that is passed over as a whole. -/
  | enclosed
  deriving DecidableEq

/-- The text that a node has under a key. -/
def textAttribute (key : String) (attributes : Attributes) : Text :=
  match Entries.get? key attributes with
  | some (.text value) => value
  | _ => []

namespace Node

mutual

/-- The tree from the left, with the braces of its groups. -/
def flatten : Node → List Flat
  | mk "math" _ _ children => flattenAll children
  | mk "group" _ _ children =>
      .shown "group" ['{'] :: (flattenAll children ++ [.shown "group" ['}']])
  | mk "macro" attributes _ _ => [.shown "macro" ('\\' :: textAttribute "name" attributes)]
  | mk "special" attributes _ _ => [.shown "special" (textAttribute "char" attributes)]
  | mk "textbox" attributes _ _ =>
      [.shown "textbox" ('\\' :: textAttribute "name" attributes), .enclosed]
  | mk kind _ text _ => [.shown kind (text.getD [])]

def flattenAll : List Node → List Flat
  | [] => []
  | node :: nodes => flatten node ++ flattenAll nodes

end

end Node

namespace Notation

/-- A portion as a tree shows it: nothing of trivia, and of a text box its command and that
there is a group. -/
def Portion.flat : Portion → List Flat
  | lone token => if token.isTrivia then [] else [.shown token.nodeKind token.lexeme]
  | box command _ _ => [.shown "textbox" ('\\' :: command.name), .enclosed]

def Entry.flat : Entry → List Flat
  | lexeme kind text => [.shown kind text]
  | box command _ => [.shown "textbox" ('\\' :: command.name), .enclosed]

/-- What a tree shows of a portion depends on the entries of the portion alone. -/
theorem flatMap_flat_entries (portion : Portion) :
    portion.entries.flatMap Entry.flat = portion.flat := by
  cases portion with
  | lone token =>
      rw [Portion.entries, Portion.flat]
      split <;> rfl
  | box command gap body => rfl

section Bodies

variable {opener : Context → Text → Except TexError (List Node)}

mutual

theorem flatten_toNode (context : Context) : ∀ element : Element,
    Ensures (Element.toNode opener context element) fun node =>
      node.flatten = element.entries.flatMap Entry.flat
  | .control _ | .special _ | .characters _ => .of_ok rfl
  | .group elements => by
      refine .bind (flatten_toNodes context elements) ?_
      intro children hchildren
      apply Ensures.of_ok
      rw [Node.group, Node.flatten, hchildren]
      simp [Element.entries, Entry.flat]
  | .textBox command body => by
      refine .bind (.trivial _) ?_
      intro children _
      exact .of_ok rfl

/-- The nodes of elements show what the entries of the elements say, in their order.
The nodes inside text boxes are passed over, so nothing has to be known of how a body is
built. -/
theorem flatten_toNodes (context : Context) : ∀ elements : List Element,
    Ensures (Element.toNodes opener context elements) fun nodes =>
      Node.flattenAll nodes = (Element.allEntries elements).flatMap Entry.flat
  | [] => .of_ok rfl
  | element :: elements => by
      refine .bind (flatten_toNode context element) ?_
      intro node hnode
      refine .bind (flatten_toNodes context elements) ?_
      intro nodes hnodes
      apply Ensures.of_ok
      rw [Node.flattenAll, hnode, hnodes, Element.allEntries, List.flatMap_append]

end

end Bodies

/-- The tree of an accepted text keeps its tokens.

The text is read as tokens, and these are divided into text commands with the groups they
take and tokens that take none.  Whatever tokens and portions the grammars allow, flattening
the tree gives those portions in their order: trivia is dropped, each other token is shown
once by a node of its kind, and each text command that takes a group is a text box. -/
theorem tree_keeps_tokens {context : Context} {text : Text} {tree : Node}
    (hread : read context text = .ok tree) :
    (∃ tokens portions, Lexes text tokens ∧ Divides tokens portions) ∧
      ∀ tokens portions, Lexes text tokens → Divides tokens portions →
        portions.flatMap Portion.tokens = tokens ∧
          tree.kind = "math" ∧ tree.flatten = portions.flatMap Portion.flat := by
  obtain ⟨elements, nodes, hnodes, rfl, hexists, hentries⟩ := exists_divided hread
  refine ⟨hexists, ?_⟩
  intro tokens portions hlexes hdivides
  refine ⟨hdivides.flatMap_tokens, rfl, ?_⟩
  calc (Node.group "math" [] nodes).flatten
      = Node.flattenAll nodes := by rw [Node.group, Node.flatten]
    _ = (Element.allEntries elements).flatMap Entry.flat :=
        flatten_toNodes context _ nodes hnodes
    _ = portions.flatMap Portion.flat := by
        rw [← hentries tokens portions hlexes hdivides, List.flatMap_assoc]
        exact List.flatMap_congr fun portion _ => flatMap_flat_entries portion

/-- Two text commands in a row, of which the second takes the group behind a comment with a
brace, and a third one that is the last in its group. -/
def chainedCommands : Text :=
  "\\text\\mbox%\x7d\n\x7ba\x7d\x7bb\\textbf \x7d".toList

theorem tree_keeps_tokens_chainedCommands :
    ∃ tree, read {} chainedCommands = .ok tree ∧
      tree.flatten =
        [.shown "macro" "\\text".toList, .shown "textbox" "\\mbox".toList, .enclosed,
          .shown "group" ['{'], .shown "text" ['b'], .shown "macro" "\\textbf".toList,
          .shown "group" ['}']] := by
  obtain ⟨tree, hread⟩ : ∃ tree, read {} chainedCommands = .ok tree :=
    failure?_eq_none_iff.mp (by decide +kernel)
  have hlexes : Lexes chainedCommands
      [.controlWord TextCommand.text.name, .controlWord TextCommand.mbox.name, .comment ['}'],
        .blanks ['\n'], .openBrace, .characters ['a'], .closeBrace, .openBrace,
        .characters ['b'], .controlWord TextCommand.textbf.name, .blanks [' '], .closeBrace] :=
    lexes_iff.mpr (by decide +kernel)
  have hinner : IsNested [.characters ['a']] := ⟨_, .single trivial .nil⟩
  have hmembers : .openBrace ∉ [Token.characters ['b'], .controlWord TextCommand.textbf.name,
      .blanks [' '], .closeBrace] := by decide
  have hgroup := Divides.lone (not_takesGroup_of_not_opensGroup (by decide) .openBrace)
    (.map_lone hmembers)
  have hbox := @Divides.box .mbox [.comment ['}'], .blanks ['\n']] _ _ _ (by decide) hinner hgroup
  have hall := Divides.lone
    (not_takesGroup_of_not_opensGroup (by decide) (.controlWord "text".toList)) hbox
  obtain ⟨-, hkeeps⟩ := tree_keeps_tokens hread
  obtain ⟨-, -, hflatten⟩ := hkeeps _ _ hlexes hall
  exact ⟨tree, hread, hflatten⟩

end Notation

end TextMode
