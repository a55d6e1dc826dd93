import Mathlib
import TextMode.Proofs.Notation.Division
import TextMode.Proofs.Outcomes

/-!
# Text boxes hold the text between their braces

The body of a text box is the text between the brace behind its command and the brace that
closes it, blanks, escapes and comments included, however deep in groups the command stands.
A text that is one text box is read as its body is.
-/

namespace TextMode

namespace Node

mutual

/-- The text boxes of a tree from the left, those inside text boxes excepted. -/
def textBoxes : Node → List Node
  | mk "math" _ _ children => allTextBoxes children
  | mk "group" _ _ children => allTextBoxes children
  | mk "textbox" attributes text children => [mk "textbox" attributes text children]
  | _ => []

def allTextBoxes : List Node → List Node
  | [] => []
  | node :: nodes => textBoxes node ++ allTextBoxes nodes

end

end Node

namespace Notation

def Portion.text : Portion → Text
  | lone token => token.lexeme
  | box command gap body =>
      '\\' :: (command.name ++ gap.flatMap Token.lexeme ++
        '{' :: (body.flatMap Token.lexeme ++ ['}']))

/-- The command of a text box and the text between its braces. -/
def Portion.box? : Portion → Option (TextCommand × Text)
  | lone _ => none
  | box command _ body => some (command, body.flatMap Token.lexeme)

def Entry.box? : Entry → Option (TextCommand × Text)
  | lexeme _ _ => none
  | box command body => some (command, body)

/-- The node is the text box whose body is built under the font of its command. -/
def IsBuiltFor (opener : Context → Text → Except TexError (List Node)) (context : Context)
    (node : Node) (box : TextCommand × Text) : Prop :=
  ∃ children, opener (box.1.enter context) box.2 = .ok children ∧
    node = .group "textbox" [("name", .text box.1.name)] children

/-! ## The boxes of portions -/

theorem flatMap_lexeme_tokens (portion : Portion) :
    portion.tokens.flatMap Token.lexeme = portion.text := by
  cases portion with
  | lone token => simp [Portion.tokens, Portion.text]
  | box command gap body => simp [Portion.tokens, Portion.text, Token.lexeme]

/-- The texts of the portions are the text that is divided.  The tokens spell the text, and
each portion is a run of tokens. -/
theorem Divides.flatMap_text {text : Text} {tokens : List Token} {portions : List Portion}
    (hdivides : Divides tokens portions) (hlexes : Lexes text tokens) :
    portions.flatMap Portion.text = text :=
  calc portions.flatMap Portion.text
      = portions.flatMap fun portion => portion.tokens.flatMap Token.lexeme :=
        List.flatMap_congr fun portion _ => (flatMap_lexeme_tokens portion).symm
    _ = tokens.flatMap Token.lexeme := by rw [← List.flatMap_assoc, hdivides.flatMap_tokens]
    _ = text := hlexes.flatMap_lexeme

theorem filterMap_box?_entries (portion : Portion) :
    portion.entries.filterMap Entry.box? = portion.box?.toList := by
  cases portion with
  | lone token =>
      rw [Portion.entries]
      split <;> rfl
  | box command gap body => rfl

mutual

theorem boxes_eq_entries : ∀ element : Element,
    element.boxes = element.entries.filterMap Entry.box?
  | .control _ | .special _ | .characters _ => rfl
  | .group elements => by
      rw [Element.boxes, Element.entries, allBoxes_eq_allEntries elements,
        List.filterMap_cons_none rfl, List.filterMap_append]
      exact (List.append_nil _).symm
  | .textBox _ _ => rfl

theorem allBoxes_eq_allEntries : ∀ elements : List Element,
    Element.allBoxes elements = (Element.allEntries elements).filterMap Entry.box?
  | [] => rfl
  | element :: elements => by
      rw [Element.allBoxes, Element.allEntries, List.filterMap_append, boxes_eq_entries element,
        allBoxes_eq_allEntries elements]

end

theorem filterMap_box?_of_entries {portions : List Portion} {elements : List Element}
    (hentries : portions.flatMap Portion.entries = Element.allEntries elements) :
    portions.filterMap Portion.box? = Element.allBoxes elements := by
  rw [allBoxes_eq_allEntries, ← hentries, List.filterMap_eq_flatMap_toList,
    List.filterMap_flatMap]
  exact List.flatMap_congr fun portion _ => (filterMap_box?_entries portion).symm

section Bodies

variable {opener : Context → Text → Except TexError (List Node)}

mutual

theorem textBoxes_toNode (context : Context) : ∀ element : Element,
    Ensures (Element.toNode opener context element) fun node =>
      List.Forall₂ (IsBuiltFor opener context) node.textBoxes element.boxes
  | .control _ | .special _ | .characters _ => .of_ok .nil
  | .group elements => by
      refine .bind (textBoxes_toNodes context elements) ?_
      intro children hchildren
      exact .of_ok hchildren
  | .textBox command body => by
      have hbody : Ensures (opener (command.enter context) body) fun children =>
          opener (command.enter context) body = .ok children := fun _ => id
      refine .bind hbody ?_
      intro children hchildren
      exact .of_ok (.cons ⟨children, hchildren, rfl⟩ .nil)

/-- The text boxes among the nodes of elements are those of the elements, in their order and
however deep in groups they stand. -/
theorem textBoxes_toNodes (context : Context) : ∀ elements : List Element,
    Ensures (Element.toNodes opener context elements) fun nodes =>
      List.Forall₂ (IsBuiltFor opener context) (Node.allTextBoxes nodes)
        (Element.allBoxes elements)
  | [] => .of_ok .nil
  | element :: elements => by
      refine .bind (textBoxes_toNode context element) ?_
      intro node hnode
      refine .bind (textBoxes_toNodes context elements) ?_
      intro nodes hnodes
      exact .of_ok (List.rel_append hnode hnodes)

end

end Bodies

/-! ## A text that is one text box -/

theorem Groups.strayBackslash_not_mem {tokens : List Token} {items : List Item}
    (hgroups : Groups tokens items) : .strayBackslash ∉ tokens := by
  induction hgroups with
  | nil => simp
  | @single token _ _ hsingle _ ih =>
      have htoken : .strayBackslash ≠ token := by
        rintro rfl
        exact hsingle.elim
      simp [htoken, ih]
  | group _ _ ihinner ih => simp [ihinner, ih]

/-- Only a comment could reach over a closing brace.  All other tokens end where a brace
comes, as runs do, or are complete by themselves. -/
theorem Token.endsBefore_closeBrace {token : Token} (hcomment : ∀ body, token ≠ .comment body)
    (hstray : token ≠ .strayBackslash) (rest : Text) : token.EndsBefore ('}' :: rest) := by
  cases token with
  | comment body => exact absurd rfl (hcomment body)
  | strayBackslash => exact absurd rfl hstray
  | controlWord | characters | blanks => rfl
  | controlSymbol | special | openBrace | closeBrace => trivial

/-- A text command with a body in braces is read as one text box.  A comment at the end of
the body would take the closing brace with it. -/
theorem read_enclosed (command : TextCommand) {body : Text} {tokens : List Token}
    {items : List Item} (hlexes : Lexes body tokens) (hgroups : Groups tokens items)
    (hcomment : ∀ comment, tokens.getLast? ≠ some (.comment comment)) :
    Item.read ('\\' :: command.name ++ '{' :: (body ++ ['}'])) =
      .ok [.single (.controlWord command.name), .group items] := by
  have hlast : ∀ token ∈ tokens.getLast?, token.EndsBefore ['}'] := by
    intro token htoken
    apply Token.endsBefore_closeBrace
    · rintro comment rfl
      exact hcomment comment htoken
    · rintro rfl
      exact hgroups.strayBackslash_not_mem (List.mem_of_getLast? htoken)
  obtain ⟨hne, hletters⟩ := Element.letters_name command
  exact (nestsAs_command hne hletters (hgroups.nestsAs hlexes hlast)).read

theorem readLevel_enclosed (opener : Context → Text → Except TexError (List Node))
    (context : Context) (command : TextCommand) {body : Text} {tokens : List Token}
    {items : List Item} (hlexes : Lexes body tokens) (hgroups : Groups tokens items)
    (hcomment : ∀ comment, tokens.getLast? ≠ some (.comment comment)) :
    readLevel opener context ('\\' :: command.name ++ '{' :: (body ++ ['}'])) =
      (opener (command.enter context) body).map fun children =>
        .group "math" [] [.group "textbox" [("name", .text command.name)] children] := by
  have hitems := read_enclosed command hlexes hgroups hcomment
  rw [readLevel_of_items hitems, Element.ofItems_command (Element.ofName?_name command),
    Element.ofItems_box, hgroups.lexemes, hlexes.flatMap_lexeme]
  rw [Element.ofItems, Element.unjoined, List.nil_append, Element.toNodes,
    Element.toNodes, Element.toNode]
  cases opener (command.enter context) body with
  | error error => rfl
  | ok children => rfl

/-- Text boxes are built of exactly the text between their braces.

Whatever tokens and portions the grammars allow of an accepted text, these spell the text,
and the text boxes of its tree are those of the portions, each built of the text inside its
group under the font of its command.  A text command with a body in braces that is accepted
at its own level and does not end in a comment is read exactly as the body is built. -/
theorem text_boxes_built (context : Context) :
    (∀ text tree, read context text = .ok tree →
      (∃ tokens portions, Lexes text tokens ∧ Divides tokens portions) ∧
        ∀ tokens portions, Lexes text tokens → Divides tokens portions →
          portions.flatMap Portion.text = text ∧
            List.Forall₂ (IsBuiltFor (build read none) context) tree.textBoxes
              (portions.filterMap Portion.box?)) ∧
    ∀ (command : TextCommand) (body : Text) (items : List Item) (tokens : List Token),
      Item.read body = .ok items → Lexes body tokens →
      (∀ comment, tokens.getLast? ≠ some (.comment comment)) →
      read context ('\\' :: command.name ++ '{' :: (body ++ ['}'])) =
        (build read none (command.enter context) body).map fun children =>
          .group "math" [] [.group "textbox" [("name", .text command.name)] children] := by
  constructor
  · intro text tree hread
    obtain ⟨elements, nodes, hnodes, rfl, hexists, hentries⟩ := exists_divided hread
    refine ⟨hexists, ?_⟩
    intro tokens portions hlexes hdivides
    refine ⟨hdivides.flatMap_text hlexes, ?_⟩
    rw [filterMap_box?_of_entries (hentries tokens portions hlexes hdivides)]
    exact textBoxes_toNodes context elements nodes hnodes
  · intro command body items tokens hread hlexes hcomment
    have hgroups : Groups tokens items := by
      rw [← lexes_iff.mp hlexes]
      exact Item.read_eq_ok_iff.mp hread
    rw [read_eq_readLevel]
    exact readLevel_enclosed _ context command hlexes hgroups hcomment

/-- A body with an escaped brace, a brace in a comment and an island. -/
def guardedBody : Text :=
  "a\\\x7d%\x7d\n$b$".toList

theorem text_boxes_built_guardedBody :
    ∃ tree children, read {} ("\x7b\\textit \x7b".toList ++ guardedBody ++ "\x7d\x7d".toList) =
        .ok tree ∧
      build read none { font := some "italic".toList } guardedBody = .ok children ∧
      tree.textBoxes = [.group "textbox" [("name", .text "textit".toList)] children] ∧
      read {} ("\\textit\x7b".toList ++ guardedBody ++ ['}']) =
        .ok (.group "math" [] tree.textBoxes) := by
  obtain ⟨tree, hread⟩ : ∃ tree,
      read {} ("\x7b\\textit \x7b".toList ++ guardedBody ++ "\x7d\x7d".toList) = .ok tree :=
    failure?_eq_none_iff.mp (by decide +kernel)
  have hbody : Lexes guardedBody
      [.characters ['a'], .controlSymbol '}', .comment ['}'], .blanks ['\n'],
        .characters "$b$".toList] := lexes_iff.mpr (by decide +kernel)
  have hlexes : Lexes ("\x7b\\textit \x7b".toList ++ guardedBody ++ "\x7d\x7d".toList)
      [.openBrace, .controlWord "textit".toList, .blanks [' '], .openBrace, .characters ['a'],
        .controlSymbol '}', .comment ['}'], .blanks ['\n'], .characters "$b$".toList, .closeBrace,
        .closeBrace] := lexes_iff.mpr (by decide +kernel)
  have hnested : IsNested [.characters ['a'], .controlSymbol '}', .comment ['}'], .blanks ['\n'],
      .characters "$b$".toList] :=
    ⟨_, .single trivial <| .single trivial <| .single trivial <| .single trivial <|
      .single trivial .nil⟩
  have hclose : Divides [.closeBrace] _ := .map_lone (by decide)
  have hbox := @Divides.box .textit [.blanks [' ']] _ _ _ (by decide) hnested hclose
  have hall := Divides.lone (not_takesGroup_of_not_opensGroup (by decide) .openBrace) hbox
  obtain ⟨hboxes, halone⟩ := text_boxes_built {}
  obtain ⟨-, hforall⟩ := (hboxes _ tree hread).2 _ _ hlexes hall
  have hmembers : [Portion.lone .openBrace, .box .textit [.blanks [' ']] [.characters ['a'],
      .controlSymbol '}', .comment ['}'], .blanks ['\n'], .characters "$b$".toList],
      .lone .closeBrace].filterMap Portion.box? = [(.textit, guardedBody)] := by decide
  rw [List.map_singleton, hmembers] at hforall
  obtain ⟨_, _, ⟨children, hchildren, rfl⟩, hnil, hnodes⟩ :=
    List.forall₂_cons_right_iff.mp hforall
  obtain rfl := List.forall₂_nil_right_iff.mp hnil
  obtain ⟨items, hitems⟩ : ∃ items, Item.read guardedBody = .ok items :=
    failure?_eq_none_iff.mp (by decide +kernel)
  have hread' := halone .textit guardedBody items _ hitems hbody (by simp)
  refine ⟨tree, children, hread, hchildren, hnodes, ?_⟩
  rw [hchildren] at hread'
  rw [hnodes]
  exact hread'

end Notation

end TextMode
