import Mathlib
import TextMode.Proofs.Content.Nodes
import TextMode.Proofs.Outline.Reading

/-!
# Fonts are lexically scoped

The context of a text decides nothing but which nodes show which font.  Plain text and
references show the font of the innermost text command around them that sets one, or
else the font of the context; no other node shows a font, and a text command has no
effect behind its own group.
-/

namespace TextMode

open TextMode.Notation

namespace Node

/-- The font that a node shows. -/
def variant? (node : Node) : Option AttributeValue :=
  Entries.get? "mathvariant" node.attributes

/-- The kind of a node and the font that it shows. -/
def mark (node : Node) : String × Option AttributeValue :=
  (node.kind, node.variant?)

mutual

/-- The node without the font attributes at any depth. -/
def withoutFonts : Node → Node
  | mk kind attributes text children =>
      mk kind (Entries.erase "mathvariant" attributes) text (allWithoutFonts children)

def allWithoutFonts : List Node → List Node
  | [] => []
  | node :: nodes => withoutFonts node :: allWithoutFonts nodes

end

theorem withoutFonts_leaf (kind : String) (attributes : Attributes) (text : Text) :
    withoutFonts (leaf kind attributes text) =
      leaf kind (Entries.erase "mathvariant" attributes) text := by
  rw [leaf, withoutFonts, allWithoutFonts, leaf]

theorem withoutFonts_group (kind : String) (attributes : Attributes) (children : List Node) :
    withoutFonts (group kind attributes children) =
      group kind (Entries.erase "mathvariant" attributes) (allWithoutFonts children) := by
  rw [group, withoutFonts, group]

end Node

open Node

/-- Rows and styles are made of the number of nodes alone, so they can be made before or
after the fonts are dropped. -/
theorem allWithoutFonts_wrap (level : Option ScriptLevel) (nodes : List Node) :
    allWithoutFonts (wrap level nodes) = wrap level (allWithoutFonts nodes) := by
  cases level with
  | some level => rfl
  | none =>
      match nodes with
      | [] => rfl
      | [node] => rfl
      | first :: second :: nodes => rfl

namespace Outline

/-! ## What the context leaves alone -/

theorem erase_fontAttributes (font : Option Text) :
    Entries.erase "mathvariant" (fontAttributes font) = [] := by
  cases font with
  | none => rfl
  | some name => cases name <;> rfl

theorem erase_attributes (font : Option Text) (block : Block) :
    Entries.erase "mathvariant" (block.attributes font) = [] := by
  cases block with
  | plain text => exact erase_fontAttributes font
  | island kind source parts =>
      cases kind with
      | reference => exact erase_fontAttributes font
      | dollar | parenthesis => rfl

mutual

theorem withoutFonts_node (left right : Option Text) : ∀ block : Block,
    withoutFonts (block.node left) = withoutFonts (block.node right)
  | .plain text => by
      rw [Block.node, Block.node, withoutFonts_leaf, withoutFonts_leaf, erase_fontAttributes,
        erase_fontAttributes]
  | .island kind source parts => by
      simp only [Block.node, withoutFonts_group, allWithoutFonts, erase_attributes,
        allWithoutFonts_partNodes left right parts]

/-- The nodes of an outline under two fonts differ in font attributes only.  Inside a text
box the fonts may be the same, if the command of the box sets one. -/
theorem allWithoutFonts_blockNodes (left right : Option Text) : ∀ blocks : List Block,
    allWithoutFonts (blockNodes left blocks) = allWithoutFonts (blockNodes right blocks)
  | [] => rfl
  | block :: blocks => by
      rw [blockNodes, blockNodes, allWithoutFonts, allWithoutFonts,
        withoutFonts_node left right block, allWithoutFonts_blockNodes left right blocks]

theorem withoutFonts_partNode (left right : Option Text) : ∀ part : Part,
    withoutFonts (part.node left) = withoutFonts (part.node right)
  | .control _ | .special _ | .characters _ => rfl
  | .group parts => by
      rw [Part.node, Part.node, withoutFonts_group, withoutFonts_group,
        allWithoutFonts_partNodes left right parts]
  | .textBox command body blocks => by
      rw [Part.node, Part.node, withoutFonts_group, withoutFonts_group, allWithoutFonts_wrap,
        allWithoutFonts_wrap, allWithoutFonts_blockNodes _ (innerFont command right) blocks]

theorem allWithoutFonts_partNodes (left right : Option Text) : ∀ parts : List Part,
    allWithoutFonts (partNodes left parts) = allWithoutFonts (partNodes right parts)
  | [] => rfl
  | part :: parts => by
      rw [partNodes, partNodes, allWithoutFonts, allWithoutFonts,
        withoutFonts_partNode left right part, allWithoutFonts_partNodes left right parts]

end

/-! ## What the context decides -/

/-- What a node shows that takes the given font.  An absent or empty font shows nothing. -/
def shown : Option Text → Option AttributeValue
  | none | some [] => none
  | some font => some (.text font)

/-- The marks of wrapped nodes, of which `count` are side by side. -/
def wrappedMarks (level : Option ScriptLevel) (count : Nat)
    (marks : List (String × Option AttributeValue)) : List (String × Option AttributeValue) :=
  match level with
  | some _ => ("mstyle", none) :: marks
  | none => if 1 < count then ("mrow", none) :: marks else marks

mutual

/-- The kinds of the nodes of a block in pre-order, each with the font it has to show in
the scope of `font`: plain text and references show that font, all other nodes show none,
and only a text box changes the scope, for its own body. -/
def Block.marks (font : Option Text) : Block → List (String × Option AttributeValue)
  | .plain _ => [("text", shown font)]
  | .island .reference _ parts =>
      ("TeXAtom", shown font) :: ("math", none) :: partMarks font parts
  | .island _ _ parts => ("TeXAtom", none) :: ("math", none) :: partMarks font parts

def blockMarks (font : Option Text) : List Block → List (String × Option AttributeValue)
  | [] => []
  | block :: blocks => block.marks font ++ blockMarks font blocks

def Part.marks (font : Option Text) : Part → List (String × Option AttributeValue)
  | .control _ => [("macro", none)]
  | .special _ => [("special", none)]
  | .characters _ => [("text", none)]
  | .group parts => ("group", none) :: partMarks font parts
  | .textBox command _ blocks =>
      ("textbox", none) ::
        wrappedMarks none blocks.length (blockMarks (innerFont command font) blocks)

def partMarks (font : Option Text) : List Part → List (String × Option AttributeValue)
  | [] => []
  | part :: parts => part.marks font ++ partMarks font parts

end

theorem get?_fontAttributes (font : Option Text) :
    Entries.get? "mathvariant" (fontAttributes font) = shown font := by
  cases font with
  | none => rfl
  | some name => cases name <;> rfl

theorem marks_wrap (level : Option ScriptLevel) (nodes : List Node) :
    (walkAll (wrap level nodes)).map mark =
      wrappedMarks level nodes.length ((walkAll nodes).map mark) := by
  rw [walkAll_wrap, walkAll_eq_flatMap, List.map_append]
  cases level with
  | some level =>
      rw [if_pos (.inl rfl)]
      rfl
  | none =>
      by_cases hrow : 1 < nodes.length
      · rw [if_pos (.inr hrow), wrap_row hrow, wrappedMarks, if_pos hrow]
        rfl
      · have hbare : ¬ IsWrapped none nodes := not_or.mpr ⟨Bool.false_ne_true, hrow⟩
        rw [if_neg hbare, wrappedMarks, if_neg hrow]
        rfl

theorem length_blockNodes (font : Option Text) (blocks : List Block) :
    (blockNodes font blocks).length = blocks.length := by
  induction blocks with
  | nil => rfl
  | cons block blocks ih => rw [blockNodes, List.length_cons, ih, List.length_cons]

mutual

theorem marks_node (font : Option Text) : ∀ block : Block,
    (walk (block.node font)).map mark = block.marks font
  | .plain text => by
      rw [Block.node, walk_leaf, List.map_singleton, mark, variant?, leaf, attributes,
        get?_fontAttributes]
      rfl
  | .island kind source parts => by
      have hmath : (walkAll [group "math" [] (partNodes font parts)]).map mark =
          ("math", none) :: partMarks font parts := by
        rw [walkAll, walkAll, List.append_nil, walk_group, List.map_cons,
          marks_partNodes font parts]
        rfl
      rw [Block.node, walk_group, List.map_cons, hmath, mark, variant?, group, attributes]
      cases kind with
      | reference =>
          rw [Block.attributes, get?_fontAttributes]
          rfl
      | dollar | parenthesis => rfl

/-- Every node of an outline shows the font that its scope gives it. -/
theorem marks_blockNodes (font : Option Text) : ∀ blocks : List Block,
    (walkAll (blockNodes font blocks)).map mark = blockMarks font blocks
  | [] => rfl
  | block :: blocks => by
      rw [blockNodes, walkAll, List.map_append, marks_node font block,
        marks_blockNodes font blocks, blockMarks]

theorem marks_partNode (font : Option Text) : ∀ part : Part,
    (walk (part.node font)).map mark = part.marks font
  | .control _ | .special _ | .characters _ => rfl
  | .group parts => by
      rw [Part.node, walk_group, List.map_cons, marks_partNodes font parts]
      rfl
  | .textBox command body blocks => by
      rw [Part.node, walk_group, List.map_cons, marks_wrap, length_blockNodes,
        marks_blockNodes _ blocks]
      rfl

theorem marks_partNodes (font : Option Text) : ∀ parts : List Part,
    (walkAll (partNodes font parts)).map mark = partMarks font parts
  | [] => rfl
  | part :: parts => by
      rw [partNodes, walkAll, List.map_append, marks_partNode font part,
        marks_partNodes font parts, partMarks]

end

/-! ## Texts -/

/-- The context of a text decides nothing but the fonts of its plain text and references,
and a font reaches as far as the text command that sets it.

Two contexts give the same error, or nodes that agree once their font attributes are
dropped, and the same nodes if they have the same font.  The nodes are those of the one
outline of the text, and each of them shows the font of its scope and no other.  The text
commands that open a scope, and the fonts that five of them set, are those of the table. -/
theorem fonts_scoped (level : Option ScriptLevel) (text : Text) :
    TextCommand.all.map (fun command => (command.name, command.font?)) = textFonts ∧
    (∀ left right : Context,
      (∃ error, build read level left text = .error error ∧
        build read level right text = .error error) ∨
      ∃ leftNodes rightNodes, build read level left text = .ok leftNodes ∧
        build read level right text = .ok rightNodes ∧
        allWithoutFonts leftNodes = allWithoutFonts rightNodes) ∧
    (∀ left right : Context, left.font = right.font →
      build read level left text = build read level right text) ∧
    (∀ context nodes, build read level context text = .ok nodes →
      ∃ blocks, IsOutline text blocks ∧ (∀ other, IsOutline text other → other = blocks) ∧
        nodes = wrap level (blockNodes context.font blocks) ∧
        (walkAll nodes).map mark =
          wrappedMarks level blocks.length (blockMarks context.font blocks)) := by
  rcases builds_uniformly level text with ⟨error, herror⟩ | ⟨blocks, houtline, hbuild⟩
  · refine ⟨map_font?_all, ?_, ?_, ?_⟩
    · intro left right
      exact .inl ⟨error, herror left, herror right⟩
    · intro left right _
      rw [herror left, herror right]
    · intro context nodes hnodes
      rw [herror context] at hnodes
      cases hnodes
  · refine ⟨map_font?_all, ?_, ?_, ?_⟩
    · intro left right
      refine .inr ⟨_, _, hbuild left, hbuild right, ?_⟩
      rw [allWithoutFonts_wrap, allWithoutFonts_wrap,
        allWithoutFonts_blockNodes left.font right.font]
    · intro left right hfont
      rw [hbuild left, hbuild right, hfont]
    · intro context nodes hnodes
      rw [hbuild context] at hnodes
      obtain rfl := Except.ok.inj hnodes
      refine ⟨blocks, houtline, fun other hother => hother.unique houtline, rfl, ?_⟩
      rw [marks_wrap, length_blockNodes, marks_blockNodes]

end Outline

end TextMode
