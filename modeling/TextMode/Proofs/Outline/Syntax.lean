import Mathlib
import TextMode.Notation.Reader
import TextMode.Proofs.Content.Surroundings

/-!
# Outlines of mixed content

The outline of a text is what is read of it at all depths: its pieces, the elements of
their islands, the pieces of the text boxes in these, and so on.  It knows of no
context.  Its nodes are made under a font, which a text box may replace for what stands
inside it.
-/

namespace TextMode

open TextMode.Notation

namespace Outline

mutual

/-- A piece of mixed content with its island read. -/
inductive Block where
  | plain (text : Text)
  | island (kind : IslandKind) (source : Text) (parts : List Part)

/-- An element of notation with its text boxes read. -/
inductive Part where
  | control (name : Text)
  | special (char : Char)
  | characters (run : Text)
  | group (parts : List Part)
  | textBox (command : TextCommand) (body : Text) (blocks : List Block)

end

def Block.piece : Block → Piece
  | plain text => .plain text
  | island kind source _ => .island kind source

mutual

def Part.element : Part → Element
  | .control name => .control name
  | .special char => .special char
  | .characters run => .characters run
  | .group parts => .group (elements parts)
  | .textBox command body _ => .textBox command body

def elements : List Part → List Element
  | [] => []
  | part :: parts => part.element :: elements parts

end

mutual

/-- The parts of every island are those of its source, and the blocks of every text box
those of its body. -/
def Block.IsRead : Block → Prop
  | .plain _ => True
  | .island _ source parts => Element.read source = .ok (elements parts) ∧ PartsAreRead parts

def BlocksAreRead : List Block → Prop
  | [] => True
  | block :: blocks => block.IsRead ∧ BlocksAreRead blocks

def Part.IsRead : Part → Prop
  | .control _ | .special _ | .characters _ => True
  | .group parts => PartsAreRead parts
  | .textBox _ body blocks => split body = .ok (blocks.map Block.piece) ∧ BlocksAreRead blocks

def PartsAreRead : List Part → Prop
  | [] => True
  | part :: parts => part.IsRead ∧ PartsAreRead parts

end

/-- The blocks are the outline of the text. -/
def IsOutline (text : Text) (blocks : List Block) : Prop :=
  split text = .ok (blocks.map Block.piece) ∧ BlocksAreRead blocks

mutual

theorem Block.eq_of_isRead : ∀ block other : Block, block.piece = other.piece →
    block.IsRead → other.IsRead → block = other
  | .plain text, .plain other => by
      intro hpiece _ _
      obtain rfl := Piece.plain.inj hpiece
      rfl
  | .island kind source parts, .island kind' source' others => by
      intro hpiece hread hother
      obtain ⟨rfl, rfl⟩ := Piece.island.inj hpiece
      have helements : elements parts = elements others :=
        Except.ok.inj (hread.1.symm.trans hother.1)
      rw [parts_eq_of_areRead parts others helements hread.2 hother.2]
  | .plain _, .island _ _ _ | .island _ _ _, .plain _ => fun hpiece => by cases hpiece

theorem blocks_eq_of_areRead : ∀ blocks others : List Block,
    blocks.map Block.piece = others.map Block.piece → BlocksAreRead blocks →
    BlocksAreRead others → blocks = others
  | [], [] => fun _ _ _ => rfl
  | block :: blocks, other :: others => by
      intro hpieces hread hother
      obtain ⟨hpiece, hrest⟩ := List.cons.inj hpieces
      rw [Block.eq_of_isRead block other hpiece hread.1 hother.1,
        blocks_eq_of_areRead blocks others hrest hread.2 hother.2]
  | [], _ :: _ | _ :: _, [] => fun hpieces => by cases hpieces

theorem Part.eq_of_isRead : ∀ part other : Part, part.element = other.element →
    part.IsRead → other.IsRead → part = other
  | .group parts, other => by
      intro helement hread hother
      cases other with
      | group others =>
          rw [parts_eq_of_areRead parts others (Element.group.inj helement) hread hother]
      | _ => cases helement
  | .textBox command body blocks, other => by
      intro helement hread hother
      cases other with
      | textBox command' body' others =>
          obtain ⟨rfl, rfl⟩ := Element.textBox.inj helement
          have hpieces : blocks.map Block.piece = others.map Block.piece :=
            Except.ok.inj (hread.1.symm.trans hother.1)
          rw [blocks_eq_of_areRead blocks others hpieces hread.2 hother.2]
      | _ => cases helement
  | .control name, other | .special char, other | .characters run, other => by
      intro helement _ _
      cases other <;> cases helement
      rfl

theorem parts_eq_of_areRead : ∀ parts others : List Part, elements parts = elements others →
    PartsAreRead parts → PartsAreRead others → parts = others
  | [], [] => fun _ _ _ => rfl
  | part :: parts, other :: others => by
      intro helements hread hother
      obtain ⟨helement, hrest⟩ := List.cons.inj helements
      rw [Part.eq_of_isRead part other helement hread.1 hother.1,
        parts_eq_of_areRead parts others hrest hread.2 hother.2]
  | [], _ :: _ | _ :: _, [] => fun helements => by cases helements

end

/-- A text has one outline at most, since the pieces of a text and the elements of an island
are determined at every depth. -/
theorem IsOutline.unique {text : Text} {blocks others : List Block}
    (hblocks : IsOutline text blocks) (hothers : IsOutline text others) : blocks = others :=
  blocks_eq_of_areRead blocks others (Except.ok.inj (hblocks.1.symm.trans hothers.1))
    hblocks.2 hothers.2

/-! ## The nodes of an outline -/

/-- Plain text and references take the font of their scope, islands between dollars or
parentheses take none. -/
def Block.attributes (font : Option Text) : Block → Attributes
  | plain _ | island .reference _ _ => fontAttributes font
  | island _ _ _ => []

mutual

def Block.node (font : Option Text) : Block → Node
  | .plain text => .leaf "text" (fontAttributes font) (Text.normaliseEdges text)
  | .island kind source parts =>
      .group "TeXAtom" ((Block.island kind source parts).attributes font)
        [.group "math" [] (partNodes font parts)]

def blockNodes (font : Option Text) : List Block → List Node
  | [] => []
  | block :: blocks => block.node font :: blockNodes font blocks

def Part.node (font : Option Text) : Part → Node
  | .control name => .group "macro" [("name", .text name)] []
  | .special char => .group "special" [("char", .text [char])] []
  | .characters run => .leaf "text" [("role", .text "chars".toList)] run
  | .group parts => .group "group" [] (partNodes font parts)
  | .textBox command _ blocks =>
      .group "textbox" [("name", .text command.name)]
        (wrap none (blockNodes (innerFont command font) blocks))

def partNodes (font : Option Text) : List Part → List Node
  | [] => []
  | part :: parts => part.node font :: partNodes font parts

end

def Block.segment (font : Option Text) : Block → Segment
  | plain text => .plain text
  | island kind source parts => .island kind source (.group "math" [] (partNodes font parts))

theorem Block.toNode_segment (context : Context) (block : Block) :
    (block.segment context.font).toNode context = block.node context.font := by
  cases block with
  | plain text =>
      rw [Block.segment, Segment.toNode, Block.node, context.fontAttributes_eq]
  | island kind source parts =>
      cases kind with
      | reference =>
          rw [Block.segment, Segment.toNode, Block.node, Block.attributes,
            context.fontAttributes_eq]
      | dollar | parenthesis => rfl

theorem map_toNode_segment (context : Context) (blocks : List Block) :
    (blocks.map (Block.segment context.font)).map (Segment.toNode context) =
      blockNodes context.font blocks := by
  induction blocks with
  | nil => rfl
  | cons block blocks ih =>
      rw [List.map_cons, List.map_cons, ih, Block.toNode_segment, blockNodes]

end Outline

end TextMode
