import Mathlib
import TextMode.Proofs.Document.Reading
import TextMode.Proofs.Notation.Depth

/-!
# Reading undoes writing

A written document is built into the nodes of the document, at any depth of text
boxes.  An island needs the nodes of its terms, a text box needs what is built for
its body, and a document needs the segments of its passages.
-/

namespace TextMode.Document

open TextMode.Notation

/-! ## Islands -/

/-- The nodes of an island are those of its terms.  A reference puts them into a group
behind its command. -/
theorem toNodes_elements (enclosure : Enclosure) {context : Context} {terms : List Term}
    (hterms : Element.toNodes (build read none) context (termElements terms) =
      .ok (termNodes context.font terms)) :
    Element.toNodes (build read none) context (enclosure.elements (termElements terms)) =
      .ok (enclosure.children (termNodes context.font terms)) := by
  rw [Enclosure.elements, Enclosure.children]
  cases enclosure.command? with
  | none => exact hterms
  | some name =>
      simp only [Element.toNodes, Element.toNode, hterms]
      rfl

/-- A written island is read as its tree.  This takes that its terms give their nodes, which
is where the induction comes in. -/
theorem read_source (enclosure : Enclosure) {context : Context} {terms : List Term}
    (hwell : WellFormedTerms terms)
    (hterms : Element.toNodes (build read none) context (termElements terms) =
      .ok (termNodes context.font terms)) :
    read context (enclosure.source (spaced (writtenTerms terms))) =
      .ok (enclosure.tree (termNodes context.font terms)) := by
  have hnodes := toNodes_elements enclosure hterms
  rw [read_eq_readLevel, readLevel, elements_of_source enclosure hwell]
  simp only [Except.mapError, bind, Except.bind, hnodes]
  rfl

/-! ## Documents -/

def Passage.piece (passage : Passage) : Piece :=
  passage.span.piece

def Passage.segment (context : Context) : Passage → Segment
  | .plain text => .plain text
  | .island enclosure terms =>
      .island enclosure.kind (enclosure.source (spaced (writtenTerms terms)))
        (enclosure.tree (termNodes context.font terms))

/-- The node that is made of the segment of a passage is that of the passage in the scope of
the font of the context. -/
theorem Passage.toNode_segment (context : Context) (passage : Passage) :
    (passage.segment context).toNode context = passage.node context.font := by
  cases passage with
  | plain text => rw [Passage.segment, Segment.toNode, Passage.node, context.fontAttributes_eq]
  | island enclosure terms =>
      cases enclosure with
      | dollar | parenthesis => rfl
      | ref | eqref =>
          rw [Passage.node, Enclosure.attributes, ← context.fontAttributes_eq]
          rfl

theorem passageNodes_eq_map (font : Option Text) (passages : List Passage) :
    passageNodes font passages = passages.map (Passage.node font) := by
  induction passages with
  | nil => rfl
  | cons passage passages ih => rw [passageNodes, ih, List.map_cons]

/-- A written document is split into one piece for each passage.  It has only one cut, and
that is this one. -/
theorem split_writtenPassages {passages : List Passage} (hwell : WellFormedPassages passages) :
    split (writtenPassages passages) =
      .ok (passages.map Passage.piece) := by
  rw [split_eq_cut?, cut?_of_cut (cut_writtenPassages passages hwell)]
  exact congrArg Except.ok List.map_map

/-- A document whose passages are read one by one is built as a whole.  Its nodes stand in a
row or a style by the rule for nodes side by side. -/
theorem build_of_segments {passages : List Passage} (hwell : WellFormedPassages passages)
    (level : Option ScriptLevel) {context : Context}
    (hsegments : (passages.map Passage.piece).mapM (Piece.read read context) =
      .ok (passages.map (Passage.segment context))) :
    build read level context (writtenPassages passages) =
      .ok (inStyle level (passageNodes context.font passages)) := by
  have hnodes : (passages.map (Passage.segment context)).map (Segment.toNode context) =
      passageNodes context.font passages := by
    rw [List.map_map, passageNodes_eq_map]
    apply List.map_congr_left
    intro passage _
    exact passage.toNode_segment context
  rw [build, scan, split_writtenPassages hwell]
  simp only [bind, Except.bind, hsegments, pure, Except.pure, hnodes, wrap_eq_inStyle]

mutual

/-- The element of a term becomes the node of the term.  A text box opens a scope, and its
document is built there as a text of its own. -/
theorem toNode_element (context : Context) : ∀ term : Term, term.WellFormed →
    Element.toNode (build read none) context term.element = .ok (term.node context.font)
  | .control _ | .special _ | .characters _ => fun _ => rfl
  | .group terms => by
      intro hterms
      rw [Term.element, Element.toNode, toNodes_termElements context terms hterms]
      rfl
  | .textBox command body => by
      intro hbody
      have hsegments := mapM_read_pieces (command.enter context) body hbody
      rw [Term.element, Element.toNode, build_of_segments hbody none hsegments, font_enter]
      rfl

theorem toNodes_termElements (context : Context) : ∀ terms : List Term, WellFormedTerms terms →
    Element.toNodes (build read none) context (termElements terms) =
      .ok (termNodes context.font terms)
  | [] => fun _ => rfl
  | term :: terms => by
      intro hwell
      rw [termElements, Element.toNodes, toNode_element context term hwell.1,
        toNodes_termElements context terms hwell.2.2]
      rfl

theorem read_piece (context : Context) : ∀ passage : Passage, passage.WellFormed →
    Piece.read read context passage.piece = .ok (passage.segment context)
  | .plain text => by
      intro _
      rw [Passage.piece, Passage.span, Span.piece, resolveEscapes_escape]
      rfl
  | .island enclosure terms => by
      intro hterms
      have hnodes := toNodes_termElements context terms hterms
      rw [Passage.piece, Enclosure.piece_span, Piece.read, read_source enclosure hterms hnodes]
      rfl

/-- The pieces of a document are read into its segments.  The four statements are proved by
one induction on documents and terms, since each needs the others. -/
theorem mapM_read_pieces (context : Context) : ∀ passages : List Passage,
    WellFormedPassages passages →
    (passages.map Passage.piece).mapM (Piece.read read context) =
      .ok (passages.map (Passage.segment context))
  | [] => fun _ => rfl
  | passage :: passages => by
      intro hwell
      rw [List.map_cons, List.mapM_cons, read_piece context passage hwell.1,
        mapM_read_pieces context passages hwell.2.2]
      rfl

end

/-- Every well-formed document is recovered from its text, in every context and at every
script level.

The nodes are those of the document in the scope of the font of the context, at any depth of
text boxes in islands.  They stand in the style of the level, or in a row if there are
several. -/
theorem build_written (level : Option ScriptLevel) (context : Context)
    (passages : List Passage) (hwell : WellFormedPassages passages) :
    build read level context (writtenPassages passages) =
      .ok (inStyle level (passageNodes context.font passages)) :=
  build_of_segments hwell level (mapM_read_pieces context passages hwell)

/-- A reference to an equation in a bold text box in an island. -/
def nested : List Passage :=
  [.plain "cost $".toList,
    .island .dollar
      [.control "alpha".toList, .special '^', .group [.characters "2".toList],
        .textBox .textbf
          [.plain "see ".toList, .island .eqref [.characters "key".toList], .plain "!".toList]]]

/-- No two plain texts are adjacent in the example, and its names and runs are of the kind
that a document may hold. -/
theorem wellFormedPassages_nested : WellFormedPassages nested := by
  simp [nested, WellFormedPassages, Passage.WellFormed, WellFormedTerms, Term.WellFormed,
    Passage.MayPrecede, Term.MayPrecede, IsControlName, IsCharacterRun, specials]
  decide

theorem build_written_nested :
    WellFormedPassages nested ∧
      build read none {} (writtenPassages nested) = .ok (inRow (passageNodes none nested)) :=
  ⟨wellFormedPassages_nested, build_written none {} nested wellFormedPassages_nested⟩

end TextMode.Document
