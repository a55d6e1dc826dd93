import Mathlib
import TextMode.Content.Segment
import TextMode.Proofs.Content.Splitting
import TextMode.Proofs.Outcomes
import TextMode.Proofs.Text.EdgeSpaces

/-!
# Nodes of pieces

Each piece of a text becomes one node, in order.  No text is left without a piece and no
piece without a character that can be seen, so a text has no nodes only if it is empty.
Several nodes stand in a row, and under a script level any number of them stands in a style
node; a walk meets that one first and then the nodes with what is below each.
-/

namespace TextMode

open Node

/-! ## Wrapping -/

/-- What is given back is one node or none.  A row and a style node take all others in. -/
theorem length_wrap_le (level : Option ScriptLevel) (nodes : List Node) :
    (wrap level nodes).length ≤ 1 := by
  match level, nodes with
  | some _, _ | none, [] | none, [_] | none, _ :: _ :: _ => simp [wrap]

/-- Nothing is given back exactly if there is nothing to show and no level asks for a style
node. -/
theorem wrap_eq_nil_iff {level : Option ScriptLevel} {nodes : List Node} :
    wrap level nodes = [] ↔ level = none ∧ nodes = [] := by
  match level, nodes with
  | some _, _ | none, [] | none, [_] | none, _ :: _ :: _ => simp [wrap]

/-- Whether the nodes stand in a node that is made for them. -/
def IsWrapped (level : Option ScriptLevel) (nodes : List Node) : Prop :=
  level.isSome ∨ 2 ≤ nodes.length

instance (level : Option ScriptLevel) (nodes : List Node) : Decidable (IsWrapped level nodes) :=
  inferInstanceAs (Decidable (_ ∨ _))

/-- A walk over wrapped nodes meets what they stand in, and then one node with all below it
after the other. -/
theorem walkAll_wrap (level : Option ScriptLevel) (nodes : List Node) :
    walkAll (wrap level nodes) =
      (if IsWrapped level nodes then wrap level nodes else []) ++ nodes.flatMap walk := by
  match level, nodes with
  | some level, nodes =>
      rw [if_pos (.inl rfl), wrap, walkAll, walk_group, walkAll_eq_flatMap nodes]
      simp [walkAll]
  | none, [] => rfl
  | none, [node] => simp [wrap, IsWrapped, walkAll_eq_flatMap]
  | none, first :: second :: nodes =>
      rw [if_pos (.inr (by simp)), wrap, walkAll, walk_group, walkAll_eq_flatMap (first :: _)]
      simp [walkAll]

theorem wrap_row {nodes : List Node} (hlength : 2 ≤ nodes.length) :
    wrap none nodes = [.group "mrow" [] nodes] := by
  match nodes, hlength with
  | _ :: _ :: _, _ => rfl

/-- Without a level a node is left alone exactly if it is the only one. -/
theorem wrap_eq_member_iff {nodes : List Node} (hkinds : ∀ node ∈ nodes, node.kind ≠ "mrow")
    (node : Node) : wrap none nodes = [node] ∧ node ∈ nodes ↔ nodes = [node] := by
  constructor
  · rintro ⟨hwrap, hmem⟩
    by_cases hlength : 2 ≤ nodes.length
    · rw [wrap_row hlength] at hwrap
      obtain rfl := List.singleton_inj.mp hwrap
      exact absurd rfl (hkinds _ hmem)
    · match nodes, hlength with
      | [], _ => cases hmem
      | [_], _ => exact hwrap
      | _ :: _ :: _, hshort => exact absurd (Nat.le_add_left 2 _) hshort
  · rintro rfl
    exact ⟨rfl, List.mem_singleton_self node⟩

/-! ## Pieces -/

/-- The node of a piece and what a walk meets there.  A leaf has the text of a plain piece,
and an atom the tree that is read of an island, in the same context. -/
def Piece.IsShownBy (reader : IslandReader) (context : Context) : Piece → Node → Prop
  | plain text, node =>
      Text.normaliseEdges text ≠ [] ∧
        node = .leaf "text" context.fontAttributes (Text.normaliseEdges text) ∧
        node.walk = [node]
  | island kind source, node =>
      ∃ tree, reader context source = .ok tree ∧
        node = .group "TeXAtom" (if kind = .reference then context.fontAttributes else []) [tree] ∧
        node.walk = node :: tree.walk

section Scans

variable {reader : IslandReader} {context : Context} {text : Text} {segments : List Segment}

/-- The node of a segment shows the piece from which it was read.  Plain text must not be
empty, or its leaf would show nothing. -/
theorem isShownBy_toNode {piece : Piece} {segment : Segment}
    (hplain : ∀ content, piece = .plain content → content ≠ [])
    (hread : piece.read reader context = .ok segment) :
    piece.IsShownBy reader context (segment.toNode context) := by
  cases piece with
  | plain content =>
      obtain rfl := Except.ok.inj hread
      have hne := mt Text.normaliseEdges_eq_nil_iff.mp (hplain content rfl)
      exact ⟨hne, rfl, walk_leaf _ _ _⟩
  | island kind source =>
      cases htree : reader context source with
      | error error =>
          rw [Piece.read, htree] at hread
          cases hread
      | ok tree =>
          rw [Piece.read, htree] at hread
          obtain rfl := Except.ok.inj hread
          refine ⟨tree, htree, ?_, ?_⟩
          · cases kind <;> rfl
          · cases kind <;> simp [Segment.toNode, walk_group, walkAll]

/-- The segments of a text are its pieces, each with its island read.  They are as many and
in the same order. -/
theorem exists_pieces_of_scan (hscan : scan reader context text = .ok segments) :
    ∃ pieces, split text = .ok pieces ∧
      List.Forall₂ (fun piece segment => piece.read reader context = .ok segment) pieces
        segments := by
  cases hsplit : split text with
  | error error =>
      rw [scan, hsplit] at hscan
      cases hscan
  | ok pieces =>
      rw [scan, hsplit] at hscan
      exact ⟨pieces, rfl, ensures_forall₂_mapM _ pieces segments hscan⟩

/-- Only the empty text has no segments.  Every other text has a piece, and every piece a
segment. -/
theorem segments_eq_nil_iff (hscan : scan reader context text = .ok segments) :
    segments = [] ↔ text = [] := by
  obtain ⟨pieces, hsplit, hread⟩ := exists_pieces_of_scan hscan
  rw [← pieces_eq_nil_iff hsplit, ← List.length_eq_zero_iff, ← hread.length_eq,
    List.length_eq_zero_iff]

/-- Nodes are made of segments without fail.  Whatever can go wrong has gone wrong while the
text was scanned. -/
theorem build_of_scan (hscan : scan reader context text = .ok segments)
    (level : Option ScriptLevel) :
    build reader level context text =
      .ok (wrap level (segments.map (Segment.toNode context))) := by
  rw [build, hscan]
  rfl

end Scans

/-- Nodes that are built for a text are those of its segments, wrapped by the level. -/
theorem exists_segments_of_build {reader : IslandReader} {level : Option ScriptLevel}
    {context : Context} {text : Text} {nodes : List Node}
    (hbuild : build reader level context text = .ok nodes) :
    ∃ segments, scan reader context text = .ok segments ∧
      nodes = wrap level (segments.map (Segment.toNode context)) := by
  cases hscan : scan reader context text with
  | error error =>
      rw [build, hscan] at hbuild
      cases hbuild
  | ok segments =>
      rw [build_of_scan hscan] at hbuild
      exact ⟨segments, rfl, (Except.ok.inj hbuild).symm⟩

/-- No node of a segment is a row.  So a row that is given back was made for several
nodes. -/
theorem kind_toNode_ne (context : Context) (segment : Segment) :
    (segment.toNode context).kind ≠ "mrow" := by
  have hnames : "text" ≠ "mrow" ∧ "TeXAtom" ≠ "mrow" := by decide
  cases segment with
  | plain text => exact hnames.1
  | island kind source tree => cases kind <;> exact hnames.2

/-- Every piece of a text becomes one node, and one rule says what these nodes stand in.

A script level puts them into a style node, whatever their number.  Without one the text is
empty or its only node is left alone or the nodes stand in a row.  So one node at most is
given back, and a walk meets the node of each piece once, in order, with the tree of an
island behind its atom. -/
theorem one_node_for_each_piece {reader : IslandReader} {level : Option ScriptLevel}
    {context : Context} {text : Text} {nodes : List Node}
    (hbuild : build reader level context text = .ok nodes) :
    ∃ pieces inner, split text = .ok pieces ∧ (pieces = [] ↔ text = []) ∧
      List.Forall₂ (Piece.IsShownBy reader context) pieces inner ∧
      (∀ script, level = some script →
        nodes = [.group "mstyle"
          [("displaystyle", .flag false), ("scriptlevel", script.toAttribute)] inner]) ∧
      (level = none →
        (nodes = [] ↔ text = []) ∧
        (∀ node, nodes = [node] ∧ node ∈ inner ↔ inner = [node]) ∧
        (2 ≤ inner.length → nodes = [.group "mrow" [] inner])) ∧
      nodes.length ≤ 1 ∧
      walkAll nodes = (if IsWrapped level inner then nodes else []) ++ inner.flatMap walk := by
  obtain ⟨segments, hscan, rfl⟩ := exists_segments_of_build hbuild
  obtain ⟨pieces, hsplit, hread⟩ := exists_pieces_of_scan hscan
  have hplain : ∀ piece ∈ pieces, ∀ content, piece = .plain content → content ≠ [] := by
    rintro _ hpiece content rfl
    exact content_ne_nil_of_split hsplit hpiece
  have hshown : List.Forall₂ (fun piece segment =>
      piece.IsShownBy reader context (segment.toNode context)) pieces segments :=
    ((List.forall₂_and_left _ _).mpr ⟨hplain, hread⟩).imp fun _ _ hpiece =>
      isShownBy_toNode hpiece.1 hpiece.2
  have hkinds : ∀ node ∈ segments.map (Segment.toNode context), node.kind ≠ "mrow" := by
    intro node hnode
    obtain ⟨segment, -, rfl⟩ := List.mem_map.mp hnode
    exact kind_toNode_ne context segment
  refine ⟨pieces, _, hsplit, pieces_eq_nil_iff hsplit, List.forall₂_map_right_iff.mpr hshown,
    ?_, ?_, length_wrap_le _ _, walkAll_wrap _ _⟩
  · rintro script rfl
    rfl
  · rintro rfl
    refine ⟨?_, wrap_eq_member_iff hkinds, wrap_row⟩
    rw [wrap_eq_nil_iff, List.map_eq_nil_iff, segments_eq_nil_iff hscan]
    exact and_iff_right rfl

/-- Reads a source as one leaf that shows it. -/
def sourceLeaf : IslandReader := fun _ source => .ok (.leaf "source" [] source)

/-- An escaped brace behind a blank, an island without a source and a reference. -/
def bracedContent : Text :=
  " \\\x7d$$\\ref\x7ba\x7d".toList

/-- An empty script level and an empty font: the level counts and the font does not. -/
theorem one_node_for_each_piece_bracedContent :
    ∃ pieces inner nodes, split bracedContent = .ok pieces ∧
      build sourceLeaf (some (.text [])) { font := some [] } bracedContent = .ok nodes ∧
      nodes = [.group "mstyle" [("displaystyle", .flag false), ("scriptlevel", .text [])] inner] ∧
      pieces = [.plain " \x7d".toList, .island .dollar [],
        .island .reference "\\ref\x7ba\x7d".toList] ∧
      inner = [.leaf "text" [] "\u00a0\x7d".toList,
        .group "TeXAtom" [] [.leaf "source" [] []],
        .group "TeXAtom" [] [.leaf "source" [] "\\ref\x7ba\x7d".toList]] ∧
      walkAll nodes = nodes ++ inner.flatMap walk := by
  have hpieces : split bracedContent = .ok [.plain " \x7d".toList, .island .dollar [],
      .island .reference "\\ref\x7ba\x7d".toList] := by decide +kernel
  obtain ⟨nodes, hbuild⟩ : ∃ nodes,
      build sourceLeaf (some (.text [])) { font := some [] } bracedContent = .ok nodes := by
    rw [build, scan, hpieces]
    exact ⟨_, rfl⟩
  obtain ⟨pieces, inner, hsplit, -, hshown, hlevel, -, -, hwalk⟩ :=
    one_node_for_each_piece hbuild
  obtain rfl := Except.ok.inj (hpieces.symm.trans hsplit)
  obtain ⟨_, _, ⟨-, rfl, -⟩, hislands, rfl⟩ := List.forall₂_cons_left_iff.mp hshown
  obtain ⟨_, _, ⟨_, hempty, rfl, -⟩, hlast, rfl⟩ := List.forall₂_cons_left_iff.mp hislands
  obtain ⟨_, _, ⟨_, hreference, rfl, -⟩, hnil, rfl⟩ := List.forall₂_cons_left_iff.mp hlast
  obtain rfl := List.forall₂_nil_left_iff.mp hnil
  obtain rfl := Except.ok.inj hempty
  obtain rfl := Except.ok.inj hreference
  exact ⟨_, _, nodes, hsplit, hbuild, hlevel _ rfl, rfl, rfl, hwalk⟩

end TextMode
