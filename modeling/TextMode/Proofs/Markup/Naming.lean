import Mathlib
import TextMode.Notation.Reader
import TextMode.Proofs.Outcomes
import TextMode.Text.Blank

/-!
# Names in markup trees

The kinds and attribute names of the trees that are built hold no character with a
meaning in S-expressions.  Texts and attribute values are free: the content decides them.
-/

namespace TextMode

open TextMode.Notation

/-- A character that can stand in a kind or in the name of an attribute. -/
def isNameChar (c : Char) : Bool :=
  !Text.isBlank c && c ∉ ['(', ')', '\'', '"', '=']

def IsName (name : String) : Prop :=
  name.toList ≠ [] ∧ name.toList.all isNameChar

instance (name : String) : Decidable (IsName name) :=
  inferInstanceAs (Decidable (_ ∧ _))

def AreNamed (attributes : Attributes) : Prop :=
  ∀ setting ∈ attributes, IsName setting.1

instance (attributes : Attributes) : Decidable (AreNamed attributes) :=
  inferInstanceAs (Decidable (∀ setting ∈ attributes, IsName setting.1))

theorem areNamed_nil : AreNamed [] :=
  List.forall_mem_nil _

theorem areNamed_singleton {name : String} (hname : IsName name) (value : AttributeValue) :
    AreNamed [(name, value)] :=
  List.forall_mem_singleton.mpr hname

namespace Node

mutual

/-- The kind and the attribute names are names, at any depth. -/
def WellNamed : Node → Prop
  | mk kind attributes _ children =>
      IsName kind ∧ AreNamed attributes ∧ AllWellNamed children

def AllWellNamed : List Node → Prop
  | [] => True
  | node :: nodes => node.WellNamed ∧ AllWellNamed nodes

end

mutual

instance decidableWellNamed : (node : Node) → Decidable node.WellNamed
  | mk kind attributes _ children =>
      have := decidableAllWellNamed children
      inferInstanceAs (Decidable (IsName kind ∧ AreNamed attributes ∧ AllWellNamed children))

instance decidableAllWellNamed : (nodes : List Node) → Decidable (AllWellNamed nodes)
  | [] => .isTrue trivial
  | node :: nodes =>
      have := decidableWellNamed node
      have := decidableAllWellNamed nodes
      inferInstanceAs (Decidable (node.WellNamed ∧ AllWellNamed nodes))

end

end Node

open Node

/-! ## Mixed content -/

/-- The trees that an island reader gives are well named. -/
def NamesWell (reader : IslandReader) : Prop :=
  ∀ context source, Ensures (reader context source) WellNamed

def Segment.WellNamed : Segment → Prop
  | plain _ => True
  | island _ _ tree => tree.WellNamed

theorem areNamed_fontAttributes (context : Context) : AreNamed context.fontAttributes := by
  rw [Context.fontAttributes]
  split
  · exact areNamed_nil
  · exact areNamed_nil
  · exact areNamed_singleton (by decide +kernel) _

/-- The node of a segment has a kind and attributes that are names.  Only the tree of an
island comes from outside, from its reader. -/
theorem wellNamed_toNode (context : Context) {segment : Segment}
    (hsegment : segment.WellNamed) : (segment.toNode context).WellNamed := by
  have hfont := areNamed_fontAttributes context
  cases segment with
  | plain text => exact ⟨by decide +kernel, hfont, trivial⟩
  | island kind source tree =>
      cases kind with
      | reference => exact ⟨by decide +kernel, hfont, hsegment, trivial⟩
      | dollar | parenthesis => exact ⟨by decide +kernel, areNamed_nil, hsegment, trivial⟩

theorem allWellNamed_map_toNode (context : Context) {segments : List Segment}
    (hsegments : ∀ segment ∈ segments, segment.WellNamed) :
    AllWellNamed (segments.map (Segment.toNode context)) := by
  induction segments with
  | nil => trivial
  | cons segment segments ih =>
      obtain ⟨hsegment, hrest⟩ := List.forall_mem_cons.mp hsegments
      exact ⟨wellNamed_toNode context hsegment, ih hrest⟩

/-- A row or a style node adds names of its own and leaves the others alone. -/
theorem allWellNamed_wrap (level : Option ScriptLevel) {nodes : List Node}
    (hnodes : AllWellNamed nodes) : AllWellNamed (wrap level nodes) := by
  cases level with
  | some level =>
      have hlevel : AreNamed [("scriptlevel", level.toAttribute)] :=
        areNamed_singleton (by decide +kernel) _
      have hstyle : AreNamed [("displaystyle", .flag false), ("scriptlevel", level.toAttribute)] :=
        List.forall_mem_cons.mpr ⟨by decide +kernel, hlevel⟩
      exact ⟨⟨by decide +kernel, hstyle, hnodes⟩, trivial⟩
  | none =>
      match nodes, hnodes with
      | [], _ => trivial
      | [_], hnode => exact hnode
      | _ :: _ :: _, hnodes =>
          exact ⟨⟨by decide +kernel, areNamed_nil, hnodes⟩, trivial⟩

/-- What is built around the trees of islands adds names only.  So all nodes are well named
if the reader of islands gives trees that are. -/
theorem build_ensures_wellNamed {reader : IslandReader} (hreader : NamesWell reader)
    (level : Option ScriptLevel) (context : Context) (text : Text) :
    Ensures (build reader level context text) AllWellNamed := by
  have hpiece : ∀ piece : Piece, Ensures (piece.read reader context) Segment.WellNamed := by
    intro piece
    cases piece with
    | plain text => exact .of_ok trivial
    | island kind source =>
        exact .bind (hreader context source) fun _ htree => .of_ok htree
  have hscan : Ensures (scan reader context text) fun segments =>
      ∀ segment ∈ segments, segment.WellNamed :=
    .bind (.trivial _) fun pieces _ => .mapM hpiece pieces
  refine .bind hscan fun segments hsegments => .of_ok ?_
  exact allWellNamed_wrap level (allWellNamed_map_toNode context hsegments)

/-! ## Notation -/

section Bodies

variable {build : Context → Text → Except TexError (List Node)}

mutual

theorem toNode_ensures_wellNamed
    (hbuild : ∀ context body, Ensures (build context body) AllWellNamed) (context : Context) :
    ∀ element : Element, Ensures (Element.toNode build context element) WellNamed
  | .control _ | .special _ | .characters _ =>
      .of_ok ⟨by decide +kernel, areNamed_singleton (by decide +kernel) _, trivial⟩
  | .group elements => by
      refine .bind (toNodes_ensures_wellNamed hbuild context elements) ?_
      intro children hchildren
      exact .of_ok ⟨by decide +kernel, areNamed_nil, hchildren⟩
  | .textBox command body => by
      refine .bind (hbuild (command.enter context) body) ?_
      intro children hchildren
      exact .of_ok ⟨by decide +kernel, areNamed_singleton (by decide +kernel) _, hchildren⟩

/-- All elements become well-named nodes, provided that the bodies of their text boxes
do. -/
theorem toNodes_ensures_wellNamed
    (hbuild : ∀ context body, Ensures (build context body) AllWellNamed) (context : Context) :
    ∀ elements : List Element, Ensures (Element.toNodes build context elements) AllWellNamed
  | [] => .of_ok trivial
  | element :: elements => by
      refine .bind (toNode_ensures_wellNamed hbuild context element) ?_
      intro node hnode
      refine .bind (toNodes_ensures_wellNamed hbuild context elements) ?_
      intro nodes hnodes
      exact .of_ok ⟨hnode, hnodes⟩

end

theorem namesWell_readLevel
    (hbuild : ∀ context body, Ensures (build context body) AllWellNamed) :
    NamesWell (readLevel build) := by
  intro context source
  refine .bind (.trivial _) ?_
  intro elements _
  refine .bind (toNodes_ensures_wellNamed hbuild context elements) ?_
  intro children hchildren
  exact .of_ok ⟨by decide +kernel, areNamed_nil, hchildren⟩

end Bodies

/-- The reader gives well-named trees to any depth, by induction on the depth to which text
boxes are opened. -/
theorem namesWell_readWithin (depth : Nat) : NamesWell (readWithin depth) := by
  induction depth with
  | zero => exact namesWell_readLevel fun _ _ => .of_ok trivial
  | succ depth ih => exact namesWell_readLevel (build_ensures_wellNamed ih none)

theorem namesWell_read : NamesWell read :=
  fun context source => namesWell_readWithin (source.length / 7) context source

end TextMode
