import TextMode.Entries
import TextMode.Text.Basic

/-!
# Markup trees

A node has a kind, attributes in the order in which they were set, and either a
text, which makes it a leaf, or children.
-/

namespace TextMode

inductive AttributeValue where
  | text (value : Text)
  | flag (value : Bool)
  | number (value : Int)
  | absent
  deriving DecidableEq, Repr

abbrev Attributes :=
  Entries String AttributeValue

inductive Node where
  | mk (kind : String) (attributes : Attributes) (text : Option Text)
      (children : List Node)
  deriving Repr

namespace Node

def kind : Node → String
  | mk kind _ _ _ => kind

def attributes : Node → Attributes
  | mk _ attributes _ _ => attributes

def text : Node → Option Text
  | mk _ _ text _ => text

def children : Node → List Node
  | mk _ _ _ children => children

def leaf (kind : String) (attributes : Attributes) (text : Text) : Node :=
  mk kind attributes (some text) []

def group (kind : String) (attributes : Attributes) (children : List Node) : Node :=
  mk kind attributes none children

/-- A node is a leaf if it has a text, even an empty one. -/
def isLeaf (node : Node) : Bool :=
  node.text.isSome

mutual

/-- The node and all its descendants, each before its own children. -/
def walk : Node → List Node
  | mk kind attributes text children =>
      mk kind attributes text children :: walkAll children

def walkAll : List Node → List Node
  | [] => []
  | node :: nodes => walk node ++ walkAll nodes

end

theorem walk_leaf (kind : String) (attributes : Attributes) (text : Text) :
    walk (leaf kind attributes text) = [leaf kind attributes text] := by
  rw [leaf, walk, walkAll]

theorem walk_group (kind : String) (attributes : Attributes) (children : List Node) :
    walk (group kind attributes children) = group kind attributes children :: walkAll children := by
  rw [group, walk]

theorem walkAll_eq_flatMap (nodes : List Node) : walkAll nodes = nodes.flatMap walk := by
  induction nodes with
  | nil => rfl
  | cons node nodes ih => rw [walkAll, ih, List.flatMap_cons]

end Node

end TextMode
