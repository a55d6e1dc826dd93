import TextMode.Content.Splitter
import TextMode.Context
import TextMode.Markup.Node

/-!
# Nodes of mixed content

Mixed content is split first, then its islands are read in order, and only then
are nodes made: a text leaf of each plain piece and an atom of each island.  With
a script level the nodes stand in one style node; otherwise several nodes stand
in one row.
-/

namespace TextMode

/-- Reads the source of an island. -/
abbrev IslandReader := Context → Text → Except TexError Node

inductive Segment where
  | plain (text : Text)
  | island (kind : IslandKind) (source : Text) (tree : Node)
  deriving Repr

inductive ScriptLevel where
  | number (level : Int)
  | text (level : Text)
  deriving DecidableEq, Repr

def ScriptLevel.toAttribute : ScriptLevel → AttributeValue
  | number level => .number level
  | text level => .text level

/-- Reads the island of a piece. -/
def Piece.read (read : IslandReader) (context : Context) :
    Piece → Except TexError Segment
  | plain text => .ok (.plain text)
  | island kind source => do
      let tree ← read context source
      return .island kind source tree

def scan (read : IslandReader) (context : Context) (text : Text) :
    Except TexError (List Segment) := do
  let pieces ← split text
  pieces.mapM (Piece.read read context)

/-- The attributes that carry the font of a context.  An empty font is none. -/
def Context.fontAttributes (context : Context) : Attributes :=
  match context.font with
  | none | some [] => []
  | some font => [("mathvariant", .text font)]

/-- The node of a segment.  Notation between dollars or parentheses takes no font
from its surroundings. -/
def Segment.toNode (context : Context) : Segment → Node
  | plain text => .leaf "text" context.fontAttributes (Text.normaliseEdges text)
  | island .reference _ tree => .group "TeXAtom" context.fontAttributes [tree]
  | island _ _ tree => .group "TeXAtom" [] [tree]

def wrap (level : Option ScriptLevel) (nodes : List Node) : List Node :=
  match level, nodes with
  | some level, _ =>
      [.group "mstyle"
        [("displaystyle", .flag false), ("scriptlevel", level.toAttribute)] nodes]
  | none, _ :: _ :: _ => [.group "mrow" [] nodes]
  | none, _ => nodes

def build (read : IslandReader) (level : Option ScriptLevel) (context : Context)
    (text : Text) : Except TexError (List Node) := do
  let segments ← scan read context text
  return wrap level (segments.map (Segment.toNode context))

end TextMode
