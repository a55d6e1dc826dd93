import Mathlib
import TextMode.Content.Segment
import TextMode.Notation.Element

/-!
# What surrounds nodes

Text takes the font of the innermost text command around it that sets one.  Nodes side by
side stand in a row, and the nodes of a text with a script level in a style node.
-/

namespace TextMode

open TextMode.Notation

/-! ## Fonts -/

/-- The text commands, each with the font that it sets for its body.  The first three set
none, so text in them keeps the font around them. -/
def textFonts : List (Text × Option Text) :=
  [("text".toList, none), ("mbox".toList, none), ("hbox".toList, none),
    ("textrm".toList, some "normal".toList), ("textbf".toList, some "bold".toList),
    ("textit".toList, some "italic".toList), ("texttt".toList, some "monospace".toList),
    ("textsf".toList, some "sans-serif".toList)]

/-- The text commands are those of the table, with the fonts that stand there. -/
theorem map_font?_all :
    TextCommand.all.map (fun command => (command.name, command.font?)) = textFonts := by
  decide

/-- The font inside a text box: that of its command, or else the font around it. -/
def innerFont (command : TextCommand) (font : Option Text) : Option Text :=
  match textFonts.lookup command.name with
  | some (some inner) => some inner
  | _ => font

/-- The context of a text box has the font of the new scope.  Three of the commands leave
the font around them alone. -/
theorem font_enter (command : TextCommand) (context : Context) :
    (command.enter context).font = innerFont command context.font := by
  cases command <;> rfl

/-- The attributes of a node that takes the font of its scope.  An absent or empty font is
not shown. -/
def fontAttributes : Option Text → Attributes
  | none | some [] => []
  | some font => [("mathvariant", .text font)]

/-- What a node shows of a context is its font and nothing else. -/
theorem Context.fontAttributes_eq (context : Context) :
    context.fontAttributes = TextMode.fontAttributes context.font := by
  rw [Context.fontAttributes]
  cases context.font with
  | none => rfl
  | some font => cases font <;> rfl

/-! ## Rows and styles -/

/-- Several nodes stand in a row.  A single node is left alone, and no node needs none. -/
def inRow : List Node → List Node
  | [] => []
  | [node] => [node]
  | nodes => [.group "mrow" [] nodes]

/-- Under a script level all nodes stand in a style node, which takes the place of the
row. -/
def inStyle : Option ScriptLevel → List Node → List Node
  | none, nodes => inRow nodes
  | some (.number level), nodes =>
      [.group "mstyle" [("displaystyle", .flag false), ("scriptlevel", .number level)] nodes]
  | some (.text level), nodes =>
      [.group "mstyle" [("displaystyle", .flag false), ("scriptlevel", .text level)] nodes]

theorem wrap_none (nodes : List Node) : wrap none nodes = inRow nodes := by
  match nodes with
  | [] | [_] | _ :: _ :: _ => rfl

/-- Nodes are wrapped by the rule for rows and styles.  Neither the kinds of the nodes nor
what is in them make a difference. -/
theorem wrap_eq_inStyle (level : Option ScriptLevel) (nodes : List Node) :
    wrap level nodes = inStyle level nodes := by
  match level with
  | none => exact wrap_none nodes
  | some (.number _) | some (.text _) => rfl

end TextMode
