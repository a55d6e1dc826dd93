import TextMode.Context
import TextMode.Markup.Node
import TextMode.Notation.Item

/-!
# Elements of notation

Elements are what is left of items once blanks and comments are dropped and each
text command is joined with the group after it.  The body of such a text box is
the raw text between its braces, because it is mixed content and not notation.
-/

namespace TextMode.Notation

/-- The commands whose argument is mixed content. -/
inductive TextCommand where
  | text
  | mbox
  | hbox
  | textrm
  | textbf
  | textit
  | texttt
  | textsf
  deriving DecidableEq, Repr

namespace TextCommand

def all : List TextCommand :=
  [text, mbox, hbox, textrm, textbf, textit, texttt, textsf]

def name : TextCommand → Text
  | text => "text".toList
  | mbox => "mbox".toList
  | hbox => "hbox".toList
  | textrm => "textrm".toList
  | textbf => "textbf".toList
  | textit => "textit".toList
  | texttt => "texttt".toList
  | textsf => "textsf".toList

/-- The font that the command sets, if it sets one. -/
def font? : TextCommand → Option Text
  | text | mbox | hbox => none
  | textrm => some "normal".toList
  | textbf => some "bold".toList
  | textit => some "italic".toList
  | texttt => some "monospace".toList
  | textsf => some "sans-serif".toList

def ofName? (name : Text) : Option TextCommand :=
  all.find? fun command => command.name = name

/-- The context of the command's argument. -/
def enter (command : TextCommand) (context : Context) : Context :=
  match command.font? with
  | some font => context.withFont (some font)
  | none => context

end TextCommand

inductive Element where
  /-- A command that is not joined with a group. -/
  | control (name : Text)
  | special (char : Char)
  | characters (run : Text)
  | group (elements : List Element)
  | textBox (command : TextCommand) (body : Text)
  deriving Repr

namespace Element

/-- The element of a text command that no group followed. -/
def unjoined : Option TextCommand → List Element
  | none => []
  | some command => [control command.name]

/-- The element of a token that stands for itself. -/
def ofToken : Token → List Element
  | .controlWord name => [control name]
  | .controlSymbol char => [control [char]]
  | .special char => [special char]
  | .characters run => [characters run]
  | _ => []

mutual

/-- The elements inside an item, if it is a group. -/
def members : Item → List Element
  | .single _ => []
  | .group items => ofItems none items

/-- The elements of a list of items.  `waiting` is a text command whose next item
has not been seen yet. -/
def ofItems (waiting : Option TextCommand) : List Item → List Element
  | [] => unjoined waiting
  | item :: rest =>
      match item, waiting with
      | .group items, some command =>
          textBox command (Item.lexemes items) :: ofItems none rest
      | .group _, none => group (members item) :: ofItems none rest
      | .single token, _ =>
          if token.isTrivia then ofItems waiting rest
          else
            unjoined waiting ++
              match token with
              | .controlWord name =>
                  match TextCommand.ofName? name with
                  | some command => ofItems (some command) rest
                  | none => control name :: ofItems none rest
              | token => ofToken token ++ ofItems none rest

end

/-- The elements of a text. -/
def read (text : Text) : Except Fault (List Element) :=
  (ofItems none) <$> Item.read text

mutual

/-- The text boxes of an element in the order of the text, those inside the
bodies of text boxes excepted. -/
def boxes : Element → List (TextCommand × Text)
  | control _ | special _ | characters _ => []
  | group elements => allBoxes elements
  | textBox command body => [(command, body)]

def allBoxes : List Element → List (TextCommand × Text)
  | [] => []
  | element :: elements => boxes element ++ allBoxes elements

end

mutual

/-- The node of an element; `build` reads the bodies of text boxes. -/
def toNode (build : Context → Text → Except TexError (List Node)) (context : Context) :
    Element → Except TexError Node
  | control name => .ok (.group "macro" [("name", .text name)] [])
  | special char => .ok (.group "special" [("char", .text [char])] [])
  | characters run => .ok (.leaf "text" [("role", .text "chars".toList)] run)
  | group elements => do
      let children ← toNodes build context elements
      return .group "group" [] children
  | textBox command body => do
      let children ← build (command.enter context) body
      return .group "textbox" [("name", .text command.name)] children

def toNodes (build : Context → Text → Except TexError (List Node)) (context : Context) :
    List Element → Except TexError (List Node)
  | [] => .ok []
  | element :: elements => do
      let node ← toNode build context element
      let nodes ← toNodes build context elements
      return node :: nodes

end

end Element

end TextMode.Notation
