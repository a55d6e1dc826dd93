import Mathlib
import TextMode.Notation.Reader
import TextMode.Proofs.Content.Grammar
import TextMode.Proofs.Content.Surroundings

/-!
# Documents

A document is mixed content as an author means it: plain texts and islands, whose
terms may hold text boxes with documents again.  A document is written as text in one
way, with every special character of plain text escaped, and it stands for the nodes
that a reader of that text has to build.
-/

namespace TextMode.Document

open TextMode.Text (isBlank)
open TextMode.Notation (TextCommand)

/-- What an island is written between. -/
inductive Enclosure where
  | dollar
  | parenthesis
  | ref
  | eqref
  deriving DecidableEq, Repr

namespace Enclosure

def kind : Enclosure → IslandKind
  | dollar => .dollar
  | parenthesis => .parenthesis
  | ref | eqref => .reference

/-- The command of a reference. -/
def command? : Enclosure → Option Text
  | dollar | parenthesis => none
  | ref => some "ref".toList
  | eqref => some "eqref".toList

def opening : Enclosure → Text
  | dollar => ['$']
  | parenthesis => ['\\', '(']
  | ref => '\\' :: "ref".toList ++ ['{']
  | eqref => '\\' :: "eqref".toList ++ ['{']

end Enclosure

mutual

/-- A part of a document. -/
inductive Passage where
  | plain (text : Text)
  | island (enclosure : Enclosure) (terms : List Term)

/-- A part of an island. -/
inductive Term where
  | control (name : Text)
  | special (char : Char)
  | characters (run : Text)
  | group (terms : List Term)
  | textBox (command : TextCommand) (body : List Passage)

end

/-! ## Writing -/

/-- Plain text with a backslash before each character that is special in it. -/
def escape (text : Text) : Text :=
  text.flatMap fun c => if IsLiteralEscape c then ['\\', c] else [c]

/-- Terms are separated by single spaces. -/
def spaced (written : List Text) : Text :=
  [' '].intercalate written

mutual

def Passage.written : Passage → Text
  | .plain text => escape text
  | .island enclosure terms =>
      enclosure.opening ++ (spaced (writtenTerms terms) ++ enclosure.kind.delimiter)

def writtenPassages : List Passage → Text
  | [] => []
  | passage :: passages => passage.written ++ writtenPassages passages

def Term.written : Term → Text
  | .control name => '\\' :: name
  | .special char => [char]
  | .characters run => run
  | .group terms => '{' :: (spaced (writtenTerms terms) ++ ['}'])
  | .textBox command body =>
      '\\' :: command.name ++ '{' :: (writtenPassages body ++ ['}'])

def writtenTerms : List Term → List Text
  | [] => []
  | term :: terms => term.written :: writtenTerms terms

end

/-! ## Well-formed documents -/

/-- A name of ASCII letters, or a single other character that does not close an
island. -/
def IsControlName (name : Text) : Prop :=
  (name ≠ [] ∧ ∀ c ∈ name, c.isAlpha) ∨ ∃ c, name = [c] ∧ c.isAlpha = false ∧ c ≠ ')'

/-- The characters that are terms of their own. -/
def specials : List Char :=
  ['_', '^', '&', '~', '#', '\'']

/-- A run that is one token and holds no dollar. -/
def IsCharacterRun (run : Text) : Prop :=
  run ≠ [] ∧ ∀ c ∈ run,
    c ∉ ['\\', '{', '}', '%', '$'] ∧ c ∉ specials ∧ isBlank c = false

/-- Adjacent plain texts would be read as one. -/
def Passage.MayPrecede : Passage → List Passage → Prop
  | .plain _, .plain _ :: _ => False
  | _, _ => True

/-- A text command without a body does not stand before a group, because it would take
the group as its body. -/
def Term.MayPrecede : Term → List Term → Prop
  | .control name, .group _ :: _ => TextCommand.ofName? name = none
  | _, _ => True

mutual

def Passage.WellFormed : Passage → Prop
  | .plain text => text ≠ [] ∧ '%' ∉ text
  | .island _ terms => WellFormedTerms terms

def WellFormedPassages : List Passage → Prop
  | [] => True
  | passage :: passages =>
      passage.WellFormed ∧ passage.MayPrecede passages ∧ WellFormedPassages passages

def Term.WellFormed : Term → Prop
  | .control name => IsControlName name
  | .special char => char ∈ specials
  | .characters run => IsCharacterRun run
  | .group terms => WellFormedTerms terms
  | .textBox _ body => WellFormedPassages body

def WellFormedTerms : List Term → Prop
  | [] => True
  | term :: terms => term.WellFormed ∧ term.MayPrecede terms ∧ WellFormedTerms terms

end

/-! ## The nodes of a document -/

/-- A reference keeps its command and the group behind it. -/
def Enclosure.children (enclosure : Enclosure) (nodes : List Node) : List Node :=
  match enclosure.command? with
  | none => nodes
  | some command => [.group "macro" [("name", .text command)] [], .group "group" [] nodes]

/-- The tree of an island with the given nodes of its terms. -/
def Enclosure.tree (enclosure : Enclosure) (nodes : List Node) : Node :=
  .group "math" [] (enclosure.children nodes)

/-- The font of the surrounding text reaches references and no other islands. -/
def Enclosure.attributes (font : Option Text) : Enclosure → Attributes
  | dollar | parenthesis => []
  | ref | eqref => fontAttributes font

mutual

/-- The node of a passage in the scope of a font. -/
def Passage.node (font : Option Text) : Passage → Node
  | .plain text => .leaf "text" (fontAttributes font) (Text.normaliseEdges text)
  | .island enclosure terms =>
      .group "TeXAtom" (enclosure.attributes font) [enclosure.tree (termNodes font terms)]

def passageNodes (font : Option Text) : List Passage → List Node
  | [] => []
  | passage :: passages => passage.node font :: passageNodes font passages

def Term.node (font : Option Text) : Term → Node
  | .control name => .group "macro" [("name", .text name)] []
  | .special char => .group "special" [("char", .text [char])] []
  | .characters run => .leaf "text" [("role", .text "chars".toList)] run
  | .group terms => .group "group" [] (termNodes font terms)
  | .textBox command body =>
      .group "textbox" [("name", .text command.name)]
        (inRow (passageNodes (innerFont command font) body))

def termNodes (font : Option Text) : List Term → List Node
  | [] => []
  | term :: terms => term.node font :: termNodes font terms

end

/-! ## Writing step by step -/

theorem escape_cons (c : Char) (text : Text) :
    escape (c :: text) = (if IsLiteralEscape c then ['\\', c] else [c]) ++ escape text := by
  rw [escape, List.flatMap_cons]
  rfl

/-- Terms are written one behind another, with a space in front of each but the first. -/
theorem spaced_cons (first : Text) (rest : List Text) :
    spaced (first :: rest) = first ++ (if rest = [] then [] else ' ' :: spaced rest) := by
  cases rest with
  | nil => simp [spaced]
  | cons second rest => simp [spaced, List.intercalate]

end TextMode.Document
