import TextMode.Markup.Node
import TextMode.Text.Decimal
import TextMode.Text.Quoted

/-!
# S-expressions of markup trees

The S-expression of a node lists, between parentheses and separated by single
spaces, its kind, its attributes as `name=value`, its quoted text if it has one,
and its children.
-/

namespace TextMode

/-- Texts are quoted, truth values and the absent value are words, and numbers
are decimal. -/
def AttributeValue.written : AttributeValue → Text
  | text value => Text.quote value
  | flag true => "True".toList
  | flag false => "False".toList
  | number value => Text.signedDecimal value
  | absent => "None".toList

namespace Node

def writtenSetting (setting : String × AttributeValue) : Text :=
  setting.1.toList ++ '=' :: setting.2.written

/-- The parts of a node that stand before its children. -/
def head (kind : String) (attributes : Attributes) (text : Option Text) : List Text :=
  kind.toList :: attributes.map writtenSetting ++ (text.map Text.quote).toList

mutual

def sexpr : Node → Text
  | mk kind attributes text children =>
      '(' :: ([' '].intercalate (head kind attributes text ++ sexprs children)) ++ [')']

def sexprs : List Node → List Text
  | [] => []
  | node :: nodes => sexpr node :: sexprs nodes

end

end Node

end TextMode
