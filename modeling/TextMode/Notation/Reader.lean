import TextMode.Content.Segment
import TextMode.Notation.Element

/-!
# Reading notation

An island is read completely at its own level before any of its text boxes is
opened.  The body of a text box is mixed content and may hold islands again.  A
text box takes seven characters besides its body, which bounds the depth.
-/

namespace TextMode.Notation

/-- Reads one level of notation; `build` reads the bodies of text boxes. -/
def readLevel (build : Context → Text → Except TexError (List Node)) : IslandReader :=
  fun context text => do
    let elements ← (Element.read text).mapError (Fault.report text)
    let children ← Element.toNodes build context elements
    return .group "math" [] children

/-- Reads notation whose text boxes are nested to the given depth at most.  At
depth zero there is none to be opened. -/
def readWithin : Nat → IslandReader
  | 0 => readLevel fun _ _ => .ok []
  | depth + 1 => readLevel (build (readWithin depth) none)

def read : IslandReader := fun context text =>
  readWithin (text.length / 7) context text

end TextMode.Notation
