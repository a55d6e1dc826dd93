import TextMode.Error

/-!
# Reading contexts

A context is passed down while mixed content is read.  It is a value: setting a
font or entering an equation gives a new context and leaves the old one.
-/

namespace TextMode

structure Context where
  font : Option Text := none
  inEquation : Bool := false
  deriving DecidableEq, Repr

namespace Context

def withFont (context : Context) (font : Option Text) : Context :=
  { context with font }

/-- Enters an equation.  Equations do not nest. -/
def enterEquation (context : Context) : Except TexError Context :=
  if context.inEquation then .error .erroneousNesting
  else .ok { context with inEquation := true }

end Context

end TextMode
