import TextMode.Expansion.Body
import TextMode.Expansion.Join

/-!
# Expanding calls

Each placeholder in the body of a call is replaced by its argument, which is not
read again.  The text between placeholders is taken as it is, with doubled hashes
as single ones.
-/

namespace TextMode.Expansion

/-- The limit of the buffer where none is given. -/
def standardLimit : Int :=
  5120

/-- Expands the tokens of a body.  `expanded` is what the tokens before the last
placeholder have given, and `literal` the text since then. -/
def expandTokens (limit : Int) (arguments : List Text) (expanded literal : Text) :
    List BodyToken → Except Fault Text
  | [] => join limit expanded literal
  | .placeholder index :: tokens =>
      match arguments[index.val]? with
      | none => .error (.illegalParameter (BodyToken.placeholder index).spelling)
      | some argument => do
          let before ← join limit expanded literal
          let expanded ← join limit before argument
          expandTokens limit arguments expanded [] tokens
  | .malformedHash next :: _ =>
      .error (.illegalParameter (BodyToken.malformedHash next).spelling)
  | .doubledHash :: tokens =>
      expandTokens limit arguments expanded (literal ++ ['#']) tokens
  | token :: tokens =>
      expandTokens limit arguments expanded (literal ++ token.spelling) tokens

def expand (limit : Int) (arguments : List Text) (body : Text) : Except Fault Text :=
  expandTokens limit arguments [] [] (readBody body)

/-- A body together with its arguments, of which there are nine at most. -/
structure Call where
  body : Text
  arguments : List Text
  length_arguments_le : arguments.length ≤ 9

structure TooManyArguments where
  count : Nat
  deriving DecidableEq, Repr

def TooManyArguments.message (fault : TooManyArguments) : Text :=
  "a macro takes at most 9 arguments, got ".toList ++ Text.decimal fault.count

namespace Call

def ofArguments (body : Text) (arguments : List Text) : Except TooManyArguments Call :=
  if h : arguments.length ≤ 9 then .ok ⟨body, arguments, h⟩
  else .error ⟨arguments.length⟩

def expand (limit : Int) (call : Call) : Except Fault Text :=
  Expansion.expand limit call.arguments call.body

end Call

end TextMode.Expansion
