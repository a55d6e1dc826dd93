import TextMode.Text.Blank

/-!
# Tokens of notation

Notation is read as control words, control symbols, braces, special characters
and runs of other characters.  Blanks and comments separate tokens and mean
nothing; they are kept as tokens here, so the lexemes of a token list are the
text it was read from.
-/

namespace TextMode.Notation

open TextMode.Text (isBlank)

/-- The characters that are tokens of their own besides braces. -/
def isSpecial (c : Char) : Bool :=
  c = '_' || c = '^' || c = '&' || c = '~' || c = '#' || c = '\''

/-- The characters of which runs are made. -/
def isOrdinary (c : Char) : Bool :=
  !(c = '\\' || c = '{' || c = '}' || c = '%' || isSpecial c || isBlank c)

inductive Token where
  | controlWord (name : Text)
  | controlSymbol (char : Char)
  | openBrace
  | closeBrace
  | special (char : Char)
  | characters (run : Text)
  | blanks (run : Text)
  | comment (body : Text)
  /-- A backslash with nothing after it. -/
  | strayBackslash
  deriving DecidableEq, Repr

namespace Token

def lexeme : Token → Text
  | controlWord name => '\\' :: name
  | controlSymbol char => ['\\', char]
  | openBrace => ['{']
  | closeBrace => ['}']
  | special char => [char]
  | characters run => run
  | blanks run => run
  | comment body => '%' :: body
  | strayBackslash => ['\\']

/-- Tokens that only separate others. -/
def isTrivia : Token → Bool
  | blanks _ => true
  | comment _ => true
  | _ => false

/-- The token that starts with the character `c` and is followed by `rest`, with
what remains of `rest` after it. -/
def next (c : Char) (rest : Text) : Token × Text :=
  if c = '\\' then
    match rest with
    | [] => (strayBackslash, [])
    | d :: tail =>
        if d.isAlpha then
          (controlWord (rest.takeWhile Char.isAlpha), rest.dropWhile Char.isAlpha)
        else (controlSymbol d, tail)
  else if c = '{' then (openBrace, rest)
  else if c = '}' then (closeBrace, rest)
  else if c = '%' then
    (comment (rest.takeWhile (· ≠ '\n')), rest.dropWhile (· ≠ '\n'))
  else if isSpecial c then (special c, rest)
  else if isBlank c then
    (blanks (c :: rest.takeWhile isBlank), rest.dropWhile isBlank)
  else (characters (c :: rest.takeWhile isOrdinary), rest.dropWhile isOrdinary)

theorem lexeme_next_append (c : Char) (rest : Text) :
    (next c rest).1.lexeme ++ (next c rest).2 = c :: rest := by
  unfold next
  split
  next hbackslash =>
    subst hbackslash
    split
    · rfl
    · split
      · simp [lexeme]
      · rfl
  next =>
    repeat' split
    all_goals simp_all [lexeme]

theorem lexeme_ne_nil_of_next (c : Char) (rest : Text) : (next c rest).1.lexeme ≠ [] := by
  unfold next
  repeat' split
  all_goals simp [lexeme]

theorem length_next_snd_le (c : Char) (rest : Text) :
    (next c rest).2.length ≤ rest.length := by
  have hlength := congrArg List.length (lexeme_next_append c rest)
  have hpos := List.length_pos_iff.2 (lexeme_ne_nil_of_next c rest)
  simp only [List.length_append, List.length_cons] at hlength
  omega

end Token

def tokenize : Text → List Token
  | [] => []
  | c :: rest => (Token.next c rest).1 :: tokenize (Token.next c rest).2
termination_by text => text.length
decreasing_by
  have hlength := Token.length_next_snd_le c rest
  simp only [List.length_cons]
  omega

/-- The lexemes of the tokens of a text are that text. -/
theorem flatMap_lexeme_tokenize (text : Text) :
    (tokenize text).flatMap Token.lexeme = text := by
  induction text using tokenize.induct with
  | case1 => simp [tokenize]
  | case2 c rest ih =>
      rw [tokenize, List.flatMap_cons, ih]
      exact Token.lexeme_next_append c rest

end TextMode.Notation
