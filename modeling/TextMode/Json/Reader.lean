import TextMode.Json.Value

/-!
# Reading JSON

Besides the standard grammar the words `NaN`, `Infinity` and `-Infinity` are read.
Of entries with the same key the last one counts, in the place of the first.
-/

namespace TextMode.Json

def isSpace (c : Char) : Bool :=
  c = ' ' || c = '\t' || c = '\n' || c = '\r'

def skipSpace (s : Text) : Text :=
  s.dropWhile isSpace

def hexValue? (c : Char) : Option Nat :=
  if c.isDigit then some (c.toNat - '0'.toNat)
  else if 'a' ≤ c && c ≤ 'f' then some (c.toNat - 'a'.toNat + 10)
  else if 'A' ≤ c && c ≤ 'F' then some (c.toNat - 'A'.toNat + 10)
  else none

/-- The code unit that four hexadecimal digits denote. -/
def codeUnit? (digits : List Char) : Option Nat :=
  digits.foldlM (fun value c => (hexValue? c).map (16 * value + ·)) 0

def escapedChar? : Char → Option Char
  | '"' => some '"'
  | '\\' => some '\\'
  | '/' => some '/'
  | 'b' => some '\x08'
  | 'f' => some '\x0c'
  | 'n' => some '\n'
  | 'r' => some '\r'
  | 't' => some '\t'
  | _ => none

/-- The code units and code points of a string up to its closing quote, and what
follows it. -/
def readUnits : Text → Option (List Nat × Text)
  | [] => none
  | '"' :: rest => some ([], rest)
  | '\\' :: 'u' :: a :: b :: c :: d :: rest => do
      let unit ← codeUnit? [a, b, c, d]
      let (units, rest) ← readUnits rest
      return (unit :: units, rest)
  | '\\' :: c :: rest => do
      let escaped ← escapedChar? c
      let (units, rest) ← readUnits rest
      return (escaped.toNat :: units, rest)
  | c :: rest =>
      if c.toNat < 0x20 then none
      else do
        let (units, rest) ← readUnits rest
        return (c.toNat :: units, rest)

def isHighSurrogate (n : Nat) : Bool :=
  0xd800 ≤ n && n < 0xdc00

def isLowSurrogate (n : Nat) : Bool :=
  0xdc00 ≤ n && n < 0xe000

/-- Joins pairs of surrogates. -/
def joinSurrogates : List Nat → Text
  | [] => []
  | [unit] => [Char.ofNat unit]
  | first :: second :: units =>
      if isHighSurrogate first && isLowSurrogate second then
        Char.ofNat (0x10000 + (first - 0xd800) * 0x400 + (second - 0xdc00)) ::
          joinSurrogates units
      else Char.ofNat first :: joinSurrogates (second :: units)

/-- A string after its opening quote. -/
def readString (s : Text) : Option (Text × Text) :=
  (readUnits s).map fun found => (joinSurrogates found.1, found.2)

/-- A sign before the digits of an exponent. -/
def readExponentSign (s : Text) : Bool × Text :=
  match s with
  | '-' :: rest => (true, rest)
  | '+' :: rest => (false, rest)
  | _ => (false, s)

/-- The fraction digits at the start of a text.  A point without digits after it is
none. -/
def readFraction (s : Text) : Option Text × Text :=
  match s with
  | '.' :: c :: rest =>
      if c.isDigit then
        (some (c :: rest.takeWhile Char.isDigit), rest.dropWhile Char.isDigit)
      else (none, s)
  | _ => (none, s)

def readExponent (s : Text) : Option Int × Text :=
  match s with
  | c :: rest =>
      if c = 'e' || c = 'E' then
        let (negative, digits) := readExponentSign rest
        match digits.takeWhile Char.isDigit with
        | [] => (none, s)
        | found =>
            let magnitude : Int := Text.ofDigits found
            (some (if negative then -magnitude else magnitude),
              digits.dropWhile Char.isDigit)
      else (none, s)
  | [] => (none, s)

/-- The whole part of a number, which has no superfluous zeros. -/
def readWhole (s : Text) : Option (Text × Text) :=
  match s with
  | '0' :: rest => some (['0'], rest)
  | c :: rest =>
      if c.isDigit then
        some (c :: rest.takeWhile Char.isDigit, rest.dropWhile Char.isDigit)
      else none
  | [] => none

def readNumber (s : Text) : Option (JsonNumber × Text) := do
  let (negative, unsigned) :=
    match s with
    | '-' :: rest => (true, rest)
    | _ => (false, s)
  let (whole, rest) ← readWhole unsigned
  let (fraction, rest) := readFraction rest
  let (exponent, rest) := readExponent rest
  return (⟨negative, whole, fraction, exponent⟩, rest)

/-- What follows the word `word` at the start of a text. -/
def afterWord? (word : String) (s : Text) : Option Text :=
  if word.toList.isPrefixOf s then some (s.drop word.length) else none

/-- A value that has no parts. -/
def readScalar (s : Text) : Option (Json × Text) :=
  match s with
  | '"' :: rest => (readString rest).map fun found => (.string found.1, found.2)
  | _ =>
      ((afterWord? "null" s).map (.null, ·)) <|>
      ((afterWord? "true" s).map (.bool true, ·)) <|>
      ((afterWord? "false" s).map (.bool false, ·)) <|>
      ((afterWord? "NaN" s).map (.extended .nan, ·)) <|>
      ((afterWord? "Infinity" s).map (.extended (.infinite false), ·)) <|>
      ((afterWord? "-Infinity" s).map (.extended (.infinite true), ·)) <|>
      ((readNumber s).map fun found => (.number found.1, found.2))

mutual

/-- Reads a value.  Every two calls consume a character, so twice the length of the
text bounds their nesting. -/
def readValue : Nat → Text → Option (Json × Text)
  | 0, _ => none
  | bound + 1, s =>
      match skipSpace s with
      | '[' :: rest =>
          match skipSpace rest with
          | ']' :: rest => some (.array [], rest)
          | rest => (readItems bound rest).map fun found => (.array found.1, found.2)
      | '{' :: rest =>
          match skipSpace rest with
          | '}' :: rest => some (.object [], rest)
          | rest =>
              (readEntries bound rest).map fun found =>
                (.object (Entries.ofList found.1), found.2)
      | rest => readScalar rest

/-- Reads the items of an array and its closing bracket. -/
def readItems : Nat → Text → Option (List Json × Text)
  | 0, _ => none
  | bound + 1, s => do
      let (item, rest) ← readValue bound s
      match skipSpace rest with
      | ']' :: rest => return ([item], rest)
      | ',' :: rest =>
          let (items, rest) ← readItems bound rest
          return (item :: items, rest)
      | _ => none

/-- Reads the entries of an object and its closing brace. -/
def readEntries : Nat → Text → Option (List (Text × Json) × Text)
  | 0, _ => none
  | bound + 1, s =>
      match skipSpace s with
      | '"' :: rest => do
          let (key, rest) ← readString rest
          match skipSpace rest with
          | ':' :: rest =>
              let (value, rest) ← readValue bound rest
              match skipSpace rest with
              | '}' :: rest => return ([(key, value)], rest)
              | ',' :: rest =>
                  let (entries, rest) ← readEntries bound rest
                  return ((key, value) :: entries, rest)
              | _ => none
          | _ => none
      | _ => none

end

/-- The value that a text denotes as a whole. -/
def read? (s : Text) : Option Json := do
  let (value, rest) ← readValue (2 * s.length + 2) s
  if (skipSpace rest).isEmpty then some value else none

end TextMode.Json
