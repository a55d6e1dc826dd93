import TextMode.Json.Reader
import TextMode.Settings.VariableFile

/-!
# Values of settings from variables

Settings come in sections.  The variable named like a section may hold a JSON object
with its entries, and a variable whose name has the name of a section, two
underscores and the name of an entry sets that entry.  The case of names does not
matter.  A variable of the environment goes before one of the file.
-/

namespace TextMode.Settings

inductive Section where
  | units
  | macros
  | log
  deriving DecidableEq, Repr

namespace Section

def all : List Section :=
  [units, macros, log]

def name : Section → Text
  | units => "units".toList
  | macros => "macros".toList
  | log => "log".toList

/-- The names of the entries that a section knows. -/
def entryNames : Section → List Text
  | units => ["em_per_inch".toList, "px_per_inch".toList]
  | macros => ["max_buffer".toList]
  | log => ["level".toList, "dir".toList]

end Section

inductive Source where
  | environment
  | file
  deriving DecidableEq, Repr

/-- A variable of a section that does not hold JSON. -/
structure Unreadable where
  ofSection : Section
  source : Source
  deriving DecidableEq, Repr

/-- Variables by their names in lower case.  One may have no value. -/
abbrev Variables :=
  Entries Text (Option Text)

def lowerCase (name : Text) : Text :=
  name.map Char.toLower

def Variables.ofPairs (pairs : List (Text × Option Text)) : Variables :=
  Entries.ofList (pairs.map fun pair => (lowerCase pair.1, pair.2))

/-- What follows `start` in a name. -/
def afterStart? (start name : Text) : Option Text :=
  if start.isPrefixOf name then some (name.drop start.length) else none

/-- The parts of a name between pairs of underscores. -/
def splitName : Text → List Text
  | [] => [[]]
  | ['_'] => [['_']]
  | '_' :: '_' :: rest => [] :: splitName rest
  | c :: rest =>
      match splitName rest with
      | [] => [[c]]
      | first :: others => (c :: first) :: others

/-- Sets the entry at the end of a chain of names.  Objects on the way are created;
where the chain meets another value, nothing is set. -/
def setAt (value : Json) : List Text → Json → Json
  | [], current => current
  | [name], .object entries => .object (Entries.insert name value entries)
  | name :: names, .object entries =>
      let inner := (Entries.get? name entries).getD (.object [])
      .object (Entries.insert name (setAt value names inner) entries)
  | _ :: _, current => current

def jsonOfVariable : Option Text → Json
  | some s => .string s
  | none => .null

/-- The object that the variables of single entries make up. -/
def entriesOfVariables (part : Section) (given : Variables) : Json :=
  given.foldl
    (fun current pair =>
      match afterStart? (part.name ++ ['_', '_']) pair.1 with
      | some rest => setAt (jsonOfVariable pair.2) (splitName rest) current
      | none => current)
    (.object [])

mutual

/-- The second value over the first: objects are merged entry by entry. -/
def overlay : Json → Json → Json
  | .object below, .object above => .object (overlayEntries below above)
  | _, value => value

def overlayEntries (below : List (Text × Json)) : List (Text × Json) → List (Text × Json)
  | [] => below
  | (key, value) :: above =>
      let merged :=
        match Entries.get? key below with
        | some old => overlay old value
        | none => value
      overlayEntries (Entries.insert key merged below) above

end

/-- Entries under the names that the section knows, whatever their case. -/
def canonicalEntries (part : Section) (entries : List (Text × Json)) : Entries Text Json :=
  Entries.ofList (entries.map fun entry =>
    match part.entryNames.find? fun name => name = lowerCase entry.1 with
    | some name => (name, entry.2)
    | none => entry)

/-- The value of a section in the given variables, if they set one.  The JSON word
for no value sets none. -/
def sectionValue (source : Source) (part : Section) (given : Variables) :
    Except Unreadable (Option Json) :=
  let single := entriesOfVariables part given
  match Entries.get? part.name given with
  | some (some s) =>
      match Json.read? s with
      | none => .error ⟨part, source⟩
      | some .null => .ok none
      | some (.object entries) =>
          match overlay (.object entries) single with
          | .object entries => .ok (some (.object (canonicalEntries part entries)))
          | value => .ok (some value)
      | some value => .ok (some value)
  | _ =>
      match single with
      | .object (entry :: entries) =>
          .ok (some (.object (canonicalEntries part (entry :: entries))))
      | _ => .ok none

/-- The values of all sections that the given variables set. -/
def sectionValues (source : Source) (given : Variables) :
    Except Unreadable (List (Text × Json)) := do
  let values ← Section.all.mapM fun part => do
    let value ← sectionValue source part given
    return value.toList.map (part.name, ·)
  return values.flatten

/-- The values of the sections from the environment and from a file of variables. -/
def collect (environment : Entries Text Text) (file : Option Text) :
    Except Unreadable (Entries Text Json) := do
  let above ← sectionValues .environment
    (Variables.ofPairs (environment.map fun pair => (pair.1, some pair.2)))
  let below ← sectionValues .file
    (Variables.ofPairs
      (match file with
        | some content => VariableFile.read environment content
        | none => []))
  return overlayEntries below above

end TextMode.Settings
