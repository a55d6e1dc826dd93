import TextMode.Dimension.Ems
import TextMode.Expansion.Call
import TextMode.Log.Level
import TextMode.Settings.Number
import TextMode.Settings.Path
import TextMode.Settings.Source
import TextMode.Text.Quoted

/-!
# Validated settings

Every entry is checked on its own, and all problems are reported together, in the
order of the sections and of their entries.
-/

namespace TextMode

structure Settings where
  ratios : UnitRatios
  maxBuffer : Int
  level : LogLevel
  directory : Option Text
  deriving DecidableEq, Repr

namespace Settings

def standard : Settings where
  ratios := UnitRatios.standard
  maxBuffer := Expansion.standardLimit
  level := .info
  directory := none

/-- What is wrong with a value. -/
inductive Problem where
  | notDecimal
  | notInteger
  | notPositive
  | unknownLevel (given : Text)
  | noNumber
  | noInteger
  | fractional
  | notFinite
  | noText
  | noPath
  | noSection (part : Section)
  deriving DecidableEq, Repr

namespace Problem

/-- The name of a kind of problem. -/
def name : Problem → Text
  | notDecimal => "float_parsing".toList
  | notInteger => "int_parsing".toList
  | notPositive => "greater_than".toList
  | unknownLevel _ => "value_error".toList
  | noNumber => "float_type".toList
  | noInteger => "int_type".toList
  | fractional => "int_from_float".toList
  | notFinite => "finite_number".toList
  | noText => "string_type".toList
  | noPath => "path_type".toList
  | noSection _ => "model_type".toList

/-- The name under which the values of a section are known. -/
def sectionTitle : Section → Text
  | .units => "UnitConfig".toList
  | .macros => "MacroConfig".toList
  | .log => "LoggingConfig".toList

def levelNames : Text :=
  ", ".toList.intercalate (LogLevel.all.map LogLevel.name)

def message : Problem → Text
  | notDecimal =>
      "Input should be a valid number, unable to parse string as a number".toList
  | notInteger =>
      "Input should be a valid integer, unable to parse string as an integer".toList
  | notPositive => "Input should be greater than 0".toList
  | unknownLevel given =>
      "Value error, LOG__LEVEL must be one of ".toList ++ levelNames ++ ", got ".toList ++
        Text.quote given
  | noNumber => "Input should be a valid number".toList
  | noInteger => "Input should be a valid integer".toList
  | fractional =>
      "Input should be a valid integer, got a number with a fractional part".toList
  | notFinite => "Input should be a finite number".toList
  | noText => "Input should be a valid string".toList
  | noPath => "Input is not a valid path for <class 'pathlib.Path'>".toList
  | noSection part =>
      "Input should be a valid dictionary or instance of ".toList ++ sectionTitle part

end Problem

/-- A problem and the dotted name of the value that has it. -/
structure Detail where
  location : Text
  problem : Problem
  deriving DecidableEq, Repr

inductive Fault where
  | unreadable (cause : Unreadable)
  | invalid (details : List Detail)
  deriving DecidableEq, Repr

def Source.name : Source → Text
  | environment => "EnvSettingsSource".toList
  | file => "DotEnvSettingsSource".toList

def Unreadable.message (cause : Unreadable) : Text :=
  "error parsing value for field \"".toList ++ cause.ofSection.name ++
    "\" from source \"".toList ++ cause.source.name ++ ['"']

def requirePositive (value : Binary64) : Except Problem Binary64 :=
  if value.isPositive then .ok value else .error .notPositive

/-- A number greater than zero, possibly infinite. -/
def positiveNumber : Json → Except Problem Binary64
  | .string s =>
      match readBinary64? s with
      | some value => requirePositive value
      | none => .error .notDecimal
  | .number number => requirePositive number.toBinary64
  | .extended value => requirePositive value
  | .bool value => requirePositive (.ofRatio false value.toNat 1)
  | _ => .error .noNumber

def requirePositiveInteger (value : Int) : Except Problem Int :=
  if 0 < value then .ok value else .error .notPositive

/-- The integer that a finite number is, if it is one. -/
def integerOfBinary64 : Binary64 → Except Problem Int
  | .finite negative significand exponent _ =>
      let numerator := Binary64.numerator significand exponent
      let denominator := Binary64.denominator exponent
      if numerator % denominator = 0 then
        let magnitude : Int := numerator / denominator
        .ok (if negative then -magnitude else magnitude)
      else .error .fractional
  | _ => .error .notFinite

/-- An integer greater than zero. -/
def positiveInteger : Json → Except Problem Int
  | .string s =>
      match readInteger? s with
      | some value => requirePositiveInteger value
      | none => .error .notInteger
  | .number number =>
      match number.toInt? with
      | some value => requirePositiveInteger value
      | none => integerOfBinary64 number.toBinary64 >>= requirePositiveInteger
  | .extended value => integerOfBinary64 value >>= requirePositiveInteger
  | .bool value => requirePositiveInteger value.toInt
  | _ => .error .noInteger

def knownLevel : Json → Except Problem LogLevel
  | .string s =>
      match LogLevel.ofText? s with
      | some level => .ok level
      | none => .error (.unknownLevel s)
  | _ => .error .noText

def optionalPath : Json → Except Problem (Option Text)
  | .null => .ok none
  | .string s => .ok (some (Path.normalise s))
  | _ => .error .noPath

/-- A checked value or all the problems found. -/
abbrev Checked (α : Type) :=
  Except (List Detail) α

/-- Checks two values and keeps the problems of both. -/
def both {α β : Type} (first : Checked α) (second : Checked β) : Checked (α × β) :=
  match first, second with
  | .ok a, .ok b => .ok (a, b)
  | .ok _, .error later => .error later
  | .error details, .ok _ => .error details
  | .error details, .error later => .error (details ++ later)

/-- Checks one entry of a section; an entry that is not set has its standard value. -/
def checkEntry {α : Type} (part : Section) (name : String) (standard : α)
    (check : Json → Except Problem α) (entries : Entries Text Json) : Checked α :=
  match Entries.get? name.toList entries with
  | none => .ok standard
  | some value =>
      (check value).mapError fun problem =>
        [⟨part.name ++ '.' :: name.toList, problem⟩]

/-- Checks the entries of a section, which is an object if it is set at all. -/
def checkSection {α : Type} (part : Section) (check : Entries Text Json → Checked α)
    (values : Entries Text Json) : Checked α :=
  match Entries.get? part.name values with
  | none => check []
  | some (.object entries) => check entries
  | some _ => .error [⟨part.name, .noSection part⟩]

def checkUnits (entries : Entries Text Json) : Checked UnitRatios :=
  (both
    (checkEntry .units "em_per_inch" standard.ratios.emPerInch positiveNumber entries)
    (checkEntry .units "px_per_inch" standard.ratios.pxPerInch positiveNumber entries)).map
    fun ratios => ⟨ratios.1, ratios.2⟩

def checkMacros (entries : Entries Text Json) : Checked Int :=
  checkEntry .macros "max_buffer" standard.maxBuffer positiveInteger entries

def checkLog (entries : Entries Text Json) : Checked (LogLevel × Option Text) :=
  both (checkEntry .log "level" standard.level knownLevel entries)
    (checkEntry .log "dir" standard.directory optionalPath entries)

def validate (values : Entries Text Json) : Checked Settings :=
  (both (checkSection .units checkUnits values)
    (both (checkSection .macros checkMacros values)
      (checkSection .log checkLog values))).map
    fun found => ⟨found.1, found.2.1, found.2.2.1, found.2.2.2⟩

/-- The settings in an environment, with a file of variables or without. -/
def load (environment : Entries Text Text) (file : Option Text) : Except Fault Settings :=
  match collect environment file with
  | .error cause => .error (.unreadable cause)
  | .ok values => (validate values).mapError .invalid

end Settings

end TextMode
