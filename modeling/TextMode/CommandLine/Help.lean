import TextMode.CommandLine.Arguments
import TextMode.Text.Quoted

/-!
# Help and usage
-/

namespace TextMode.CommandLine

def versionText : Text :=
  "0.1.0\n".toList

/-- The usage of a command, or of the program as a whole. -/
def usage : Option CommandName → Text
  | none => "usage: texprep [-h] [--version] \x7bdimen,expand,scan\x7d ...\n".toList
  | some .dimen => "usage: texprep dimen [-h] literals [literals ...]\n".toList
  | some .expand => "usage: texprep expand [-h] body [args ...]\n".toList
  | some .scan => "usage: texprep scan [-h] [--level LEVEL] [--font FONT] text\n".toList

/-- What the usage leaves unsaid. -/
def details : Option CommandName → Text
  | none =>
      ("\nInspect TeX text-mode preprocessing.\n" ++
        "\npositional arguments:\n" ++
        "  \x7bdimen,expand,scan\x7d\n" ++
        "    dimen              convert dimension literals to ems\n" ++
        "    expand             expand #1..#9 in a macro body\n" ++
        "    scan               split text into text and notation\n" ++
        "\noptions:\n" ++
        "  -h, --help           show this help message and exit\n" ++
        "  --version            show program's version number and exit\n").toList
  | some .dimen =>
      ("\npositional arguments:\n" ++
        "  literals\n" ++
        "\noptions:\n" ++
        "  -h, --help  show this help message and exit\n").toList
  | some .expand =>
      ("\npositional arguments:\n" ++
        "  body\n" ++
        "  args\n" ++
        "\noptions:\n" ++
        "  -h, --help  show this help message and exit\n").toList
  | some .scan =>
      ("\npositional arguments:\n" ++
        "  text\n" ++
        "\noptions:\n" ++
        "  -h, --help     show this help message and exit\n" ++
        "  --level LEVEL  script level\n" ++
        "  --font FONT    math variant for text\n").toList

def helpText (topic : Option CommandName) : Text :=
  usage topic ++ details topic

def listed (items : List Text) : Text :=
  ", ".toList.intercalate items

def UsageError.message : UsageError → Text
  | ambiguous cause =>
      "ambiguous option: ".toList ++ cause.argument ++ " could match ".toList ++
        listed (cause.candidates.map Switch.longName)
  | unexpectedValue switch value =>
      "argument ".toList ++ switch.title ++ ": ignored explicit argument ".toList ++
        Text.quote value
  | missingValue switch =>
      "argument ".toList ++ switch.title ++ ": expected one argument".toList
  | notInteger switch value =>
      "argument ".toList ++ switch.title ++ ": invalid int value: ".toList ++
        Text.quote value
  | unknownCommand given =>
      "argument command: invalid choice: ".toList ++ Text.quote given ++
        " (choose from ".toList ++
        listed (CommandName.all.map fun name => Text.quote name.spelling) ++ [')']
  | missing operands =>
      "the following arguments are required: ".toList ++ listed operands
  | surplus arguments =>
      "unrecognized arguments: ".toList ++ [' '].intercalate arguments

end TextMode.CommandLine
