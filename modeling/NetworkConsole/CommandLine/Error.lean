import NetworkConsole.Text.Lines
import NetworkConsole.Text.Style
import NetworkConsole.Text.Terminal

/-!
# Refused command lines

The causes for which a command line is refused. A request for help ends the reading too.
-/

namespace NetworkConsole.CommandLine

/-- Why a value is refused. -/
inductive ValueError
  /-- The value is not one of the listed values. -/
  | unlisted
  /-- The value is malformed, for a reason in words. -/
  | malformed (reason : String)
  deriving DecidableEq, Repr

/-- Why a command line is refused. -/
inductive UsageError
  /-- Help was asked for. -/
  | help
  /-- Nothing at all was given. -/
  | nothingGiven
  /-- There are options but no command. -/
  | noCommand
  /-- A word stands where a command is expected. -/
  | unknownCommand
  /-- An option is not known, or a word is one too many. -/
  | unknownArgument
  /-- An option is given twice. -/
  | repeated
  /-- A value is attached to an option that takes none. -/
  | unexpectedValue
  /-- An option has no value. -/
  | noValue
  /-- The value of an option is not one of the listed values. -/
  | unlistedValue
  /-- The value of an option is malformed. -/
  | malformedValue (option : String) (value : String) (reason : String)
  deriving DecidableEq, Repr

/-- How help texts name the value of an option. -/
def placeholder (option : String) : String :=
  String.ofList (option.toList.map fun letter => if letter = '-' then '_' else letter.toUpper)

/-- The styled wording of a malformed value. -/
def malformedText (option value reason : String) : String :=
  Text.paint true .red "error:" ++ " invalid value '" ++ Text.paint true .yellow value ++
    "' for '" ++ Text.paint true .bold ("--" ++ option ++ " <" ++ placeholder option ++ ">") ++
    "': " ++ reason

/-- The styled wording of a refusal. -/
def UsageError.wording : UsageError → String
  | .help => "help requested"
  | .nothingGiven | .noCommand => "error: a command is required"
  | .unknownCommand => "error: unrecognized command"
  | .unknownArgument => "error: unexpected argument"
  | .repeated => "error: an option cannot be used multiple times"
  | .unexpectedValue => "error: unexpected value for an option that takes none"
  | .noValue => "error: a value is required"
  | .unlistedValue => "error: a value is not one of the possible values"
  | .malformedValue option value reason => malformedText option value reason

/-- The styled hint that follows the wording of a refusal. -/
def helpHint : String :=
  "\n\nFor more information, try '" ++ Text.paint true .bold "--help" ++ "'.\n"

/-- The report of a refusal as it is seen. A value that holds control characters may hide
what follows it, the hint included. -/
def UsageError.report (error : UsageError) : String := Text.shown (error.wording ++ helpHint)

/-- The first line of the report. -/
def UsageError.message (error : UsageError) : String :=
  String.ofList ((Text.lines error.report.toList).headD [])

end NetworkConsole.CommandLine
