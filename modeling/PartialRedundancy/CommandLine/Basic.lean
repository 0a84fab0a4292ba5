import PartialRedundancy.Dataflow.Seeding
import PartialRedundancy.Text.ControlSequence

/-!
# Command lines

What can be asked for on the command line: the file that describes the graph, where the result
goes, in which form it is written and how the analyses are made.

## Main definitions

* `Format` — the forms of a result.
* `Setting` — the options that take a value, with their spelling.
* `Arguments` — a command line that asks for a result.
* `UsageError` — what can be wrong with a command line, with its wording: `UsageError.report` for a
  terminal, and `UsageError.message` elsewhere.
-/

namespace PartialRedundancy.CommandLine

/-- The form of a result. -/
inductive Format
  /-- A report as text. -/
  | text
  /-- A report as JSON. -/
  | json
  /-- A diagram. -/
  | dot
deriving DecidableEq, Repr

namespace Format

/-- The written form of a format. -/
def name : Format → String
  | text => "text"
  | json => "json"
  | dot => "dot"

/-- The format of a name. -/
def ofName? (given : String) : Option Format := [text, json, dot].find? fun f => f.name == given

/-- The wording of the failure to read a name. -/
def unknownMessage (given : String) : String := s!"unknown output format: {given}"

end Format

/-- An option that takes a value. -/
inductive Setting
  /-- Where the result goes. -/
  | outputFile
  /-- The form of the result. -/
  | format
  /-- Where the analyses start. -/
  | seeding
  /-- The file that holds the options of the session. -/
  | config
deriving DecidableEq, Repr

/-- The name of an option, as it stands after two dashes. -/
def Setting.name : Setting → String
  | outputFile => "output-file"
  | format => "format"
  | seeding => "seeding"
  | config => "config"

/-- An option with the place of its value, as a message shows it. -/
def Setting.usage : Setting → String
  | outputFile => "--output-file <OUTPUT_FILE>"
  | format => "--format <FORMAT>"
  | seeding => "--seeding <SEEDING>"
  | config => "--config <CONFIG>"

/-- An option of any kind. -/
inductive Switch
  /-- One that takes a value. -/
  | setting (setting : Setting)
  /-- The request to trace every update. -/
  | traceUpdates
  /-- The request for help. -/
  | help
  /-- The request for the version. -/
  | version
deriving DecidableEq, Repr

namespace Switch

/-- The name of an option, as it stands after two dashes. -/
def name : Switch → String
  | setting s => s.name
  | traceUpdates => "trace-updates"
  | help => "help"
  | version => "version"

/-- An option as a message shows it. -/
def usage : Switch → String
  | setting s => s.usage
  | traceUpdates => "--trace-updates"
  | help => "--help"
  | version => "--version"

/-- All options. -/
def all : List Switch :=
  [setting .outputFile, setting .format, setting .seeding, setting .config, traceUpdates, help,
    version]

/-- The option with a name; names are not shortened. -/
def ofName? (given : String) : Option Switch := all.find? fun s => s.name == given

/-- The option with a letter, as it stands after one dash. -/
def ofLetter? : Char → Option Switch
  | 'o' => some (setting .outputFile)
  | 'h' => some help
  | 'V' => some version
  | _ => none

end Switch

/-- What a command line asks for. -/
structure Arguments where
  /-- The file that describes the graph. -/
  input : String
  /-- Where the result goes, if not to the standard output. -/
  output : Option String := none
  /-- The form of the result. -/
  format : Format := .text
  /-- Where the analyses start, whatever the file of options says. -/
  seeding : Option Seeding := none
  /-- The file that holds the options of the session. -/
  config : Option String := none
  /-- Whether every update is traced; a trace only shows where a log is kept. -/
  traceUpdates : Bool := false
deriving DecidableEq, Repr

/-- What can be wrong with a command line. -/
inductive UsageError
  /-- No file describes the graph. -/
  | missingInput
  /-- There is one argument too many, or no option of this name. -/
  | unexpectedArgument (argument : String)
  /-- An option without a value has been given one. -/
  | unexpectedValue (value : String) (switch : Switch)
  /-- An option has a value that it cannot have. -/
  | invalidValue (value : String) (setting : Setting) (reason : String)
  /-- An option lacks its value. -/
  | missingValue (setting : Setting)
  /-- An option is there twice. -/
  | repeated (switch : Switch)
deriving DecidableEq, Repr

namespace UsageError

open Text (emphasized)

/-- What is wrong, for a terminal: arguments and options are emphasized, reasons are not. -/
def describe : UsageError → String
  | missingInput => "the following required arguments were not provided:"
  | unexpectedArgument argument => s!"unexpected argument '{emphasized argument}' found"
  | unexpectedValue value switch =>
    s!"unexpected value '{emphasized value}' for '{emphasized switch.usage}' found; " ++
    "no more were expected"
  | invalidValue value setting reason =>
    s!"invalid value '{emphasized value}' for '{emphasized setting.usage}': {reason}"
  | missingValue setting =>
    s!"a value is required for '{emphasized setting.usage}' but none was supplied"
  | repeated switch => s!"the argument '{emphasized switch.usage}' cannot be used multiple times"

/-- The report on an error, for a terminal. -/
def report (e : UsageError) : String :=
  emphasized "error:" ++ " " ++ e.describe ++ "\n\nFor more information, try '" ++
    emphasized Switch.help.usage ++ "'.\n"

/-- The first line of the report, for other places than terminals. What an argument holds of
control sequences is left out like those of the report itself. -/
def message (e : UsageError) : String :=
  String.ofList ((Text.plain e.report).toList.takeWhile (· != '\n'))

end UsageError

end PartialRedundancy.CommandLine
