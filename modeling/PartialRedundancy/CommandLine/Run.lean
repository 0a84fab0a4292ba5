import PartialRedundancy.CommandLine.Reader
import PartialRedundancy.GraphText.Graph
import PartialRedundancy.Motion.OptionsText
import PartialRedundancy.Report.Diagram
import PartialRedundancy.Report.Json
import PartialRedundancy.Report.Text

/-!
# Carrying out command lines

From a command line and the texts of the files that it names to what is printed or saved. Of
several faults the first in this order is reported: the command line, the file of options, the
description of the graph.

## Main definitions

* `RunError` — what can go wrong once the command line is read, with its wording.
* `result` — the text that a command line asks for.
* `Response`, `respond` — what a command line leads to.
* `Completion` — what a run of the program shows.
* `machine` — the memory of the machine that the program runs on.
-/

namespace PartialRedundancy.CommandLine

/-- Why a file has no text. -/
inductive ReadFailure
  /-- There is no such file. -/
  | missing
  /-- It is a directory. -/
  | directory
  /-- A file stands on the way to it. -/
  | notDirectory
  /-- The path, or a name in it, is too long. -/
  | nameTooLong
  /-- Its bytes are no text. -/
  | notText
  /-- The system gives some other reason. -/
  | other (reason : String)
deriving DecidableEq, Repr

/-- The wording of a reason why a file has no text. -/
def ReadFailure.message : ReadFailure → String
  | missing => "No such file or directory (os error 2)"
  | directory => "Is a directory (os error 21)"
  | notDirectory => "Not a directory (os error 20)"
  | nameTooLong => "File name too long (os error 36)"
  | notText => "stream did not contain valid UTF-8"
  | other reason => reason

/-- What can go wrong once a command line is read. -/
inductive RunError
  /-- A file has no text. -/
  | unreadable (path : String) (reason : ReadFailure)
  /-- A text holds no options. -/
  | badOptions (path : String) (error : Json.Error)
  /-- A text describes no graph. -/
  | badGraph (path : String) (error : GraphText.GraphTextError)
  /-- The analyses cannot be made. -/
  | session (error : SessionError)
  /-- The result cannot be saved. -/
  | unwritable (path : String)
deriving DecidableEq, Repr

/-- The wording of an error. -/
def RunError.message : RunError → String
  | unreadable path reason => s!"Could not read {path}: {reason.message}"
  | badOptions path error => s!"Invalid configuration in {path}: {error.message}"
  | badGraph path error => s!"Could not parse {path}: {error.message}"
  | session error => error.message
  | unwritable path => s!"Failed to write the result to the output file: {path}"

/-- The texts of files. -/
abbrev Files := String → Except ReadFailure String

/-- The text of a file. -/
def textOf (files : Files) (path : String) : Except RunError String :=
  (files path).mapError (.unreadable path)

/-- The options of the session: those of the file of options, with the seeding of the command
line if it names one. -/
def sessionOptions (files : Files) (a : Arguments) : Except RunError SessionOptions := do
  let options ←
    match a.config with
    | none => pure {}
    | some path => (SessionOptions.ofJson (← textOf files path)).mapError (.badOptions path)
  return { options with seeding := a.seeding.getD options.seeding }

/-- A finished session in some form. -/
def Format.render (f : Format) (s : Session) : Except SessionError String :=
  match f with
  | text => do return (← s.report).text
  | json => do return (← s.report).json
  | dot => do Session.compute (Diagram.render s.graph (some (← s.placement)))

/-- The text that a command line asks for. -/
def result [Memory] (files : Files) (a : Arguments) : Except RunError String := do
  let options ← sessionOptions files a
  let text ← textOf files a.input
  let graph ← (FlowGraph.ofText text).mapError (.badGraph a.input)
  let rendered : Except SessionError String := do
    let (session, _) ← (Session.new graph options).runAll
    a.format.render session
  rendered.mapError .session

/-- What a command line leads to. -/
inductive Response
  /-- A text is printed. -/
  | print (text : String)
  /-- A text is saved. -/
  | save (path text : String)
  /-- The command line is in error. -/
  | refuse (error : UsageError)
  /-- Something goes wrong later. -/
  | fail (error : RunError)
deriving DecidableEq, Repr

/-- The name of the program, with its version. -/
def versionText : String := "code_motion 0.1.0\n"

/-- What the program can be asked for. -/
def helpText : String := "\n".intercalate [
  "Usage: lcm [OPTIONS] <INPUT_FILE>",
  "",
  "Arguments:",
  "  <INPUT_FILE>  ",
  "",
  "Options:",
  "  -o, --output-file <OUTPUT_FILE>  Where to write the result; standard output when missing",
  "      --format <FORMAT>            [default: text]",
  "      --seeding <SEEDING>          Overrides the seeding read from `--config`",
  "      --config <CONFIG>            JSON file with solver options",
  "      --trace-updates              Emit every value flip as a trace event",
  "  -h, --help                       Print help",
  "  -V, --version                    Print version",
  ""]

/-- What a command line leads to, given the texts of files. -/
def respond [Memory] (files : Files) (arguments : List String) : Response :=
  match read arguments with
  | .error .help => .print helpText
  | .error .version => .print versionText
  | .error (.usage error) => .refuse error
  | .ok a =>
    match result files a with
    | .error error => .fail error
    | .ok text =>
      match a.output with
      | none => .print text
      | some path => .save path text

/-- What a run of the program shows. -/
structure Completion where
  /-- The exit code. -/
  code : Nat
  /-- What is printed. -/
  stdout : String
  /-- What is printed about errors. -/
  stderr : String
deriving DecidableEq, Repr

namespace Completion

/-- The end of a run that prints a text. -/
def success (text : String) : Completion := ⟨0, text, ""⟩

/-- The end of a run in which something went wrong. -/
def failure (error : RunError) : Completion := ⟨1, "", error.message ++ "\n"⟩

/-- The end of a run with a command line in error. -/
def refusal (error : UsageError) : Completion := ⟨2, "", error.message⟩

end Completion

/-- The bytes that a node takes up in the tables of its graph: two sets of three words each, and two
marks. -/
def nodeBytes : Nat := 50

/-- The bytes that can be addressed. -/
def addressBound : Nat := Nat.pow 2 47

/-- The memory of the machine that the program runs on. -/
instance machine : Memory := .upTo (addressBound / nodeBytes)

end PartialRedundancy.CommandLine
