import PartialRedundancy.CommandLine.Basic

/-!
# Reading command lines

Arguments are read from left to right. An option may follow two dashes with its name, or one dash
with its letter; its value may be joined to it, or be the next argument that is no option itself.
After two dashes alone, nothing is an option any more.

The value of an option that is not joined to it is only looked at when the option is *settled*:
when the next option or the first operand is recognised, or at the end. So of two faults in a
command line the one that is recognised first wins, which need not be the one further left.

## Main definitions

* `Partial` — what has been read so far.
* `Partial.settle` — settles the option that was read last.
* `read` — what a command line asks for.
-/

namespace PartialRedundancy.CommandLine

/-- Why reading stops before the end of a command line. -/
inductive Stop
  /-- The command line is in error. -/
  | usage (error : UsageError)
  /-- It asks for help. -/
  | help
  /-- It asks for the version. -/
  | version
deriving DecidableEq, Repr

/-- What has been read of a command line. -/
structure Partial where
  /-- The file that describes the graph. -/
  input : Option String := none
  /-- Where the result goes. -/
  output : Option String := none
  /-- The form of the result. -/
  format : Option Format := none
  /-- Where the analyses start. -/
  seeding : Option Seeding := none
  /-- The file of options. -/
  config : Option String := none
  /-- Whether every update is traced. -/
  traceUpdates : Bool := false
  /-- The option that is not settled, with its value if that has been read. -/
  pending : Option (Setting × Option String) := none
deriving DecidableEq, Repr

namespace Partial

/-- Whether an option has been settled before. -/
def has (p : Partial) : Setting → Bool
  | .outputFile => p.output.isSome
  | .format => p.format.isSome
  | .seeding => p.seeding.isSome
  | .config => p.config.isSome

/-- Gives an option its value. An option that is there twice is reported before a value that it
cannot have. -/
def set (p : Partial) (setting : Setting) (value : String) : Except Stop Partial :=
  if p.has setting then .error (.usage (.repeated (.setting setting)))
  else
    let invalid (reason : String) : Except Stop Partial :=
      .error (.usage (.invalidValue value setting reason))
    match setting with
    | .outputFile => .ok { p with output := some value }
    | .config => .ok { p with config := some value }
    | .format =>
      match Format.ofName? value with
      | some f => .ok { p with format := some f }
      | none => invalid (Format.unknownMessage value)
    | .seeding =>
      match Seeding.ofName? value with
      | some s => .ok { p with seeding := some s }
      | none => invalid (Seeding.unknownMessage value)

/-- Settles the option that was read last, if it is not settled yet. -/
def settle (p : Partial) : Except Stop Partial :=
  match p.pending with
  | none => .ok p
  | some (setting, none) => .error (.usage (.missingValue setting))
  | some (setting, some value) => { p with pending := none }.set setting value

/-- An operand: the file that describes the graph, of which there is one. -/
def operand (p : Partial) (argument : String) : Except Stop Partial :=
  match p.input with
  | some _ => .error (.usage (.unexpectedArgument argument))
  | none => do return { ← p.settle with input := some argument }

/-- An option, with the value that is joined to it. -/
def switch (p : Partial) (s : Switch) (value : Option String) : Except Stop Partial :=
  match s, value with
  | .setting setting, some value => do (← p.settle).set setting value
  | .setting setting, none => do return { ← p.settle with pending := some (setting, none) }
  | s, some value => .error (.usage (.unexpectedValue value s))
  | .traceUpdates, none => do
    let p ← p.settle
    if p.traceUpdates then .error (.usage (.repeated .traceUpdates))
    else return { p with traceUpdates := true }
  | .help, none => do
    let _ ← p.settle
    .error .help
  | .version, none => do
    let _ ← p.settle
    .error .version

/-- An option with its name; a value may be joined to it by an equals sign. -/
def long (p : Partial) (text : List Char) : Except Stop Partial :=
  let name := String.ofList (text.takeWhile (· != '='))
  let value :=
    match text.dropWhile (· != '=') with
    | [] => none
    | _ :: value => some (String.ofList value)
  match Switch.ofName? name with
  | some s => p.switch s value
  | none => .error (.usage (.unexpectedArgument s!"--{name}"))

/-- Options with their letters. The first that takes a value takes all that is left, without an
equals sign at its start. -/
def short (p : Partial) : List Char → Except Stop Partial
  | [] => .ok p
  | letter :: rest =>
    match Switch.ofLetter? letter, rest with
    | none, _ => .error (.usage (.unexpectedArgument s!"-{letter}"))
    | some (.setting setting), [] => p.switch (.setting setting) none
    | some (.setting setting), '=' :: value =>
      p.switch (.setting setting) (some (String.ofList value))
    | some (.setting setting), value => p.switch (.setting setting) (some (String.ofList value))
    | some s, _ => do short (← p.switch s none) rest

/-- An argument that starts with no dash, or is a dash alone: a value or an operand. -/
def plain (p : Partial) (argument : String) : Except Stop Partial :=
  match p.pending with
  | some (setting, none) => .ok { p with pending := some (setting, some argument) }
  | _ => p.operand argument

/-- Reads the arguments that are left. -/
def arguments (p : Partial) : List String → Except Stop Partial
  | [] => p.settle
  | argument :: rest =>
    match argument.toList with
    | ['-', '-'] => do (← rest.foldlM operand p).settle
    | '-' :: '-' :: text => do arguments (← p.long text) rest
    | '-' :: letter :: letters => do arguments (← p.short (letter :: letters)) rest
    | _ => do arguments (← p.plain argument) rest

end Partial

/-- What a command line asks for. -/
def read (arguments : List String) : Except Stop Arguments := do
  let p ← Partial.arguments {} arguments
  match p.input with
  | none => .error (.usage .missingInput)
  | some input =>
    return {
      input := input
      output := p.output
      format := p.format.getD .text
      seeding := p.seeding
      config := p.config
      traceUpdates := p.traceUpdates }

end PartialRedundancy.CommandLine
