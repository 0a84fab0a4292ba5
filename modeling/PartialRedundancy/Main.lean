import PartialRedundancy.CommandLine.Run

/-!
# The program

Reads the files that the command line names, carries it out, and prints or saves the result.

## Main definitions

* `main` — the program.
-/

namespace PartialRedundancy

open CommandLine

/-- Whether a code stands for an error of the system; some codes are written as negative numbers. -/
def isCode (error code : UInt32) : Bool := code == error || code == 0 - error

/-- The reason that the system gives for a file that cannot be read. -/
def readFailure : IO.Error → ReadFailure
  | .noFileOrDirectory .. => .missing
  | .inappropriateType _ code _ => if isCode 20 code then .notDirectory else .directory
  | .invalidArgument name code details =>
    if isCode 36 code then .nameTooLong
    else .other (toString (IO.Error.invalidArgument name code details))
  | error => .other (toString error)

/-- The text of a file. -/
def readText (path : String) : IO (Except ReadFailure String) := do
  try
    match String.fromUTF8? (← IO.FS.readBinFile path) with
    | some text => return .ok text
    | none => return .error .notText
  catch error => return .error (readFailure error)

/-- The texts of the files that a command line names. -/
def readTexts (arguments : List String) : IO Files := do
  let paths :=
    match CommandLine.read arguments with
    | .ok a => a.input :: a.config.toList
    | .error _ => []
  let texts ← paths.mapM fun path => do return (path, ← readText path)
  return fun path => (texts.lookup path).getD (.error .missing)

/-- Shows how a run ends. -/
def finish (c : Completion) : IO UInt32 := do
  (← IO.getStdout).putStr c.stdout
  (← IO.getStderr).putStr c.stderr
  return c.code.toUInt32

/-- Carries out a command line. -/
def runProgram (arguments : List String) : IO UInt32 := do
  match respond (← readTexts arguments) arguments with
  | .print text => finish (.success text)
  | .refuse error => finish (.refusal error)
  | .fail error => finish (.failure error)
  | .save path text =>
    try
      IO.FS.writeFile path text
      finish (.success "")
    catch _ => finish (.failure (.unwritable path))

end PartialRedundancy

/-- The program. -/
def main (arguments : List String) : IO UInt32 := PartialRedundancy.runProgram arguments
