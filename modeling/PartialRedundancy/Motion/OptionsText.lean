import PartialRedundancy.Json.Reader
import PartialRedundancy.Motion.Options

/-!
# Written options

The options of a session as a JSON text: an object with the field `seeding`, or an array with the
seeding as its only element. The seeding may be left out of either. No other field is known, and
none may be there twice.

## Main definitions

* `SessionOptions.ofJson` — the options of a text.
-/

namespace PartialRedundancy

namespace OptionsText

open Json

/-- The name of the only field. -/
def fieldName : String := "seeding"

/-- The names of the choices, as a failure lists them. -/
def seedingNames : String := "`eager` or `reachable-only`"

/-- Reads a seeding. -/
def seeding : Reader Seeding := choice Seeding.ofName? seedingNames

/-- Reads the key of a field, whose opening quotation mark has been read; `seen` says whether the
field has been there before. -/
def key (seen : Bool) (s : List Char) : Except Failure (List Char) := do
  let (name, rest) ← string s
  if name ≠ fieldName then keyFailure (.unknownField name s!"`{fieldName}`") rest
  else if seen then keyFailure (.duplicateField name) rest
  else return rest

/-- Reads the end of an object after its field. A further field can only be unknown, or there for
the second time. -/
def closeObject (s : List Char) : Except Failure (List Char) :=
  match skipSpace s with
  | [] => failBefore (.ended .object) []
  | '\x7d' :: rest => .ok rest
  | ',' :: rest =>
    match skipSpace rest with
    | [] => failBefore (.ended .value) []
    | '"' :: rest => key true rest
    | '\x7d' :: rest => failAt .trailingComma ('\x7d' :: rest)
    | rest => failAt .keyMustBeString rest
  | rest => failAt .expectedCommaOrBrace rest

/-- Reads the fields of an object, whose opening brace has been read. -/
def object : Reader SessionOptions := fun s =>
  match skipSpace s with
  | [] => failBefore (.ended .object) []
  | '\x7d' :: rest => .ok ({}, rest)
  | '"' :: rest => do
    let rest ← colon (← key false rest)
    let (seeding, rest) ← seeding rest
    return ({ seeding := seeding }, ← closeObject rest)
  | rest => failAt .keyMustBeString rest

/-- Reads the end of an array after its element. -/
def closeArray (s : List Char) : Except Failure (List Char) :=
  match skipSpace s with
  | [] => failBefore (.ended .list) []
  | ']' :: rest => .ok rest
  | ',' :: rest =>
    match skipSpace rest with
    | ']' :: rest => failAt .trailingComma (']' :: rest)
    | rest => failAt .trailingCharacters rest
  | rest => failAt .trailingCharacters rest

/-- Reads the elements of an array, whose opening bracket has been read. -/
def array : Reader SessionOptions := fun s =>
  match skipSpace s with
  | [] => failBefore (.ended .list) []
  | ']' :: rest => .ok ({}, rest)
  | rest => do
    let (seeding, rest) ← seeding rest
    return ({ seeding := seeding }, ← closeArray rest)

/-- Reads options. -/
def options : Reader SessionOptions := fun s =>
  match skipSpace s with
  | [] => failBefore (.ended .value) []
  | '[' :: rest => array rest
  | '\x7b' :: rest => object rest
  | rest => mismatch "struct SolverOptions" rest

end OptionsText

/-- The options of a JSON text. -/
def SessionOptions.ofJson (text : String) : Except Json.Error SessionOptions :=
  Json.readAll OptionsText.options text

end PartialRedundancy
