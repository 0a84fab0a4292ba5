/-!
# Failures of reading JSON

What can be wrong with a JSON text, or with a value that is not of the form asked for, and where.
A place is told by the line and by the number of bytes of that line up to and with the offending
one.

## Main definitions

* `Json.Problem` — what is wrong, with its `Json.Problem.category` and its wording.
* `Json.Failure` — a problem with the text that was left.
* `Json.Error` — a problem with its line and column.
-/

namespace PartialRedundancy.Json

/-- What a value is, where a value of another form was expected. -/
inductive Found
  /-- The null value. -/
  | null
  /-- A boolean. -/
  | boolean (value : Bool)
  /-- A number without point and exponent that fits in 64 bits. -/
  | integer (value : Int)
  /-- Any other number, as it is written in the fewest digits. -/
  | floating (text : String)
  /-- A string, as it is quoted. -/
  | string (quoted : String)
  /-- An array. -/
  | sequence
  /-- An object. -/
  | map
deriving DecidableEq, Repr

/-- The description of a value of the wrong form. -/
def Found.describe : Found → String
  | null => "null"
  | boolean value => s!"boolean `{value}`"
  | integer value => s!"integer `{value}`"
  | floating text => s!"floating point `{text}`"
  | string quoted => s!"string {quoted}"
  | sequence => "sequence"
  | map => "map"

/-- What is being read when the text ends. -/
inductive Unfinished
  /-- Any value. -/
  | value
  /-- An object. -/
  | object
  /-- An array. -/
  | list
  /-- A string. -/
  | string
deriving DecidableEq, Repr

/-- The name of what is being read. -/
def Unfinished.describe : Unfinished → String
  | value => "a value"
  | object => "an object"
  | list => "a list"
  | string => "a string"

/-- What can be wrong with a JSON text. -/
inductive Problem
  /-- The text ends too early. -/
  | ended (inside : Unfinished)
  /-- Something else stands in the place of a value. -/
  | expectedValue
  /-- A word that starts like `null`, `true` or `false` goes on differently. -/
  | expectedWord
  /-- Something else stands in the place of the colon after a key. -/
  | expectedColon
  /-- Something else stands between two fields of an object. -/
  | expectedCommaOrBrace
  /-- Something else stands in the place of a key. -/
  | keyMustBeString
  /-- A comma is followed by the closing bracket. -/
  | trailingComma
  /-- Something follows where all is read. -/
  | trailingCharacters
  /-- A number is not well formed. -/
  | invalidNumber
  /-- A number is too large. -/
  | numberOutOfRange
  /-- A backslash is not followed by an escape. -/
  | invalidEscape
  /-- The first half of a pair of escapes stands alone. -/
  | unexpectedEndOfEscape
  /-- The halves of a pair of escapes do not fit. -/
  | loneSurrogate
  /-- A control character stands in a string. -/
  | controlCharacter
  /-- An object has a field that is not known. -/
  | unknownField (name expected : String)
  /-- An object has a field twice. -/
  | duplicateField (name : String)
  /-- A name is none of those that can be chosen. -/
  | unknownVariant (name expected : String)
  /-- A value has another form than the one expected. -/
  | invalidType (found : Found) (expected : String)
deriving DecidableEq, Repr

/-- The kinds of problems. -/
inductive Category
  /-- The text ends too early. -/
  | ending
  /-- The text is no JSON. -/
  | form
  /-- The value is not of the form asked for. -/
  | content
deriving DecidableEq, Repr

/-- The name of a kind of problems. -/
def Category.name : Category → String
  | ending => "Eof"
  | form => "Syntax"
  | content => "Data"

/-- The kind of a problem. -/
def Problem.category : Problem → Category
  | ended _ => .ending
  | unknownField .. | duplicateField _ | unknownVariant .. | invalidType .. => .content
  | _ => .form

/-- The wording of a problem. -/
def Problem.describe : Problem → String
  | ended inside => s!"EOF while parsing {inside.describe}"
  | expectedValue => "expected value"
  | expectedWord => "expected ident"
  | expectedColon => "expected `:`"
  | expectedCommaOrBrace => "expected `,` or `\x7d`"
  | keyMustBeString => "key must be a string"
  | trailingComma => "trailing comma"
  | trailingCharacters => "trailing characters"
  | invalidNumber => "invalid number"
  | numberOutOfRange => "number out of range"
  | invalidEscape => "invalid escape"
  | unexpectedEndOfEscape => "unexpected end of hex escape"
  | loneSurrogate => "lone leading surrogate in hex escape"
  | controlCharacter => "control character (\\u0000-\\u001F) found while parsing a string"
  | unknownField name expected => s!"unknown field `{name}`, expected {expected}"
  | duplicateField name => s!"duplicate field `{name}`"
  | unknownVariant name expected => s!"unknown variant `{name}`, expected {expected}"
  | invalidType found expected => s!"invalid type: {found.describe}, expected {expected}"

/-- The number of bytes of a text. -/
def byteCount (s : List Char) : Nat := s.foldr (fun c bytes => c.utf8Size + bytes) 0

/-- A problem, with the text that was left and the number of bytes read of its first character. -/
structure Failure where
  /-- What is wrong. -/
  problem : Problem
  /-- The text that was left. -/
  rest : List Char
  /-- The bytes read of the first character of it. -/
  into : Nat
deriving DecidableEq, Repr

/-- The text after some bytes, and how many of them reach into its first character. -/
def dropBytes : Nat → List Char → List Char × Nat
  | _, [] => ([], 0)
  | count, c :: rest =>
    if c.utf8Size ≤ count then dropBytes (count - c.utf8Size) rest else (c :: rest, count)

/-- The failure that leaves a text. -/
def failBefore {α : Type} (problem : Problem) (rest : List Char) : Except Failure α :=
  .error ⟨problem, rest, 0⟩

/-- The failure some bytes into a text. -/
def failAfter {α : Type} (problem : Problem) (count : Nat) (s : List Char) :
    Except Failure α :=
  let (rest, into) := dropBytes count s
  .error ⟨problem, rest, into⟩

/-- The failure at the first byte of a text, which counts as read. -/
def failAt {α : Type} (problem : Problem) (s : List Char) : Except Failure α :=
  failAfter problem 1 s

/-- A problem with its place. -/
structure Error where
  /-- What is wrong. -/
  problem : Problem
  /-- The number of the line. -/
  line : Nat
  /-- The number of bytes of the line that were read. -/
  column : Nat
deriving DecidableEq, Repr

/-- The place of a failure in a text. -/
def Failure.locate (text : List Char) (f : Failure) : Error :=
  let done := text.take (text.length - f.rest.length)
  { problem := f.problem
    line := done.count '\n' + 1
    column := byteCount (done.reverse.takeWhile (· != '\n')) + f.into }

/-- The wording of an error. -/
def Error.message (e : Error) : String :=
  s!"{e.problem.describe} at line {e.line} column {e.column}"

end PartialRedundancy.Json
