import PartialRedundancy.Json.Number
import PartialRedundancy.Json.Text
import PartialRedundancy.Text.Quoted

/-!
# Reading JSON of a known form

The parts of a JSON text that a reader of a record with named choices is made of. A reader takes
the text that is left, and gives back what it has read with the text after that.

## Main definitions

* `Json.mismatch` — the failure at a value that is not of the form expected.
* `Json.choice` — a value that is one of several names.
* `Json.finish` — the end of a text.
-/

namespace PartialRedundancy.Json

/-- A reader of values. -/
abbrev Reader (α : Type) := List Char → Except Failure (α × List Char)

/-! ## Values of another form -/

/-- Reads the characters of a word, one by one. -/
def word : (rest : List Char) → (s : List Char) → Except Failure (List Char)
  | [], s => .ok s
  | _ :: _, [] => failBefore (.ended .value) []
  | w :: ws, c :: s => if c = w then word ws s else failAt .expectedWord (c :: s)

/-- Reads the value that a text starts with as far as it takes to describe it. -/
def describe (s : List Char) : Except Failure (Found × List Char) :=
  match s with
  | 'n' :: rest => (word ['u', 'l', 'l'] rest).map fun left => (.null, left)
  | 't' :: rest => (word ['r', 'u', 'e'] rest).map fun left => (.boolean true, left)
  | 'f' :: rest => (word ['a', 'l', 's', 'e'] rest).map fun left => (.boolean false, left)
  | '"' :: rest => (string rest).map fun (text, left) => (.string (Text.quoted text), left)
  | '-' :: rest => number true rest
  | '[' :: _ => .ok (.sequence, s)
  | '\x7b' :: _ => .ok (.map, s)
  | _ => if startsWithDigit s then number false s else failAt .expectedValue s

/-- The failure at a value that is not of the form expected. -/
def mismatch {α : Type} (expected : String) (s : List Char) : Except Failure α :=
  match describe s with
  | .error e => .error e
  | .ok (found, rest) => failBefore (.invalidType found expected) rest

/-! ## Objects -/

/-- The colon after a key. -/
def colon (s : List Char) : Except Failure (List Char) :=
  match skipSpace s with
  | [] => failBefore (.ended .object) []
  | ':' :: rest => .ok rest
  | rest => failAt .expectedColon rest

/-- The failure for the key of a field. The space after the key, and a brace that closes the object
there, still count as read. -/
def keyFailure {α : Type} (problem : Problem) (s : List Char) : Except Failure α :=
  match skipSpace s with
  | '\x7d' :: rest => failBefore problem rest
  | rest => failBefore problem rest

/-! ## Names of choices -/

/-- The choice of a name that has been read. -/
def chosen {α : Type} (ofName? : String → Option α) (expected name : String) (rest : List Char) :
    Except Failure (α × List Char) :=
  match ofName? name with
  | some a => .ok (a, rest)
  | none => failBefore (.unknownVariant name expected) rest

/-- The null value that stands for a choice without content. -/
def unit (s : List Char) : Except Failure (List Char) :=
  match skipSpace s with
  | [] => failBefore (.ended .value) []
  | 'n' :: rest => word ['u', 'l', 'l'] rest
  | rest => mismatch "unit" rest

/-- A choice that is written as an object, whose opening brace has been read: one field with the
name and the null value. -/
def choiceObject {α : Type} (ofName? : String → Option α) (expected : String) : Reader α :=
  fun s =>
    match skipSpace s with
    | [] => failBefore (.ended .object) []
    | '"' :: rest => do
      let (name, rest) ← string rest
      let (a, rest) ← chosen ofName? expected name rest
      let rest ← unit (← colon rest)
      match skipSpace rest with
      | [] => failBefore (.ended .object) []
      | '\x7d' :: rest => return (a, rest)
      | rest => failBefore .expectedValue rest
    | '\x7d' :: rest => failAt .expectedValue ('\x7d' :: rest)
    | rest => failAt .keyMustBeString rest

/-- One of several choices, written as a string or as an object. -/
def choice {α : Type} (ofName? : String → Option α) (expected : String) : Reader α :=
  fun s =>
    match skipSpace s with
    | [] => failBefore (.ended .value) []
    | '"' :: rest => do
      let (name, rest) ← string rest
      chosen ofName? expected name rest
    | '\x7b' :: rest => choiceObject ofName? expected rest
    | rest => failAt .expectedValue rest

/-! ## The end -/

/-- The end of a text after its value. -/
def finish (s : List Char) : Except Failure Unit :=
  match skipSpace s with
  | [] => .ok ()
  | rest => failAt .trailingCharacters rest

/-- Reads a whole text. -/
def readAll {α : Type} (reader : Reader α) (text : String) : Except Error α :=
  let s := text.toList
  let result : Except Failure α := do
    let (a, rest) ← reader s
    finish rest
    return a
  result.mapError (Failure.locate s)

end PartialRedundancy.Json
