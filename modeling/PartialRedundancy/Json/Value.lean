/-!
# JSON values

JSON values that are made of names, numbers, lists and records, and their indented text. Names are
words of this library; they hold no quotation marks, no backslashes and no control characters, and
so they are written as they are.

## Main definitions

* `Json.Value` — the values.
* `Json.Value.pretty` — the indented text: one element or field a line, two spaces deeper than the
  brackets around it, and nothing between the brackets of an empty list or record.
-/

namespace PartialRedundancy.Json

/-- A JSON value. -/
inductive Value
  /-- A string that needs no escapes. -/
  | name (text : String)
  /-- A natural number. -/
  | number (n : Nat)
  /-- An array. -/
  | list (items : List Value)
  /-- An object, with its fields in order. -/
  | record (fields : List (String × Value))

/-- The start of a line at some depth. -/
def indentation (depth : Nat) : String := String.ofList (List.replicate (2 * depth) ' ')

/-- A text between quotation marks. -/
def quoted (text : String) : String := "\"" ++ text ++ "\""

/-- Lines between brackets; the lines stand one level deeper than the closing bracket. -/
def bracketed (opening closing : String) (depth : Nat) : List String → String
  | [] => opening ++ closing
  | lines =>
    opening ++ "\n" ++
      ",\n".intercalate (lines.map fun line => indentation (depth + 1) ++ line) ++
      "\n" ++ indentation depth ++ closing

namespace Value

mutual

/-- The text of a value whose first line starts at some depth. -/
def pretty (depth : Nat) : Value → String
  | name text => quoted text
  | number n => toString n
  | list items => bracketed "[" "]" depth (prettyItems (depth + 1) items)
  | record fields => bracketed "\x7b" "\x7d" depth (prettyFields (depth + 1) fields)

/-- The texts of the elements of a list. -/
def prettyItems (depth : Nat) : List Value → List String
  | [] => []
  | v :: rest => pretty depth v :: prettyItems depth rest

/-- The texts of the fields of a record. -/
def prettyFields (depth : Nat) : List (String × Value) → List String
  | [] => []
  | (key, v) :: rest => (quoted key ++ ": " ++ pretty depth v) :: prettyFields depth rest

end

/-- The listing of a sequence of numbers. -/
def numbers (ns : List Nat) : Value := list (ns.map number)

end Value

end PartialRedundancy.Json
