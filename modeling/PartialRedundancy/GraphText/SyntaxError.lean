import PartialRedundancy.GraphText.Reader

/-!
# Rejected graph descriptions

The report on a text that is no graph description: where reading stopped, as an offset and as a
line and a column, and a picture of the line with a mark under that place.

## Main definitions

* `SyntaxError` — the text before and after the failure, and what was expected there.
* `SyntaxError.offset`, `SyntaxError.line`, `SyntaxError.column` — the place.
* `SyntaxError.message` — the report.
-/

namespace PartialRedundancy.GraphText

/-- The name of what could have stood at a failure. -/
def Expected.describe : Expected → String
  | .nodes => "nodes"
  | .number => "number"
  | .ending => "EOI"
  | .endingOrNumber => "EOI or number"
  | .endingOrStatement => "EOI, edge, used, or killed"

/-- A text that is no description, cut in two where reading failed. -/
structure SyntaxError where
  /-- The text before the failure. -/
  before : List Char
  /-- The text from the failure on. -/
  after : List Char
  /-- What was expected there. -/
  expected : Expected
deriving DecidableEq, Repr

/-- The report on a rejected text. -/
def Rejection.locate (text : List Char) (r : Rejection) : SyntaxError where
  before := text.take (text.length - r.rest.length)
  after := r.rest
  expected := r.expected

namespace SyntaxError

/-- The number of bytes before the failure. -/
def offset (e : SyntaxError) : Nat :=
  e.before.foldr (fun c bytes => c.utf8Size + bytes) 0

/-- The part of the failing line that stands before the failure. -/
def lineBefore (e : SyntaxError) : List Char :=
  (e.before.reverse.takeWhile (· != '\n')).reverse

/-- The part of the failing line from the failure on, with its line feed. -/
def lineAfter (e : SyntaxError) : List Char :=
  e.after.takeWhile (· != '\n') ++ (e.after.dropWhile (· != '\n')).take 1

/-- The number of the failing line: line feeds end lines, and the first line is number 1. -/
def line (e : SyntaxError) : Nat := e.before.count '\n' + 1

/-- The place of the failure on its line, in characters; a carriage return is one. -/
def column (e : SyntaxError) : Nat := e.lineBefore.length + 1

/-- A line end as a visible character. -/
def visible (c : Char) : Char :=
  if c = '\r' then '␍' else if c = '\n' then '␊' else c

/-- The failing line as it is shown: without its line ends, unless the failure is at one. -/
def shownLine (e : SyntaxError) : List Char :=
  let whole := e.lineBefore ++ e.lineAfter
  match e.after with
  | [] => whole.filter fun c => !isLineEnd c
  | c :: _ => if isLineEnd c then whole.map visible else whole.filter fun d => !isLineEnd d

/-- The space that puts the mark under the failure: tabs stay tabs. -/
def padding (e : SyntaxError) : List Char :=
  (e.shownLine.take (e.column - 1)).map fun c => if c = '\t' then '\t' else ' '

/-- The report: the place, the line with a mark below it, and what was expected. -/
def message (e : SyntaxError) : String :=
  let number := toString e.line
  let margin := String.ofList (List.replicate number.length ' ')
  s!"{margin}--> {number}:{e.column}\n" ++
  s!"{margin} |\n" ++
  s!"{number} | {String.ofList e.shownLine}\n" ++
  s!"{margin} | {String.ofList e.padding}^---\n" ++
  s!"{margin} |\n" ++
  s!"{margin} = expected {e.expected.describe}"

end SyntaxError

end PartialRedundancy.GraphText
