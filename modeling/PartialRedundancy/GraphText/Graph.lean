import PartialRedundancy.GraphText.SyntaxError
import PartialRedundancy.Graph.Declaration

/-!
# The graph of a description

A document becomes a flow graph statement by statement, in the order in which it is written. The
count is read first; an edge reads both of its numbers before it is declared, and a list reads
and declares its numbers one at a time.

## Main definitions

* `GraphTextError` — what can be wrong with a text, with its wording `GraphTextError.message`.
* `Numeral.toNat` — the number that a numeral denotes, if it is small enough to be a node.
* `Document.graph` — the flow graph of a document.
* `FlowGraph.ofText` — the flow graph that a text describes.
-/

namespace PartialRedundancy

namespace GraphText

/-- What can be wrong with the text of a graph description. -/
inductive GraphTextError
  /-- The text is no description. -/
  | rejected (error : SyntaxError)
  /-- A number is too large to be that of a node. -/
  | number (digits : List Char)
  /-- The description is of no graph. -/
  | graph (error : GraphError)
deriving DecidableEq, Repr

/-- The wording of an error in a text. -/
def GraphTextError.message : GraphTextError → String
  | rejected error => error.message
  | number digits => s!"not a node id: {String.ofList digits}"
  | graph error => error.message

/-- Numbers below this bound can be written in a description. -/
def numeralBound : Nat := Nat.pow 2 64

/-- The number that a numeral denotes. -/
def Numeral.toNat (n : Numeral) : Except GraphTextError Nat :=
  if n.value < numeralBound then .ok n.value else .error (.number n.digits)

/-- Adds a declaration to a graph. -/
def declare (g : FlowGraph) (d : Declaration) : Except GraphTextError FlowGraph :=
  (g.declare d).mapError .graph

/-- Reads and adds one number of a list. -/
def declareNode (make : Nat → Declaration) (g : FlowGraph) (n : Numeral) :
    Except GraphTextError FlowGraph := do
  declare g (make (← n.toNat))

/-- Adds what a statement says to a graph. -/
def Statement.declare (g : FlowGraph) : Statement → Except GraphTextError FlowGraph
  | .edge source target => do
    let u ← source.toNat
    let v ← target.toNat
    GraphText.declare g (.edge u v)
  | .used first more => (first :: more).foldlM (declareNode .used) g
  | .killed first more => (first :: more).foldlM (declareNode .killed) g

/-- The flow graph of a document, or the first error in it. -/
def Document.graph [Memory] (d : Document) : Except GraphTextError FlowGraph := do
  let count ← d.count.toNat
  let g ← (FlowGraph.ofRealCount count).mapError .graph
  d.statements.foldlM Statement.declare g

end GraphText

open GraphText in
/-- The flow graph that a text describes. A text that is no description is rejected before any of
its numbers is looked at. -/
def FlowGraph.ofText [Memory] (text : String) : Except GraphTextError FlowGraph :=
  match read text.toList with
  | .error r => .error (.rejected (r.locate text.toList))
  | .ok document => document.graph

end PartialRedundancy
