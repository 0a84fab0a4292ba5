import PartialRedundancy.Graph.Basic

/-!
# Declaring a flow graph

A flow graph is described by the number of its real nodes and a sequence of declarations, each
of which names its nodes by number. Every number is checked when its declaration is made, and
a declaration that fails leaves the graph as it was.

## Main definitions

* `Declaration` — an edge, or an attribute of a node.
* `GraphError` — what can be wrong with a description, with its wording `GraphError.message`.
* `Memory` — for which graphs there is space.
* `FlowGraph.ofRealCount` — the graph before any declaration.
* `FlowGraph.declare`, `FlowGraph.attempt` — one declaration; a failure is an error, or ignored.
* `FlowGraph.build` — a whole description, up to its first failure.

## Design

Whether the tables of a graph can be made is decided by the memory at the time, and a description
does not tell. So it is a parameter, of which nothing is assumed: what is said of descriptions is
said for all memories.
-/

namespace PartialRedundancy

/-- One statement about a flow graph. -/
inductive Declaration
  /-- There is an edge from `u` to `v`. -/
  | edge (u v : Nat)
  /-- Node `n` evaluates the expression. -/
  | used (n : Nat)
  /-- Node `n` changes an operand of the expression. -/
  | killed (n : Nat)
deriving DecidableEq, Repr

/-- What can be wrong with the description of a graph. -/
inductive GraphError
  /-- A declaration names a node past the exit, which is `last`. -/
  | nodeOutOfRange (node last : Nat)
  /-- The tables of a graph with `count` real nodes are too large to be made. -/
  | tooManyNodes (count : Nat)
deriving DecidableEq, Repr

/-- The wording of an error in a description. -/
def GraphError.message : GraphError → String
  | nodeOutOfRange node last => s!"node {node} is outside of the graph [0, {last}]"
  | tooManyNodes count => s!"{count} real nodes do not fit in memory"

/-- The memory that the tables of a graph are made in. -/
class Memory where
  /-- Whether there is space for the tables of a graph with so many nodes, entry and exit
  included. -/
  hasSpace : Nat → Bool

/-- The memory that has space for graphs with up to `size` nodes. -/
abbrev Memory.upTo (size : Nat) : Memory := ⟨fun n => n ≤ size⟩

namespace FlowGraph

/-- Numbers of nodes are kept in machine words and stay below this bound. -/
def wordBound : Nat := Nat.pow 2 64

/-- The graph with `realCount` real nodes before any declaration. The number of all nodes has to be
one that a word can hold, and there has to be space for the tables. -/
def ofRealCount [Memory] (realCount : Nat) : Except GraphError FlowGraph :=
  if realCount + 2 < wordBound ∧ Memory.hasSpace (realCount + 2) then .ok (bare realCount)
  else .error (.tooManyNodes realCount)

/-- Adds a declaration. Of two nodes that are out of range, the first is reported. -/
def declare (g : FlowGraph) : Declaration → Except GraphError FlowGraph
  | .edge u v =>
    if hu : u < g.size then
      if hv : v < g.size then .ok (g.insertEdge u v hu hv)
      else .error (.nodeOutOfRange v g.exit)
    else .error (.nodeOutOfRange u g.exit)
  | .used n => if n < g.size then .ok (g.markUsed n) else .error (.nodeOutOfRange n g.exit)
  | .killed n => if n < g.size then .ok (g.markKilled n) else .error (.nodeOutOfRange n g.exit)

/-- Adds a declaration if its nodes are in range. -/
def attempt (g : FlowGraph) (d : Declaration) : FlowGraph :=
  match g.declare d with
  | .ok h => h
  | .error _ => g

/-- The graph of a description, or the first error in it. -/
def build [Memory] (realCount : Nat) (ds : List Declaration) : Except GraphError FlowGraph := do
  ds.foldlM declare (← ofRealCount realCount)

end FlowGraph

end PartialRedundancy
