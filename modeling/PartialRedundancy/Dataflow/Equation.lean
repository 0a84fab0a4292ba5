import PartialRedundancy.Graph.Basic
import PartialRedundancy.Dataflow.Fact

/-!
# Boolean dataflow equations

A boolean dataflow analysis gives each node `n` of a flow graph, but for one boundary node whose
value is fixed, the equation

`value n = apply n (meet of (term m (value m)) over the sources m of n)`

where the sources of a node are its successors in a backward analysis and its predecessors in a
forward one. The node whose value a source contributes to is a *reader* of that source.

## Main definitions

* `Direction`, `Extreme`, `Meet` — which neighbours an equation reads, which solution of it is
  wanted and how the contributions are combined.
* `Equation` — the equations of one analysis.
* `Equation.evaluate` — the right-hand side for one node, with unknown sources left out.
-/

namespace PartialRedundancy

/-- The way in which values travel through the graph. -/
inductive Direction
  /-- From the successors into a node; the boundary is the exit. -/
  | backward
  /-- From the predecessors into a node; the boundary is the entry. -/
  | forward
deriving DecidableEq, Repr

namespace Direction

/-- The node whose value is fixed. -/
def boundary (d : Direction) (g : FlowGraph) : Nat :=
  match d with
  | backward => g.exit
  | forward => g.entry

/-- The nodes whose values the equation of a node reads. -/
def sources (d : Direction) (g : FlowGraph) (n : Nat) : Except OutOfBounds NodeSet :=
  match d with
  | backward => g.succ n
  | forward => g.pred n

/-- The nodes whose equations read the value of a node. -/
def readers (d : Direction) (g : FlowGraph) (n : Nat) : Except OutOfBounds NodeSet :=
  match d with
  | backward => g.pred n
  | forward => g.succ n

end Direction

/-- Which of the solutions of a system of equations is wanted. -/
inductive Extreme
  /-- The greatest: values start true and fall. -/
  | greatest
  /-- The least: values start false and rise. -/
  | least
deriving DecidableEq, Repr

/-- The value from which the wanted solution is approached. -/
def Extreme.start : Extreme → Bool
  | greatest => true
  | least => false

/-- How the contributions of the sources are combined. -/
inductive Meet
  /-- All of them have to be true. -/
  | all
  /-- One of them has to be true. -/
  | any
deriving DecidableEq, Repr

namespace Meet

/-- The meet of no contributions. -/
def identity : Meet → Bool
  | all => true
  | any => false

/-- The meet of two contributions. -/
def combine : Meet → Bool → Bool → Bool
  | all, a, b => a && b
  | any, a, b => a || b

end Meet

/-- The equations of one analysis. Terms and applications may look up facts of another analysis,
and so they can fail. -/
structure Equation where
  /-- Which neighbours are the sources of a node. -/
  direction : Direction
  /-- Which solution is wanted. -/
  extreme : Extreme
  /-- How the contributions of the sources are combined. -/
  meet : Meet
  /-- The value of the boundary node. -/
  boundary : Bool
  /-- The contribution of a source that has some value. -/
  term : Nat → Bool → Except OutOfBounds Bool
  /-- The value of a node, from the meet of the contributions. -/
  apply : Nat → Bool → Except OutOfBounds Bool

namespace Equation

/-- Combines the contribution of source `m`; an unknown source contributes nothing. -/
def contribute (e : Equation) (facts : Array Fact) (met : Bool) (m : Nat) :
    Except OutOfBounds Bool := do
  match ← fetch facts m with
  | .unknown => return met
  | .known value => return e.meet.combine met (← e.term m value)

/-- The right-hand side of the equation of node `n`. Every known source contributes, also when
the meet is settled by an earlier one. -/
def evaluate (e : Equation) (g : FlowGraph) (facts : Array Fact) (n : Nat) :
    Except OutOfBounds Bool := do
  let sources ← e.direction.sources g n
  e.apply n (← sources.toList.foldlM (e.contribute facts) e.meet.identity)

end Equation

end PartialRedundancy
