import PartialRedundancy.Dataflow.Equation
import PartialRedundancy.Dataflow.Seeding
import PartialRedundancy.Dataflow.Worklist

/-!
# Solving dataflow equations

The worklist algorithm. As long as a node waits in the queue, it is taken and its equation is
evaluated on the current facts; if the value is another than the node's fact, the fact flips, the
flip is recorded, and the readers of the node are queued, in ascending order. The boundary node
keeps its value and is never queued.

## Main definitions

* `SolverState` — facts, queue and record, at the head of the loop.
* `SolverState.start`, `SolverState.step`, `SolverState.iterate` — the beginning, one round of the
  loop, and any number of rounds.
* `Outcome` — how a run ends: it settles, or it is cut off.
* `solveWithin` — the run of a system, cut off before it flips too often.
* `solve` — the same, with a limit that no monotone system comes to.

## Design

Between two flips every queued node is taken at most once, and there are never more queued nodes
than nodes. A run of at most `limit` flips therefore takes at most `(limit + 2) * size` rounds,
and the loop `SolverState.run` is a recursion on that number. In a monotone system a node flips at
most twice, from unknown and then once between the two values, which is the limit of `solve`. Other
systems may go on for ever. Their runs are cut off, and then there is a record and no result.
-/

namespace PartialRedundancy

/-- The state of the solver at the head of its loop. -/
structure SolverState where
  /-- The current fact of each node. -/
  facts : Array Fact
  /-- The nodes that wait to be evaluated. -/
  worklist : Worklist
  /-- The flips so far, in order. -/
  flips : Array Flip
  /-- The number of nodes taken from the queue so far. -/
  evaluations : Nat
deriving DecidableEq, Repr

namespace SolverState

/-- The fact of all nodes but the boundary at the beginning. -/
def initialFact (e : Equation) : Seeding → Fact
  | .eager => .known e.extreme.start
  | .reachableOnly => .unknown

/-- The nodes that are evaluated first, apart from the boundary. -/
def seeds (e : Equation) (g : FlowGraph) : Seeding → Except OutOfBounds NodeSet
  | .eager => return g.nodes
  | .reachableOnly => e.direction.readers g (e.direction.boundary g)

/-- Queues the nodes of a set, without the boundary. -/
def enqueue (e : Equation) (g : FlowGraph) (w : Worklist) (ns : NodeSet) :
    Except OutOfBounds Worklist :=
  w.pushAll (ns.toList.filter (· != e.direction.boundary g))

/-- The state before the first round. -/
def start (e : Equation) (g : FlowGraph) (seeding : Seeding) : Except OutOfBounds SolverState := do
  let facts ← store (Array.replicate g.size (initialFact e seeding)) (e.direction.boundary g)
    (.known e.boundary)
  let worklist ← enqueue e g (.empty g.size) (← seeds e g seeding)
  return ⟨facts, worklist, #[], 0⟩

/-- One round of the loop; nothing happens once the queue is empty. -/
def step (e : Equation) (g : FlowGraph) (s : SolverState) : Except OutOfBounds SolverState := do
  let ⟨facts, worklist, flips, evaluations⟩ := s
  let (next, worklist) ← worklist.pop
  match next with
  | none => return ⟨facts, worklist, flips, evaluations⟩
  | some n =>
    let old ← fetch facts n
    let new ← e.evaluate g facts n
    if old = .known new then return ⟨facts, worklist, flips, evaluations + 1⟩
    else
      let facts ← store facts n (.known new)
      let worklist ← enqueue e g worklist (← e.direction.readers g n)
      return ⟨facts, worklist, flips.push ⟨n, old, new⟩, evaluations + 1⟩

/-- Any number of rounds. -/
def iterate (e : Equation) (g : FlowGraph) : Nat → SolverState → Except OutOfBounds SolverState
  | 0, s => return s
  | rounds + 1, s => do iterate e g rounds (← s.step e g)

/-- Rounds until the queue is empty or there are more than `limit` flips. -/
def run (e : Equation) (g : FlowGraph) (limit : Nat) :
    Nat → SolverState → Except OutOfBounds SolverState
  | 0, s => return s
  | rounds + 1, s =>
    if s.worklist.isEmpty || limit < s.flips.size then return s
    else do run e g limit rounds (← s.step e g)

end SolverState

/-- What a run of the solver ends with. -/
structure SolverRun where
  /-- The fact of each node. -/
  facts : Array Fact
  /-- All flips, in order. -/
  flips : List Flip
  /-- The number of evaluations. -/
  evaluations : Nat
deriving DecidableEq, Repr

/-- The run that has ended in a state. -/
def SolverState.finish (s : SolverState) : SolverRun := ⟨s.facts, s.flips.toList, s.evaluations⟩

/-- The state in which a run ends, or in which it has one flip more than `limit`. -/
def solverState (e : Equation) (g : FlowGraph) (seeding : Seeding) (limit : Nat) :
    Except OutOfBounds SolverState := do
  SolverState.run e g limit ((limit + 2) * g.size) (← SolverState.start e g seeding)

/-- How the run of a system ends. -/
inductive Outcome
  /-- No value changes any more. -/
  | settled (run : SolverRun)
  /-- One more flip would have been too many. -/
  | cutOff (flips : List Flip)
deriving DecidableEq, Repr

/-- The run of a system, cut off when it is about to flip more than `limit` times. -/
def solveWithin (e : Equation) (g : FlowGraph) (seeding : Seeding) (limit : Nat) :
    Except OutOfBounds Outcome := do
  let s ← solverState e g seeding limit
  if limit < s.flips.size then return .cutOff (s.flips.toList.take limit)
  else return .settled s.finish

/-- How often the nodes of a graph flip at most in a monotone system. -/
def monotoneFlipLimit (g : FlowGraph) : Nat := 2 * g.size

/-- The run of a system, cut off when it is about to flip more often than a monotone one. -/
def solve (e : Equation) (g : FlowGraph) (seeding : Seeding) : Except OutOfBounds Outcome :=
  solveWithin e g seeding (monotoneFlipLimit g)

end PartialRedundancy
