import PartialRedundancy.NodeSet
import PartialRedundancy.Dataflow.Solver

/-!
# Fact vectors

Moving the computations of an expression takes five analyses, and each ends with a vector of
facts, one for every node of the graph, entry and exit included.

## Main definitions

* `Analysis` — the five analyses.
* `FactVector` — the facts of one analysis, with lookups and listings.
* `AnalysisRun` — what running an analysis gives, with its vector and its updates.
* `Update` — a flip together with the analysis it belongs to.
-/

namespace PartialRedundancy

/-- The analyses of code motion. -/
inductive Analysis
  /-- Where the expression is sure to be used, before an operand changes. -/
  | downSafety
  /-- Where an insertion cannot move any further up. -/
  | earliest
  /-- Where an insertion can be put off to. -/
  | delay
  /-- Where an insertion cannot be put off any further. -/
  | latest
  /-- Where an inserted value would not be read by any later node. -/
  | isolated
deriving DecidableEq, Repr

namespace Analysis

/-- The name of an analysis. -/
def name : Analysis → String
  | downSafety => "DownSafety"
  | earliest => "Earliest"
  | delay => "Delay"
  | latest => "Latest"
  | isolated => "Isolated"

/-- The analyses in the order in which they are made. -/
def all : List Analysis := [downSafety, earliest, delay, latest, isolated]

end Analysis

/-- The facts that an analysis ends with. -/
structure FactVector where
  /-- The analysis. -/
  analysis : Analysis
  /-- The fact of each node. -/
  facts : Array Fact
deriving DecidableEq, Repr

namespace FactVector

/-- The number of nodes. -/
def size (v : FactVector) : Nat := v.facts.size

/-- Whether there are no nodes. -/
def isEmpty (v : FactVector) : Bool := v.facts.isEmpty

/-- The fact of a node of the vector. -/
def fact (v : FactVector) (n : Nat) : Except OutOfBounds Fact := fetch v.facts n

/-- The fact of a node, if it has one in the vector. -/
def get? (v : FactVector) (n : Nat) : Option Fact := v.facts[n]?

/-- Whether a node of the vector is known to be true. -/
def holds (v : FactVector) (n : Nat) : Except OutOfBounds Bool := do return (← v.fact n).holds

/-- The real nodes: all but the first, which is the entry, and the last, which is the exit. -/
def realNodes (v : FactVector) : NodeSet := .interval 1 (v.size - 2)

/-- The real nodes with their facts. -/
def realFacts (v : FactVector) : List (Nat × Fact) :=
  v.realNodes.toList.filterMap fun n => (v.get? n).map fun f => (n, f)

/-- The real nodes that are known to be true. -/
def holding (v : FactVector) : NodeSet := v.realNodes.filter fun n => v.get? n == some (.known true)

/-- The real nodes of which nothing is known. -/
def unknown (v : FactVector) : NodeSet := v.realNodes.filter fun n => v.get? n == some .unknown

/-- The real nodes are those between the first and the last. -/
theorem mem_realNodes {v : FactVector} {n : Nat} :
    n ∈ v.realNodes ↔ 1 ≤ n ∧ n + 1 < v.size := by
  rw [realNodes, NodeSet.mem_interval]
  omega

/-- The real nodes that hold are those between the first and the last whose fact is true. -/
theorem mem_holding {v : FactVector} {n : Nat} :
    n ∈ v.holding ↔ 1 ≤ n ∧ n + 1 < v.size ∧ v.get? n = some (.known true) := by
  rw [holding, NodeSet.mem_filter, mem_realNodes, beq_iff_eq, and_assoc]

/-- The real nodes without a value are those between the first and the last whose fact is
unknown. -/
theorem mem_unknown {v : FactVector} {n : Nat} :
    n ∈ v.unknown ↔ 1 ≤ n ∧ n + 1 < v.size ∧ v.get? n = some .unknown := by
  rw [unknown, NodeSet.mem_filter, mem_realNodes, beq_iff_eq, and_assoc]

end FactVector

/-- A flip that an analysis makes. -/
structure Update where
  /-- The analysis. -/
  analysis : Analysis
  /-- The flip. -/
  flip : Flip
deriving DecidableEq, Repr

/-- The line that records an update. -/
def Update.message (u : Update) : String :=
  s!"[Update] {u.analysis.name}[{u.flip.node}] := {(Fact.known u.flip.new).name}"

/-- What running an analysis gives. -/
structure AnalysisRun where
  /-- The analysis that is run. -/
  analysis : Analysis
  /-- How the run of its system ends. -/
  outcome : Outcome
deriving DecidableEq, Repr

namespace AnalysisRun

/-- The run of an analysis that solves a system of equations. -/
def ofEquation (analysis : Analysis) (e : Equation) (g : FlowGraph) (seeding : Seeding) :
    Except OutOfBounds AnalysisRun := do
  return ⟨analysis, ← solve e g seeding⟩

/-- The facts that a run ends with. If it is cut off, there are none. -/
def vector (r : AnalysisRun) : FactVector where
  analysis := r.analysis
  facts :=
    match r.outcome with
    | .settled run => run.facts
    | .cutOff _ => #[]

/-- All flips of a run, in order, until it settles or is cut off. -/
def flips (r : AnalysisRun) : List Flip :=
  match r.outcome with
  | .settled run => run.flips
  | .cutOff flips => flips

/-- All updates, in order. -/
def updates (r : AnalysisRun) : List Update := r.flips.map fun f => ⟨r.analysis, f⟩

end AnalysisRun

end PartialRedundancy
