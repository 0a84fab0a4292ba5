import PartialRedundancy.Motion.Vector

/-!
# Placements

Where the expression is computed once the five analyses are made.

Busy code motion inserts a computation at each node that is down-safe and earliest. Lazy code
motion inserts one at each latest node: into a temporary where later nodes read its value, and in
place where the node is isolated. Every use but those at isolated insertions becomes a read of the
temporary.

## Main definitions

* `Vectors` — the vectors of the five analyses.
* `Verdict` — what is decided of one node.
* `Placement` — the nodes of each kind.
* `Placement.classify` — the placement that five vectors give.
-/

namespace PartialRedundancy

/-- The vectors of all analyses. -/
structure Vectors where
  /-- Where the expression is sure to be used. -/
  downSafety : FactVector
  /-- Where an insertion cannot move up. -/
  earliest : FactVector
  /-- Where an insertion can be put off to. -/
  delay : FactVector
  /-- Where an insertion cannot be put off any further. -/
  latest : FactVector
  /-- Where an inserted value would not be read later. -/
  isolated : FactVector
deriving DecidableEq, Repr

/-- What is decided of one node. -/
structure Verdict where
  /-- Busy code motion inserts here. -/
  busy : Bool
  /-- Lazy code motion sets the temporary here. -/
  optimal : Bool
  /-- Lazy code motion computes the expression here, for this node alone. -/
  isolated : Bool
  /-- A use here becomes a read of the temporary. -/
  redundant : Bool
deriving DecidableEq, Repr

/-- Decides one node. Earliestness only matters where the node is down-safe. -/
def Verdict.ofVectors (g : FlowGraph) (v : Vectors) (n : Nat) : Except OutOfBounds Verdict := do
  let latest ← v.latest.holds n
  let isolated ← v.isolated.holds n
  let safe ← v.downSafety.holds n
  let busy ← if safe then v.earliest.holds n else pure false
  let used ← g.isUsed n
  return {
    busy := busy
    optimal := latest && !isolated
    isolated := latest && isolated
    redundant := used && !(latest && isolated) }

/-- Where the expression is computed after code motion. -/
structure Placement where
  /-- The insertions of busy code motion. -/
  busy : NodeSet
  /-- The insertions of lazy code motion that set the temporary. -/
  optimal : NodeSet
  /-- The insertions of lazy code motion that serve their own node alone. -/
  isolated : NodeSet
  /-- The uses that become reads of the temporary. -/
  redundant : NodeSet
deriving DecidableEq, Repr

namespace Placement

/-- The placement that decides nothing. -/
def empty : Placement := ⟨∅, ∅, ∅, ∅⟩

/-- The insertions of lazy code motion. -/
def lazy (p : Placement) : NodeSet := p.optimal.union p.isolated

/-- The nodes with a verdict of some kind. -/
def select (verdicts : List (Nat × Verdict)) (kind : Verdict → Bool) : NodeSet :=
  .ofList ((verdicts.filter fun d => kind d.2).map Prod.fst)

/-- Decides all real nodes, in ascending order. -/
def classify (g : FlowGraph) (v : Vectors) : Except OutOfBounds Placement := do
  let verdicts ← g.realNodes.toList.mapM fun n => do return (n, ← Verdict.ofVectors g v n)
  return {
    busy := select verdicts Verdict.busy
    optimal := select verdicts Verdict.optimal
    isolated := select verdicts Verdict.isolated
    redundant := select verdicts Verdict.redundant }

end Placement

end PartialRedundancy
