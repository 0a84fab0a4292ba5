import PartialRedundancy.Motion.Vector

/-!
# Isolation

A node is isolated if a value inserted there would not be read by any later node: on every path
that goes on from it, a new insertion comes before the next use. Backwards, the greatest solution
of

`Isolated n = for all successors s, Latest s or (not Used s, and Isolated s)`

with `Isolated exit = true`.

## Main definitions

* `Isolated.equation` — the equations.
* `Isolated.analyze` — their solution for one graph and the vector of its latest nodes.
-/

namespace PartialRedundancy.Isolated

/-- The equations of isolation. -/
def equation (g : FlowGraph) (latest : FactVector) : Equation where
  direction := .backward
  extreme := .greatest
  meet := .all
  boundary := true
  term s value := do
    if ← latest.holds s then return true
    else
      let used ← g.isUsed s
      return !used && value
  apply _ met := return met

/-- Computes the isolated nodes. -/
def analyze (g : FlowGraph) (latest : FactVector) (seeding : Seeding) :
    Except OutOfBounds AnalysisRun :=
  AnalysisRun.ofEquation .isolated (equation g latest) g seeding

end PartialRedundancy.Isolated
