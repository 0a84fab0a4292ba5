import PartialRedundancy.Motion.Vector

/-!
# Down-safety

A node is down-safe if the expression is sure to be used after it, before one of its operands
changes, on every path to the exit. Backwards, the greatest solution of

`DownSafety n = (not Killed n, and DownSafety s for all successors s) or Used n`

with `DownSafety exit = false`.

## Main definitions

* `DownSafety.equation` — the equations.
* `DownSafety.analyze` — their solution for one graph.
-/

namespace PartialRedundancy.DownSafety

/-- The equations of down-safety. -/
def equation (g : FlowGraph) : Equation where
  direction := .backward
  extreme := .greatest
  meet := .all
  boundary := false
  term _ value := return value
  apply n met := do
    let killed ← g.isKilled n
    if !killed && met then return true else g.isUsed n

/-- Computes the down-safe nodes. -/
def analyze (g : FlowGraph) (seeding : Seeding) : Except OutOfBounds AnalysisRun :=
  AnalysisRun.ofEquation .downSafety (equation g) g seeding

end PartialRedundancy.DownSafety
