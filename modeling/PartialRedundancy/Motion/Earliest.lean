import PartialRedundancy.Motion.Vector

/-!
# Earliestness

A node is earliest if an insertion there cannot move any further up: on some path from the entry
the value that the expression has at the node is not available before, and no node on the way was
down-safe. Forwards, the least solution of

`Earliest n = for some predecessor p, (not DownSafety p, and Earliest p) or Killed p`

with `Earliest entry = true`.

## Main definitions

* `Earliest.equation` — the equations.
* `Earliest.analyze` — their solution for one graph and the vector of its down-safe nodes.
-/

namespace PartialRedundancy.Earliest

/-- The equations of earliestness. -/
def equation (g : FlowGraph) (downSafety : FactVector) : Equation where
  direction := .forward
  extreme := .least
  meet := .any
  boundary := true
  term p value := do
    let safe ← downSafety.holds p
    if !safe && value then return true else g.isKilled p
  apply _ met := return met

/-- Computes the earliest nodes. -/
def analyze (g : FlowGraph) (downSafety : FactVector) (seeding : Seeding) :
    Except OutOfBounds AnalysisRun :=
  AnalysisRun.ofEquation .earliest (equation g downSafety) g seeding

end PartialRedundancy.Earliest
