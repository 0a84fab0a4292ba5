import PartialRedundancy.Motion.Vector

/-!
# Delayability

An insertion at the down-safe earliest nodes can be put off to a node if no path on the way there
uses the expression. Forwards, the greatest solution of

`Delay n = (not Used p, and Delay p for all predecessors p) or (DownSafety n and Earliest n)`

with `Delay entry = false`.

## Main definitions

* `Delay.equation` — the equations.
* `Delay.analyze` — their solution for one graph and the two vectors that they read.
-/

namespace PartialRedundancy.Delay

/-- The equations of delayability. -/
def equation (g : FlowGraph) (downSafety earliest : FactVector) : Equation where
  direction := .forward
  extreme := .greatest
  meet := .all
  boundary := false
  term p value := do
    let used ← g.isUsed p
    return !used && value
  apply n met := do
    if met then return true
    else if ← downSafety.holds n then earliest.holds n
    else return false

/-- Computes the nodes that an insertion can be put off to. -/
def analyze (g : FlowGraph) (downSafety earliest : FactVector) (seeding : Seeding) :
    Except OutOfBounds AnalysisRun :=
  AnalysisRun.ofEquation .delay (equation g downSafety earliest) g seeding

end PartialRedundancy.Delay
