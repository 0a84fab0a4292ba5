import PartialRedundancy.Motion.Vector

/-!
# Latestness

A real node is latest if an insertion can be put off to it but no further: it uses the expression
itself, or some successor cannot take the insertion.

`Latest n = Delay n, and (Used n, or not Delay s for some successor s)`

The entry and the exit are never latest. Nothing has to be solved, one pass over the nodes does.

## Main definitions

* `Latest.isLatest` — the rule for one node.
* `Latest.analyze` — the vector of the latest nodes.
-/

namespace PartialRedundancy.Latest

/-- Whether an insertion can be put off to a real node and no further. -/
def isLatest (g : FlowGraph) (delay : FactVector) (n : Nat) : Except OutOfBounds Bool := do
  let successors ← g.succ n
  let onward ← successors.toList.allM delay.holds
  if ← delay.holds n then
    let used ← g.isUsed n
    return used || !onward
  else return false

/-- Computes the latest nodes. -/
def analyze (g : FlowGraph) (delay : FactVector) : Except OutOfBounds FactVector := do
  let real ← g.realNodes.toList.mapM (isLatest g delay)
  return ⟨.latest, ((false :: real ++ [false]).map Fact.known).toArray⟩

end PartialRedundancy.Latest
