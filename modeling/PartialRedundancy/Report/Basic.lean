import PartialRedundancy.Motion.Session

/-!
# Reports

The summary of a session in which every phase has run: which real nodes use the expression and
change its operands, which of them hold in each vector, and where the expression is computed.

## Main definitions

* `Report` — the summary, with one `VectorReport` for each analysis.
* `Session.report` — the summary of a session.
-/

namespace PartialRedundancy

/-- The real nodes of one vector. -/
structure VectorReport where
  /-- The analysis. -/
  analysis : Analysis
  /-- The real nodes that are known to be true. -/
  holding : NodeSet
  /-- The real nodes of which nothing is known. -/
  unknown : NodeSet
deriving DecidableEq, Repr

/-- The summary of a vector. -/
def FactVector.report (v : FactVector) : VectorReport := ⟨v.analysis, v.holding, v.unknown⟩

/-- The summary of a session. -/
structure Report where
  /-- Where the analyses started. -/
  seeding : Seeding
  /-- The number of real nodes. -/
  realCount : Nat
  /-- The real nodes that use the expression. -/
  used : NodeSet
  /-- The real nodes that change an operand. -/
  killed : NodeSet
  /-- The vectors, in the order in which they are made. -/
  vectors : List VectorReport
  /-- Where the expression is computed. -/
  placement : Placement
deriving DecidableEq, Repr

/-- The summaries of all vectors. -/
def Vectors.reports (v : Vectors) : List VectorReport :=
  [v.downSafety, v.earliest, v.delay, v.latest, v.isolated].map FactVector.report

/-- The summary of a session in which every phase has run. -/
def Session.report (s : Session) : Except SessionError Report := do
  let vectors ← s.vectors
  return {
    seeding := s.options.seeding
    realCount := s.graph.realCount
    used := s.graph.usedNodes.filter s.graph.isReal
    killed := s.graph.killedNodes.filter s.graph.isReal
    vectors := vectors.reports
    placement := ← s.placement }

end PartialRedundancy
