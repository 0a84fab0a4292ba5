import PartialRedundancy.Report.Basic

/-!
# Reports as text

The lines of a report for a human reader. Nodes are listed in ascending order; an empty list is
written `none`, and braces stay around the nodes of the first line also when there are none.

## Main definitions

* `Report.lines` — the lines of a report.
* `Report.text` — the lines, each with its line feed.
-/

namespace PartialRedundancy

/-- The members of a set, with commas between them. -/
def NodeSet.commaSeparated (s : NodeSet) : String := ", ".intercalate (s.toList.map toString)

/-- The members of a set, or a word if there are none. -/
def NodeSet.listing (s : NodeSet) : String := if s.isEmpty then "none" else s.commaSeparated

/-- The members of a set between braces. -/
def NodeSet.braced (s : NodeSet) : String := "\x7b" ++ s.commaSeparated ++ "\x7d"

/-- The headline of the step that makes an analysis; latestness comes with delayability. -/
def Analysis.headline : Analysis → List String
  | downSafety => ["Step 1: Compute Down-Safety"]
  | earliest => ["Step 2: Compute Earliestness"]
  | delay => ["Step 3: Compute Delay and Latest"]
  | latest => []
  | isolated => ["Step 4: Compute Isolation"]

/-- The lines of one vector. Unknown nodes are mentioned only if there are any. -/
def VectorReport.lines (v : VectorReport) : List String :=
  v.analysis.headline ++
  [s!"[{v.analysis.name} Result]: {v.holding.listing}"] ++
  if v.unknown.isEmpty then [] else [s!"[{v.analysis.name} Unknown]: {v.unknown.listing}"]

/-- The lines of a placement. -/
def Placement.lines (p : Placement) : List String := [
  "Step 5: Classify Placement",
  s!"[BCM]: {p.busy.listing}",
  s!"[Optimal Computation Points]: {p.optimal.listing}",
  s!"[Isolated Computation]: {p.isolated.listing}",
  s!"[Redundant Occurrence]: {p.redundant.listing}"]

/-- The first line of a report. -/
def Report.summary (r : Report) : String :=
  s!"{r.realCount} real nodes, used {r.used.braced}, killed {r.killed.braced}, " ++
  s!"seeding {r.seeding.name}"

/-- The lines of a report. -/
def Report.lines (r : Report) : List String :=
  r.summary :: r.vectors.flatMap VectorReport.lines ++ r.placement.lines

/-- The text of a report. -/
def Report.text (r : Report) : String := String.join (r.lines.map fun line => line ++ "\n")

end PartialRedundancy
