import PartialRedundancy.Json.Value
import PartialRedundancy.Report.Basic

/-!
# Reports as JSON

A report as a JSON value, for other programs to read. The unknown nodes of a vector are a field of
their own, which is there only if there are any.

## Main definitions

* `Report.toJson` — the value of a report.
* `Report.json` — its indented text.
-/

namespace PartialRedundancy

open Json (Value)

/-- The members of a set. -/
def NodeSet.toJson (s : NodeSet) : Value := .numbers s.toList

/-- The value of one vector. -/
def VectorReport.toJson (v : VectorReport) : Value :=
  .record ([("analysis", .name v.analysis.name), ("holding", v.holding.toJson)] ++
    if v.unknown.isEmpty then [] else [("unknown", v.unknown.toJson)])

/-- The value of a placement. -/
def Placement.toJson (p : Placement) : Value := .record [
  ("bcm", p.busy.toJson),
  ("optimal", p.optimal.toJson),
  ("isolated", p.isolated.toJson),
  ("redundant", p.redundant.toJson)]

/-- The value of a report. -/
def Report.toJson (r : Report) : Value := .record [
  ("seeding", .name r.seeding.name),
  ("real_nodes", .number r.realCount),
  ("used", r.used.toJson),
  ("killed", r.killed.toJson),
  ("vectors", .list (r.vectors.map VectorReport.toJson)),
  ("placement", r.placement.toJson)]

/-- The JSON text of a report. -/
def Report.json (r : Report) : String := r.toJson.pretty 0

end PartialRedundancy
