import PartialRedundancy.Motion.Session

/-!
# Traces

What a session does, as a sequence of events. Each phase announces itself, then its analysis
announces the system it solves, records every update and says when nothing changes any more.
Latestness is not solved, and so it has no events of its own.

## Main definitions

* `Trace.Event` — one event, with its level, its message and its fields.
* `Trace.ofRun` — the events of one phase.
* `Session.trace` — the events of several phases.
-/

namespace PartialRedundancy

namespace Trace

/-- How important an event is. -/
inductive Level
  /-- What happens once in each phase. -/
  | debug
  /-- What happens at every update. -/
  | trace
deriving DecidableEq, Repr

/-- The name of a level. -/
def Level.name : Level → String
  | debug => "DEBUG"
  | trace => "TRACE"

/-- An event. -/
structure Event where
  /-- How important it is. -/
  level : Level
  /-- What happens. -/
  message : String
  /-- The named details, in order. -/
  fields : List (String × String)
deriving DecidableEq, Repr

/-- The announcement of the phase that makes an analysis; latestness comes with delayability. -/
def announcement : Analysis → String
  | .downSafety => "step 1: down-safety"
  | .earliest => "step 2: earliestness"
  | .delay | .latest => "step 3: delay and latest"
  | .isolated => "step 4: isolation"

/-- The event of an update. -/
def ofUpdate (u : Update) : Event where
  level := .trace
  message := u.message
  fields := [
    ("analysis", u.analysis.name),
    ("node", toString u.flip.node),
    ("old", u.flip.old.name),
    ("new", (Fact.known u.flip.new).name)]

/-- The events of a phase. -/
def ofRun (seeding : Seeding) (r : AnalysisRun) : List Event :=
  let name := r.analysis.name
  [⟨.debug, announcement r.analysis, []⟩,
    ⟨.debug, "solving",
      [("analysis", name), ("nodes", toString r.vector.size), ("seeding", seeding.name)]⟩] ++
  r.updates.map ofUpdate ++
  match r.outcome with
  | .settled run =>
    [⟨.debug, "converged",
      [("analysis", name), ("evaluations", toString run.evaluations),
        ("updates", toString run.flips.length)]⟩]
  | .cutOff _ => []

end Trace

/-- The events of the analyses that a session has made. -/
def Session.trace (s : Session) (runs : List AnalysisRun) : List Trace.Event :=
  runs.flatMap (Trace.ofRun s.options.seeding)

end PartialRedundancy
