import PartialRedundancy.Motion.Delay
import PartialRedundancy.Motion.DownSafety
import PartialRedundancy.Motion.Earliest
import PartialRedundancy.Motion.Isolated
import PartialRedundancy.Motion.Latest
import PartialRedundancy.Motion.Options
import PartialRedundancy.Motion.Placement

/-!
# Sessions

A session makes the analyses of one flow graph, phase by phase, and keeps their vectors. A phase
reads the vectors of earlier phases, so it can only run once these are there; it can run again, and
then replaces its own vectors and no others.

## Main definitions

* `Phase` — what has to happen in order.
* `Session` — a graph, the options and the vectors so far.
* `Session.run` — runs one phase.
* `Session.vectors`, `Session.placement` — all vectors and what they decide, once all are there.
* `Command`, `Session.execute` — one phase, or all of them, as a single step.
-/

namespace PartialRedundancy

/-- The phases of a session that make analyses. The phase of delayability makes latestness too. -/
inductive Phase
  /-- Makes down-safety. -/
  | downSafety
  /-- Makes earliestness. -/
  | earliest
  /-- Makes delayability and latestness. -/
  | delay
  /-- Makes isolation. -/
  | isolated
deriving DecidableEq, Repr

/-- What can be asked of a session too early. -/
inductive Request
  /-- To run a phase. -/
  | phase (phase : Phase)
  /-- To decide where the expression is computed. -/
  | placement
deriving DecidableEq, Repr

/-- The name of a request. -/
def Request.name : Request → String
  | phase .downSafety => "DownSafety"
  | phase .earliest => "Earliest"
  | phase .delay => "Delay"
  | phase .isolated => "Isolated"
  | placement => "Placement"

/-- What can go wrong in a session. -/
inductive SessionError
  /-- Something was asked for before an analysis that it needs was made. -/
  | outOfOrder (request : Request) (missing : Analysis)
  /-- A lookup failed. -/
  | lookup (error : OutOfBounds)
deriving DecidableEq, Repr

/-- The wording of a session's error. -/
def SessionError.message : SessionError → String
  | outOfOrder request missing =>
    s!"{request.name} cannot run before {missing.name} has converged"
  | lookup error => error.message

/-- The analyses of one graph, as far as they are made. -/
structure Session where
  /-- The graph. -/
  graph : FlowGraph
  /-- The options. -/
  options : SessionOptions
  /-- The vector of down-safety. -/
  downSafety : Option FactVector
  /-- The vector of earliestness. -/
  earliest : Option FactVector
  /-- The vector of delayability. -/
  delay : Option FactVector
  /-- The vector of latestness. -/
  latest : Option FactVector
  /-- The vector of isolation. -/
  isolated : Option FactVector
deriving DecidableEq

namespace Session

/-- The session before any phase. -/
def new (graph : FlowGraph) (options : SessionOptions) : Session :=
  ⟨graph, options, none, none, none, none, none⟩

/-- The vector of an analysis, if it is made. -/
def vector? (s : Session) : Analysis → Option FactVector
  | .downSafety => s.downSafety
  | .earliest => s.earliest
  | .delay => s.delay
  | .latest => s.latest
  | .isolated => s.isolated

/-- The vector of an analysis that a request needs. -/
def require (s : Session) (request : Request) (analysis : Analysis) :
    Except SessionError FactVector :=
  match s.vector? analysis with
  | some v => .ok v
  | none => .error (.outOfOrder request analysis)

/-- A computation on the vectors of a session. -/
def compute {α : Type} (x : Except OutOfBounds α) : Except SessionError α := x.mapError .lookup

/-- Runs a phase, and keeps its vectors. -/
def run (s : Session) : Phase → Except SessionError (Session × AnalysisRun)
  | .downSafety => do
    let r ← compute (DownSafety.analyze s.graph s.options.seeding)
    return ({ s with downSafety := r.vector }, r)
  | .earliest => do
    let safe ← s.require (.phase .earliest) .downSafety
    let r ← compute (Earliest.analyze s.graph safe s.options.seeding)
    return ({ s with earliest := r.vector }, r)
  | .delay => do
    let safe ← s.require (.phase .delay) .downSafety
    let earliest ← s.require (.phase .delay) .earliest
    let r ← compute (Delay.analyze s.graph safe earliest s.options.seeding)
    let latest ← compute (Latest.analyze s.graph r.vector)
    return ({ s with delay := r.vector, latest := latest }, r)
  | .isolated => do
    let latest ← s.require (.phase .isolated) .latest
    let r ← compute (Isolated.analyze s.graph latest s.options.seeding)
    return ({ s with isolated := r.vector }, r)

/-- All vectors, once every phase has run. -/
def vectors (s : Session) : Except SessionError Vectors := do
  return {
    downSafety := ← s.require .placement .downSafety
    earliest := ← s.require .placement .earliest
    delay := ← s.require .placement .delay
    latest := ← s.require .placement .latest
    isolated := ← s.require .placement .isolated }

/-- Where the expression is computed, once every phase has run. -/
def placement (s : Session) : Except SessionError Placement := do
  compute (Placement.classify s.graph (← s.vectors))

/-- Runs phases one after the other. -/
def runPhases (s : Session) : List Phase → Except SessionError (Session × List AnalysisRun)
  | [] => return (s, [])
  | phase :: rest => do
    let (s, r) ← s.run phase
    let (s, rs) ← s.runPhases rest
    return (s, r :: rs)

/-- Runs every phase, in order. -/
def runAll (s : Session) : Except SessionError (Session × List AnalysisRun) :=
  s.runPhases [.downSafety, .earliest, .delay, .isolated]

end Session

/-- A step of a session. -/
inductive Command
  /-- Runs one phase. -/
  | run (phase : Phase)
  /-- Runs every phase, in order. -/
  | runAll
deriving DecidableEq, Repr

/-- Carries out a command, and tells which analyses it made. -/
def Session.execute (s : Session) : Command → Except SessionError (Session × List AnalysisRun)
  | .run phase => s.runPhases [phase]
  | .runAll => s.runAll

end PartialRedundancy
