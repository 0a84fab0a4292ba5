import PartialRedundancy.CommandLine.Directory
import PartialRedundancy.Dataflow.Tabulated
import PartialRedundancy.Main
import PartialRedundancy.Report.Trace
import PartialRedundancy.Proofs.Motion.Cost
import PartialRedundancy.Proofs.Motion.Temporary
import PartialRedundancy.Proofs.Motion.Updates
import PartialRedundancy.Proofs.Dataflow.Simulation
import PartialRedundancy.Proofs.Motion.Coherence
import PartialRedundancy.Proofs.Motion.Correspondence
import PartialRedundancy.Proofs.Motion.Invariance
import PartialRedundancy.Proofs.Dataflow.Cause
import PartialRedundancy.Proofs.Motion.Paths
import PartialRedundancy.Proofs.GraphText.Layout
import PartialRedundancy.Proofs.Motion.Isolated
import PartialRedundancy.Proofs.GraphText.Expression
import PartialRedundancy.Proofs.GraphText.Grammar
import PartialRedundancy.Proofs.Failure
import PartialRedundancy.Proofs.GraphText.Tree
import PartialRedundancy.Proofs.Graph.Tables
import PartialRedundancy.Proofs.Motion.Bounds
import PartialRedundancy.Proofs.Safety
import PartialRedundancy.Proofs.Dataflow.Spread
import PartialRedundancy.Proofs.Motion.Chains
import PartialRedundancy.Proofs.Dataflow.Seedings
import PartialRedundancy.Proofs.Dataflow.Replay
import PartialRedundancy.Proofs.Motion.Ordering
import PartialRedundancy.Proofs.Motion.Listener
import PartialRedundancy.Proofs.Graph.Builder
import PartialRedundancy.Proofs.GraphText.Rearrangement
import PartialRedundancy.Proofs.Motion.Partition
import PartialRedundancy.Proofs.Motion.Monotonicity
import PartialRedundancy.Proofs.GraphText.Precedence
import PartialRedundancy.Proofs.GraphText.Attempts
import PartialRedundancy.Proofs.GraphText.Locality
import PartialRedundancy.Proofs.Dataflow.Duality
import PartialRedundancy.Proofs.Dataflow.Extension
import PartialRedundancy.Proofs.Motion.ForeignVectors
import PartialRedundancy.Proofs.Report.Text
import PartialRedundancy.Proofs.Json.Pretty
import PartialRedundancy.Proofs.Report.Json
import PartialRedundancy.Proofs.Report.Session
import PartialRedundancy.Proofs.Report.Diagram
