import PartialRedundancy.Lookup
import PartialRedundancy.Graph.Adjacency

/-!
# Flow graphs

A flow graph has `N` real nodes `1, …, N`, an entry `0` and an exit `N + 1`. Two attributes of
a node say what it does with the one candidate expression whose computations are to be moved:
a *used* node evaluates the expression before it changes an operand, and a *killed* node
changes an operand.

## Main definitions

* `FlowGraph` — edges and attributes, with an edge from the entry to node `1` and one from node
  `N` to the exit.
* `FlowGraph.succ`, `FlowGraph.pred`, `FlowGraph.isUsed`, `FlowGraph.isKilled` — what is known
  of one node; they fail outside the graph.
* `FlowGraph.insertEdge`, `FlowGraph.markUsed`, `FlowGraph.markKilled` — one declaration more.

## Main results

* `FlowGraph.succ_eq_ok_iff`, `FlowGraph.pred_eq_ok_iff` — the neighbours of a node of the graph
  are those that the edge relation gives.
-/

namespace PartialRedundancy

/-- A flow graph with the attributes of its nodes. -/
structure FlowGraph where
  /-- The number `N` of real nodes. -/
  realCount : Nat
  /-- The edges between the nodes `0, …, N + 1`. -/
  adjacency : Adjacency
  /-- Whether each node evaluates the expression. -/
  used : Array Bool
  /-- Whether each node changes an operand of the expression. -/
  killed : Array Bool
  /-- The edges are between the nodes of the graph. -/
  size_adjacency : adjacency.size = realCount + 2
  /-- Each node has its mark of use. -/
  size_used : used.size = realCount + 2
  /-- Each node has its mark of change. -/
  size_killed : killed.size = realCount + 2
  /-- The entry leads to node `1`. -/
  entry_edge : adjacency.Edge 0 1
  /-- Node `N` leads to the exit. -/
  exit_edge : adjacency.Edge realCount (realCount + 1)
deriving DecidableEq

namespace FlowGraph

/-- The node where every run starts. -/
def entry (_ : FlowGraph) : Nat := 0

/-- The node where every run ends. -/
def exit (g : FlowGraph) : Nat := g.realCount + 1

/-- The number of nodes, entry and exit included. -/
def size (g : FlowGraph) : Nat := g.realCount + 2

/-- Whether there are no real nodes. -/
def isEmpty (g : FlowGraph) : Bool := g.realCount == 0

/-- All nodes. -/
def nodes (g : FlowGraph) : NodeSet := .interval 0 g.size

/-- The nodes that are neither entry nor exit. -/
def realNodes (g : FlowGraph) : NodeSet := .interval 1 g.realCount

/-- Whether a number is that of a real node. -/
def isReal (g : FlowGraph) (n : Nat) : Bool := 1 ≤ n && n ≤ g.realCount

/-- The real nodes are those that `isReal` recognises. -/
theorem mem_realNodes {g : FlowGraph} {n : Nat} : n ∈ g.realNodes ↔ g.isReal n = true := by
  simp [realNodes, isReal]
  omega

/-- There is an edge from `u` to `v`. -/
def Edge (g : FlowGraph) (u v : Nat) : Prop := g.adjacency.Edge u v

instance (g : FlowGraph) (u v : Nat) : Decidable (g.Edge u v) :=
  inferInstanceAs (Decidable (g.adjacency.Edge u v))

/-- Both ends of an edge are nodes of the graph. -/
theorem lt_of_edge {g : FlowGraph} {u v : Nat} (h : g.Edge u v) : u < g.size ∧ v < g.size := by
  have := Adjacency.lt_of_edge h
  rwa [g.size_adjacency] at this

/-- All edges, ordered by their start and then by their end. -/
def edges (g : FlowGraph) : List (Nat × Nat) := g.adjacency.edges

/-! ## What is known of one node -/

/-- The successors of a node. -/
def succ (g : FlowGraph) (n : Nat) : Except OutOfBounds NodeSet := fetch g.adjacency.successors n

/-- The predecessors of a node. -/
def pred (g : FlowGraph) (n : Nat) : Except OutOfBounds NodeSet :=
  fetch g.adjacency.predecessors n

/-- Whether a node evaluates the expression. -/
def isUsed (g : FlowGraph) (n : Nat) : Except OutOfBounds Bool := fetch g.used n

/-- Whether a node changes an operand of the expression. -/
def isKilled (g : FlowGraph) (n : Nat) : Except OutOfBounds Bool := fetch g.killed n

/-- A lookup of neighbours that are known to describe a relation gives the set of that relation. -/
private theorem fetch_neighbours_iff {table : Array NodeSet} {n : Nat} {s : NodeSet} :
    fetch table n = .ok s ↔ n < table.size ∧ ∀ m, m ∈ s ↔ m ∈ neighbours table n := by
  rw [fetch_eq_ok_iff]
  unfold neighbours
  by_cases h : n < table.size
  · simp only [h, Array.getElem?_eq_getElem, Option.some.injEq, Option.getD_some, true_and]
    exact ⟨fun e m => by rw [e], fun e => NodeSet.ext fun m => (e m).symm⟩
  · simp [h]

/-- The successors of a node of the graph are the ends of its edges. -/
theorem succ_eq_ok_iff {g : FlowGraph} {n : Nat} {s : NodeSet} :
    g.succ n = .ok s ↔ n < g.size ∧ ∀ m, m ∈ s ↔ g.Edge n m := by
  unfold succ
  rw [fetch_neighbours_iff, show g.adjacency.successors.size = g.size from g.size_adjacency]
  rfl

/-- The predecessors of a node of the graph are the starts of the edges into it. -/
theorem pred_eq_ok_iff {g : FlowGraph} {n : Nat} {s : NodeSet} :
    g.pred n = .ok s ↔ n < g.size ∧ ∀ m, m ∈ s ↔ g.Edge m n := by
  unfold pred
  rw [fetch_neighbours_iff, g.adjacency.size_predecessors,
    show g.adjacency.successors.size = g.size from g.size_adjacency]
  simp only [Edge, Adjacency.edge_iff_mem_predecessors]

/-- The nodes that evaluate the expression, entry and exit included. -/
def usedNodes (g : FlowGraph) : NodeSet := g.nodes.filter fun n => g.used[n]? == some true

/-- The nodes that change an operand, entry and exit included. -/
def killedNodes (g : FlowGraph) : NodeSet := g.nodes.filter fun n => g.killed[n]? == some true

/-! ## Construction -/

/-- The graph that holds only what every graph with `realCount` real nodes holds. -/
def bare (realCount : Nat) : FlowGraph where
  realCount := realCount
  adjacency := ((Adjacency.empty (realCount + 2)).insert 0 1 (by simp) (by simp)).insert
    realCount (realCount + 1) (by simp) (by simp)
  used := Array.replicate (realCount + 2) false
  killed := Array.replicate (realCount + 2) false
  size_adjacency := by simp
  size_used := by simp
  size_killed := by simp
  entry_edge := by simp
  exit_edge := by simp

/-- The graph with an edge from `u` to `v`. -/
def insertEdge (g : FlowGraph) (u v : Nat) (hu : u < g.size) (hv : v < g.size) : FlowGraph :=
  { g with
    adjacency := g.adjacency.insert u v (Nat.lt_of_lt_of_eq hu g.size_adjacency.symm)
      (Nat.lt_of_lt_of_eq hv g.size_adjacency.symm)
    size_adjacency := by simpa using g.size_adjacency
    entry_edge := by simp [g.entry_edge]
    exit_edge := by simp [g.exit_edge] }

/-- The graph with node `n` marked as used. -/
def markUsed (g : FlowGraph) (n : Nat) : FlowGraph :=
  { g with
    used := g.used.setIfInBounds n true
    size_used := by simpa using g.size_used }

/-- The graph with node `n` marked as killed. -/
def markKilled (g : FlowGraph) (n : Nat) : FlowGraph :=
  { g with
    killed := g.killed.setIfInBounds n true
    size_killed := by simpa using g.size_killed }

end FlowGraph

end PartialRedundancy
