import PartialRedundancy.NodeSet

/-!
# Adjacency tables

The edges of a finite directed graph on the nodes below some size, kept twice: each node has
the set of its successors and the set of its predecessors.

## Main definitions

* `Adjacency` — the two tables, of one size, which describe the same edges.
* `Adjacency.Edge` — the edge relation.
* `Adjacency.empty`, `Adjacency.insert` — no edges; one edge more.
* `Adjacency.edges` — all edges in ascending order.

## Main results

* `Adjacency.edge_insert` — insertion adds its edge and nothing else.
* `Adjacency.lt_of_edge` — both ends of an edge are nodes.
* `Adjacency.mem_edges` — the listing holds exactly the edges.
-/

namespace PartialRedundancy

/-- The set at a place of a table, empty past the end. -/
def neighbours (table : Array NodeSet) (n : Nat) : NodeSet := table[n]?.getD ∅

/-- Past the end of a table there are no neighbours. -/
theorem lt_of_mem_neighbours {table : Array NodeSet} {n m : Nat} (h : m ∈ neighbours table n) :
    n < table.size := by
  by_cases hn : n < table.size
  · exact hn
  · simp [neighbours, hn] at h

/-- Adds `m` to the neighbours of `n`. -/
def addNeighbour (table : Array NodeSet) (n m : Nat) : Array NodeSet :=
  table.modify n (NodeSet.insert m)

/-- The table keeps its size. -/
@[simp] theorem size_addNeighbour (table : Array NodeSet) (n m : Nat) :
    (addNeighbour table n m).size = table.size := by
  simp [addNeighbour]

/-- Only the neighbours of the named node change, by the named neighbour. -/
theorem mem_neighbours_addNeighbour {table : Array NodeSet} {n m : Nat} (hn : n < table.size)
    {x y : Nat} :
    y ∈ neighbours (addNeighbour table n m) x ↔ (x = n ∧ y = m) ∨ y ∈ neighbours table x := by
  unfold neighbours addNeighbour
  rw [Array.getElem?_modify]
  by_cases hx : n = x
  · subst hx
    simp [hn]
  · simp [hx, Ne.symm hx]

/-- The edges between the nodes below `size`, as successors and as predecessors. -/
structure Adjacency where
  /-- The successors of each node. -/
  successors : Array NodeSet
  /-- The predecessors of each node. -/
  predecessors : Array NodeSet
  /-- The tables describe the same nodes. -/
  size_predecessors : predecessors.size = successors.size
  /-- The tables describe the same edges. -/
  mem_successors_iff : ∀ u v, v ∈ neighbours successors u ↔ u ∈ neighbours predecessors v
deriving DecidableEq

namespace Adjacency

/-- The number of nodes. -/
def size (a : Adjacency) : Nat := a.successors.size

/-- There is an edge from `u` to `v`. -/
def Edge (a : Adjacency) (u v : Nat) : Prop := v ∈ neighbours a.successors u

instance (a : Adjacency) (u v : Nat) : Decidable (a.Edge u v) :=
  inferInstanceAs (Decidable (v ∈ neighbours a.successors u))

/-- An edge shows in the table of predecessors. -/
theorem edge_iff_mem_predecessors {a : Adjacency} {u v : Nat} :
    a.Edge u v ↔ u ∈ neighbours a.predecessors v :=
  a.mem_successors_iff u v

/-- Both ends of an edge are nodes. -/
theorem lt_of_edge {a : Adjacency} {u v : Nat} (h : a.Edge u v) : u < a.size ∧ v < a.size :=
  ⟨lt_of_mem_neighbours h,
    Nat.lt_of_lt_of_eq (lt_of_mem_neighbours (edge_iff_mem_predecessors.mp h))
      a.size_predecessors⟩

/-- The graph of `size` nodes without edges. -/
def empty (size : Nat) : Adjacency where
  successors := Array.replicate size ∅
  predecessors := Array.replicate size ∅
  size_predecessors := rfl
  mem_successors_iff u v := by
    have key (n m : Nat) : m ∉ neighbours (Array.replicate size ∅) n := by
      unfold neighbours
      rw [Array.getElem?_replicate]
      split <;> simp
    simp [key]

/-- The graph without edges has the size asked for. -/
@[simp] theorem size_empty (n : Nat) : (empty n).size = n := by
  simp [size, empty]

/-- The graph without edges has none. -/
@[simp] theorem not_edge_empty (n u v : Nat) : ¬ (empty n).Edge u v := by
  unfold Edge empty neighbours
  simp only [Array.getElem?_replicate]
  split <;> simp

/-- The graph with an edge from `u` to `v`. -/
def insert (a : Adjacency) (u v : Nat) (hu : u < a.size) (hv : v < a.size) : Adjacency where
  successors := addNeighbour a.successors u v
  predecessors := addNeighbour a.predecessors v u
  size_predecessors := by simpa using a.size_predecessors
  mem_successors_iff x y := by
    have hv' := Nat.lt_of_lt_of_eq hv a.size_predecessors.symm
    rw [mem_neighbours_addNeighbour hu, mem_neighbours_addNeighbour hv', a.mem_successors_iff,
      and_comm]

/-- Insertion keeps the nodes. -/
@[simp] theorem size_insert (a : Adjacency) (u v : Nat) (hu : u < a.size) (hv : v < a.size) :
    (a.insert u v hu hv).size = a.size :=
  size_addNeighbour a.successors u v

/-- Insertion adds its edge and nothing else. -/
@[simp] theorem edge_insert (a : Adjacency) (u v : Nat) (hu : u < a.size) (hv : v < a.size)
    (x y : Nat) : (a.insert u v hu hv).Edge x y ↔ (x = u ∧ y = v) ∨ a.Edge x y :=
  mem_neighbours_addNeighbour hu

/-- All edges, ordered by their start and then by their end. -/
def edges (a : Adjacency) : List (Nat × Nat) :=
  a.successors.toList.zipIdx.flatMap fun row => row.1.toList.map fun v => (row.2, v)

/-- The listing holds exactly the edges. -/
theorem mem_edges {a : Adjacency} {u v : Nat} : (u, v) ∈ a.edges ↔ a.Edge u v := by
  unfold edges Edge neighbours
  simp only [List.mem_flatMap, List.mem_map, Prod.mk.injEq, Prod.exists,
    List.mem_zipIdx_iff_getElem?, Array.getElem?_toList]
  constructor
  · rintro ⟨s, i, hi, w, hw, rfl, rfl⟩
    simpa [hi] using NodeSet.mem_toList.mp hw
  · intro h
    cases hs : a.successors[u]? with
    | none => simp [hs] at h
    | some s =>
      rw [hs] at h
      exact ⟨s, u, hs, v, h, rfl, rfl⟩

end Adjacency

end PartialRedundancy
