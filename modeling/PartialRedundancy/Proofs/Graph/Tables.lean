import PartialRedundancy.Graph.Declaration
import PartialRedundancy.Proofs.Failure

/-!
# Building the tables of a graph

A graph is built by writing into its four tables: two sets for an edge, one mark for an attribute.
Here every place is looked up before it is written to. A declaration that is accepted writes to
places that are there, and its result is the graph with that declaration.

## Main definitions

* `Tables` — the tables of a graph.
* `Tables.new`, `Tables.declare` — the tables before any declaration; one declaration more.
* `FlowGraph.Built` — the graphs that can be built.

## Main results

* `FlowGraph.tables_bare` — the tables before any declaration can be made.
* `FlowGraph.tables_declare` — the tables of an accepted declaration can be made.
* `FlowGraph.Built.size_lt` — a word can hold the numbers of the nodes of a graph that is built.
-/

namespace PartialRedundancy

/-- The tables of a graph. -/
structure Tables where
  /-- The successors of each node. -/
  successors : Array NodeSet
  /-- The predecessors of each node. -/
  predecessors : Array NodeSet
  /-- Whether each node evaluates the expression. -/
  used : Array Bool
  /-- Whether each node changes an operand of the expression. -/
  killed : Array Bool
deriving DecidableEq

namespace Tables

/-- Adds `m` to the set at place `n` of a table. -/
def add (table : Array NodeSet) (n m : Nat) : Except OutOfBounds (Array NodeSet) := do
  let s ← fetch table n
  store table n (s.insert m)

/-- Adds an edge. -/
def insertEdge (t : Tables) (u v : Nat) : Except OutOfBounds Tables := do
  let successors ← add t.successors u v
  let predecessors ← add t.predecessors v u
  return { t with successors := successors, predecessors := predecessors }

/-- Adds a declaration. -/
def declare (t : Tables) : Declaration → Except OutOfBounds Tables
  | .edge u v => t.insertEdge u v
  | .used n => do return { t with used := ← store t.used n true }
  | .killed n => do return { t with killed := ← store t.killed n true }

/-- The tables of a graph with `realCount` real nodes before any declaration. -/
def new (realCount : Nat) : Except OutOfBounds Tables := do
  let size := realCount + 2
  let t ← insertEdge ⟨.replicate size ∅, .replicate size ∅, .replicate size false,
    .replicate size false⟩ 0 1
  if 0 < realCount then t.insertEdge realCount (realCount + 1) else return t

/-- A set of the table can be added to. -/
lemma add_eq {table : Array NodeSet} {n : Nat} (hn : n < table.size) (m : Nat) :
    add table n m = .ok (addNeighbour table n m) := by
  have hmodify : table.setIfInBounds n (table[n].insert m) = addNeighbour table n m := by
    refine Array.ext_getElem? fun i => ?_
    rw [addNeighbour, Array.getElem?_modify, Array.getElem?_setIfInBounds]
    by_cases hi : n = i
    · subst hi
      simp [hn]
    · simp [hi]
  rw [add, fetch_of_lt hn]
  change store table n (table[n].insert m) = _
  rw [store_of_lt hn, hmodify]

/-- An edge between nodes can be added. -/
lemma insertEdge_eq (a : Adjacency) (used killed : Array Bool) {u v : Nat} (hu : u < a.size)
    (hv : v < a.size) : insertEdge ⟨a.successors, a.predecessors, used, killed⟩ u v =
      .ok ⟨(a.insert u v hu hv).successors, (a.insert u v hu hv).predecessors, used, killed⟩ := by
  have hv' : v < a.predecessors.size := Nat.lt_of_lt_of_eq hv a.size_predecessors.symm
  rw [insertEdge, add_eq (show u < a.successors.size from hu), add_eq hv']
  rfl

end Tables

namespace FlowGraph

variable {g h : FlowGraph} {d : Declaration}

/-- The tables of a graph. -/
def tables (g : FlowGraph) : Tables :=
  ⟨g.adjacency.successors, g.adjacency.predecessors, g.used, g.killed⟩

/-- The tables before any declaration can be made. -/
lemma tables_bare (realCount : Nat) : Tables.new realCount = .ok (bare realCount).tables := by
  have hfirst := Tables.insertEdge_eq (Adjacency.empty (realCount + 2))
    (.replicate (realCount + 2) false) (.replicate (realCount + 2) false)
    (u := 0) (v := 1) (by simp) (by simp)
  have hsecond := Tables.insertEdge_eq
    ((Adjacency.empty (realCount + 2)).insert 0 1 (by simp) (by simp))
    (.replicate (realCount + 2) false) (.replicate (realCount + 2) false)
    (u := realCount) (v := realCount + 1) (by simp) (by simp)
  cases realCount with
  | zero => rfl
  | succ n =>
    exact bind_eq_ok_iff.mpr ⟨_, hfirst, hsecond⟩

/-- What a declaration that is accepted does. -/
lemma declare_cases (hd : g.declare d = .ok h) :
    (∃ u v hu hv, d = .edge u v ∧ h = g.insertEdge u v hu hv) ∨
      (∃ n, n < g.size ∧ d = .used n ∧ h = g.markUsed n) ∨
      (∃ n, n < g.size ∧ d = .killed n ∧ h = g.markKilled n) := by
  cases d with
  | edge u v =>
    simp only [declare] at hd
    split at hd
    · rename_i hu
      split at hd
      · rename_i hv
        exact Or.inl ⟨u, v, hu, hv, rfl, (Except.ok.inj hd).symm⟩
      · cases hd
    · cases hd
  | used n =>
    simp only [declare] at hd
    split at hd
    · rename_i hn
      exact Or.inr (Or.inl ⟨n, hn, rfl, (Except.ok.inj hd).symm⟩)
    · cases hd
  | killed n =>
    simp only [declare] at hd
    split at hd
    · rename_i hn
      exact Or.inr (Or.inr ⟨n, hn, rfl, (Except.ok.inj hd).symm⟩)
    · cases hd

/-- A declaration that is accepted can be written into the tables. -/
lemma tables_declare (hd : g.declare d = .ok h) : g.tables.declare d = .ok h.tables := by
  obtain ⟨u, v, hu, hv, rfl, rfl⟩ | ⟨n, hn, rfl, rfl⟩ | ⟨n, hn, rfl, rfl⟩ := declare_cases hd
  · exact Tables.insertEdge_eq g.adjacency g.used g.killed
      (Nat.lt_of_lt_of_eq hu g.size_adjacency.symm) (Nat.lt_of_lt_of_eq hv g.size_adjacency.symm)
  · have hstore := store_of_lt (Nat.lt_of_lt_of_eq hn g.size_used.symm) true
    exact bind_eq_ok_iff.mpr ⟨_, hstore, rfl⟩
  · have hstore := store_of_lt (Nat.lt_of_lt_of_eq hn g.size_killed.symm) true
    exact bind_eq_ok_iff.mpr ⟨_, hstore, rfl⟩

/-- What a graph that can be begun is. -/
lemma eq_bare_of_ofRealCount [Memory] {realCount : Nat} (h : ofRealCount realCount = .ok g) :
    realCount + 2 < wordBound ∧ g = bare realCount := by
  unfold ofRealCount at h
  split at h
  · rename_i hcount
    exact ⟨hcount.1, (Except.ok.inj h).symm⟩
  · cases h

/-- The graphs that can be built, however much space there is for tables: a graph without
declarations whose number of nodes a word can hold, and then any declarations, of which those that
fail are ignored. -/
inductive Built : FlowGraph → Prop
  /-- No declaration is made. -/
  | bare {realCount : Nat} (h : realCount + 2 < wordBound) : Built (bare realCount)
  /-- One more declaration is made. -/
  | attempt {g : FlowGraph} (hg : Built g) (d : Declaration) : Built (g.attempt d)

/-- A graph that can be begun is one that can be built. -/
lemma Built.of_ofRealCount [Memory] {realCount : Nat} (h : ofRealCount realCount = .ok g) :
    g.Built := by
  obtain ⟨hcount, rfl⟩ := eq_bare_of_ofRealCount h
  exact .bare hcount

/-- A declaration that is accepted is one that is made. -/
lemma Built.declare (hg : g.Built) (hd : g.declare d = .ok h) : h.Built := by
  have hattempt := hg.attempt d
  rwa [FlowGraph.attempt, hd] at hattempt

/-- A declaration adds no nodes. -/
lemma size_declare (hd : g.declare d = .ok h) : h.size = g.size := by
  obtain ⟨u, v, hu, hv, rfl, rfl⟩ | ⟨n, hn, rfl, rfl⟩ | ⟨n, hn, rfl, rfl⟩ := declare_cases hd
  · rfl
  · rfl
  · rfl

/-- A word can hold the numbers of the nodes of a graph that is built. -/
lemma Built.size_lt (hg : g.Built) : g.size < wordBound := by
  induction hg with
  | bare h => exact h
  | @attempt g hg d ih =>
    unfold FlowGraph.attempt
    split
    · rename_i h hd
      rwa [size_declare hd]
    · exact ih

end FlowGraph

end PartialRedundancy
