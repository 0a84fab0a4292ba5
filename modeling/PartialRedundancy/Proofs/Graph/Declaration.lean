import PartialRedundancy.Proofs.Graph.Tables

/-!
# What a graph says

A graph says which edges there are and which nodes are used and killed: it says declarations. A
declaration that names nodes of the graph only is said afterwards in addition to what was said
before; any other one fails and changes nothing. Two graphs with as many nodes that say the same are
equal, so what a sequence of declarations makes does not depend on their order.

## Main definitions

* `Declaration.nodes`, `Declaration.InRange` — the nodes that a declaration names, in order, and
  that all of them are nodes of a graph.
* `FlowGraph.Says` — there is the edge, or the node has the mark, that a declaration is about.
* `FlowGraph.Accepted` — a declaration of a sequence that has been accepted.

## Main results

* `FlowGraph.declare_eq_error_iff` — a declaration fails because of the first node out of range.
* `FlowGraph.says_foldl_attempt` — what a graph says after a sequence of declarations.
* `FlowGraph.accepted_iff` — the declarations that are accepted are those in range.
* `FlowGraph.eq_of_says` — a graph is determined by what it says.
* `FlowGraph.edges_eq_iff` — the listing of the edges tells the edges.
* `FlowGraph.build_eq_ok_iff` — a description is of a graph if all its declarations are in range.
* `FlowGraph.pairwise_edges` — the edges are listed in ascending order.
-/

namespace PartialRedundancy

/-! ## Nodes that are named -/

/-- The nodes that a declaration names, in the order in which they are checked. -/
def Declaration.nodes : Declaration → List Nat
  | edge u v => [u, v]
  | used n => [n]
  | killed n => [n]

/-- All nodes that a declaration names are below a size. -/
def Declaration.InRange (size : Nat) (d : Declaration) : Prop := ∀ n ∈ d.nodes, n < size

/-- There is a first node with a property exactly if there is one. -/
lemma Declaration.exists_find?_nodes_iff {d : Declaration} {p : Nat → Prop} [DecidablePred p] :
    (∃ n, d.nodes.find? (fun n => p n) = some n) ↔ ∃ n ∈ d.nodes, p n := by
  rw [← Option.isSome_iff_exists, List.find?_isSome]
  simp only [decide_eq_true_eq]

namespace FlowGraph

variable {g h : FlowGraph} {d d' : Declaration} {e : GraphError} {ds : List Declaration} {n : Nat}

/-- A declaration fails exactly because of the first node that it names out of range. -/
lemma declare_eq_error_iff :
    g.declare d = .error e ↔
      ∃ n, d.nodes.find? (fun n => g.exit < n) = some n ∧ e = .nodeOutOfRange n g.exit := by
  have hle {n : Nat} : n < g.size ↔ ¬ g.exit < n := by
    unfold size exit
    omega
  cases d with
  | edge u v =>
    by_cases hu : g.exit < u
    · simp [declare, Declaration.nodes, hle, hu, eq_comm]
    · by_cases hv : g.exit < v
      · simp [declare, Declaration.nodes, hle, hu, hv, eq_comm]
      · simp [declare, Declaration.nodes, hle, hu, hv]
  | used n | killed n =>
    by_cases hn : g.exit < n
    · simp [declare, Declaration.nodes, hle, hn, eq_comm]
    · simp [declare, Declaration.nodes, hle, hn]

/-- A declaration succeeds exactly if all nodes that it names are nodes of the graph. -/
lemma exists_declare_iff : (∃ h, g.declare d = .ok h) ↔ d.InRange g.size := by
  have hrange : d.InRange g.size ↔ ¬ ∃ n ∈ d.nodes, g.exit < n := by
    unfold Declaration.InRange size exit
    simp only [not_exists, not_and]
    exact forall₂_congr fun n _ => Nat.lt_succ_iff.trans Nat.not_lt.symm
  rw [hrange, ← Declaration.exists_find?_nodes_iff]
  cases hd : g.declare d with
  | ok h =>
    refine iff_of_true ⟨h, rfl⟩ fun ⟨n, hn⟩ => ?_
    cases hd.symm.trans (declare_eq_error_iff.mpr ⟨n, hn, rfl⟩)
  | error e =>
    obtain ⟨n, hn, _⟩ := declare_eq_error_iff.mp hd
    exact iff_of_false (by simp) fun hnone => hnone ⟨n, hn⟩

/-! ## What a graph says -/

/-- There is the edge, or the node has the mark, that a declaration is about. -/
def Says (g : FlowGraph) : Declaration → Prop
  | .edge u v => g.Edge u v
  | .used n => g.used[n]? = some true
  | .killed n => g.killed[n]? = some true

/-- A mark is set in addition to those that were set before. -/
private lemma getElem?_setIfInBounds_eq_true_iff {marks : Array Bool} {m : Nat}
    (hm : m < marks.size) :
    (marks.setIfInBounds m true)[n]? = some true ↔ marks[n]? = some true ∨ n = m := by
  rw [Array.getElem?_setIfInBounds]
  by_cases hmn : m = n
  · subst hmn
    simp [hm]
  · simp [hmn, Ne.symm hmn]

/-- A declaration that is accepted is said in addition to what was said before. -/
lemma says_of_declare (hd : g.declare d = .ok h) : h.Says d' ↔ g.Says d' ∨ d' = d := by
  obtain ⟨u, v, hu, hv, rfl, rfl⟩ | ⟨m, hm, rfl, rfl⟩ | ⟨m, hm, rfl, rfl⟩ := declare_cases hd
  · cases d' with
    | edge x y =>
      simp only [Says, Edge, insertEdge, Adjacency.edge_insert, Declaration.edge.injEq]
      exact or_comm
    | used n | killed n => simp [Says, insertEdge]
  · have hm' : m < g.used.size := Nat.lt_of_lt_of_eq hm g.size_used.symm
    cases d' with
    | used n =>
      rw [Declaration.used.injEq]
      exact getElem?_setIfInBounds_eq_true_iff hm'
    | edge x y | killed n => simp [Says, markUsed, Edge]
  · have hm' : m < g.killed.size := Nat.lt_of_lt_of_eq hm g.size_killed.symm
    cases d' with
    | killed n =>
      rw [Declaration.killed.injEq]
      exact getElem?_setIfInBounds_eq_true_iff hm'
    | edge x y | used n => simp [Says, markKilled, Edge]

/-- A declaration that is made is accepted exactly if it is in range, and changes nothing else. -/
lemma says_attempt :
    (g.attempt d).Says d' ↔ g.Says d' ∨ (d' = d ∧ d'.InRange g.size) := by
  unfold attempt
  cases hd : g.declare d with
  | ok h =>
    have hrange := exists_declare_iff.mp ⟨h, hd⟩
    rw [says_of_declare hd]
    constructor
    · rintro (h | rfl)
      · exact Or.inl h
      · exact Or.inr ⟨rfl, hrange⟩
    · exact Or.imp_right And.left
  | error e =>
    have hrange : ¬ d.InRange g.size := by
      intro hrange
      obtain ⟨h, hh⟩ := exists_declare_iff.mpr hrange
      cases hd.symm.trans hh
    constructor
    · exact Or.inl
    · rintro (h | ⟨rfl, h⟩)
      · exact h
      · exact absurd h hrange

/-- A declaration adds no nodes. -/
@[simp] lemma realCount_attempt (g : FlowGraph) (d : Declaration) :
    (g.attempt d).realCount = g.realCount := by
  unfold attempt
  cases hd : g.declare d with
  | ok h => exact Nat.add_right_cancel (size_declare hd)
  | error e => rfl

/-- Declarations add no nodes. -/
@[simp] lemma realCount_foldl_attempt (ds : List Declaration) (g : FlowGraph) :
    (ds.foldl attempt g).realCount = g.realCount := by
  induction ds generalizing g with
  | nil => rfl
  | cons d ds ih => rw [List.foldl_cons, ih, realCount_attempt]

/-- After a sequence of declarations a graph says what it said before, and the declarations that are
in range.

**Proof sketch.** Induction on the declarations. The size of the graph stays what it is, and so does
what is in range. -/
lemma says_foldl_attempt :
    (ds.foldl attempt g).Says d' ↔ g.Says d' ∨ (d' ∈ ds ∧ d'.InRange g.size) := by
  induction ds generalizing g with
  | nil => simp
  | cons d ds ih =>
    have hsize : (g.attempt d).size = g.size := by simp [size]
    rw [List.foldl_cons, ih, says_attempt, hsize, List.mem_cons, or_assoc, or_and_right]

/-- The declaration has been made and was accepted. -/
def Accepted (g : FlowGraph) (ds : List Declaration) (d : Declaration) : Prop :=
  ∃ before after, ds = before ++ d :: after ∧ ∃ h, (before.foldl attempt g).declare d = .ok h

/-- The declarations that are accepted are those in range. -/
lemma accepted_iff : g.Accepted ds d ↔ d ∈ ds ∧ d.InRange g.size := by
  have hdeclare (before : List Declaration) :
      (∃ h, (before.foldl attempt g).declare d = .ok h) ↔ d.InRange g.size := by
    rw [exists_declare_iff]
    simp [size]
  unfold Accepted
  simp only [hdeclare]
  constructor
  · rintro ⟨before, after, rfl, hrange⟩
    exact ⟨by simp, hrange⟩
  · rintro ⟨hmem, hrange⟩
    obtain ⟨before, after, h⟩ := List.append_of_mem hmem
    exact ⟨before, after, h, hrange⟩

/-- Before any declaration there are only the edge from the entry and the edge to the exit; without
real nodes it is one edge. -/
lemma says_bare {realCount : Nat} :
    (bare realCount).Says d ↔
      d = .edge 0 1 ∨ (0 < realCount ∧ d = .edge realCount (realCount + 1)) := by
  cases d with
  | edge u v =>
    simp only [Says, Edge, bare, Adjacency.edge_insert, Adjacency.not_edge_empty, or_false,
      Declaration.edge.injEq]
    omega
  | used n | killed n => simp [Says, bare, Array.getElem?_replicate]

/-- After any declarations a graph says what it said without them, and those that were accepted. -/
lemma says_foldl_attempt_bare {realCount : Nat} :
    (ds.foldl attempt (bare realCount)).Says d ↔
      (d = .edge 0 1 ∨ (0 < realCount ∧ d = .edge realCount (realCount + 1))) ∨
        (bare realCount).Accepted ds d := by
  rw [says_foldl_attempt, says_bare, accepted_iff]

/-! ## Equality -/

/-- Graphs are equal if their five fields are: the number of real nodes and the four tables. -/
lemma eq_iff_tables : g = h ↔ g.realCount = h.realCount ∧ g.tables = h.tables := by
  constructor
  · rintro rfl
    exact ⟨rfl, rfl⟩
  · rintro ⟨hcount, htables⟩
    obtain ⟨_, ⟨_, _, _, _⟩, _, _, _, _, _, _, _⟩ := g
    obtain ⟨_, ⟨_, _, _, _⟩, _, _, _, _, _, _, _⟩ := h
    simp only [tables, Tables.mk.injEq] at hcount htables
    obtain ⟨rfl, rfl, rfl, rfl⟩ := htables
    subst hcount
    rfl

/-- A table of neighbours is determined by its size and the neighbours. -/
private lemma ext_neighbours {table table' : Array NodeSet} (hsize : table.size = table'.size)
    (h : ∀ n m, m ∈ neighbours table n ↔ m ∈ neighbours table' n) : table = table' := by
  refine Array.ext hsize fun n hn hn' => NodeSet.ext fun m => ?_
  simpa [neighbours, hn, hn'] using h n m

/-- Marks are determined by their number and those that are set. -/
private lemma ext_marks {marks marks' : Array Bool} (hsize : marks.size = marks'.size)
    (h : ∀ n : Nat, marks[n]? = some true ↔ marks'[n]? = some true) : marks = marks' := by
  refine Array.ext hsize fun n hn hn' => Bool.eq_iff_iff.mpr ?_
  simpa [hn, hn'] using h n

/-- The table of successors is determined by the number of the nodes and by the edges. -/
lemma successors_eq (hcount : g.realCount = h.realCount) (hsame : ∀ u v, g.Edge u v ↔ h.Edge u v) :
    g.adjacency.successors = h.adjacency.successors :=
  ext_neighbours
    (g.size_adjacency.trans ((congrArg (· + 2) hcount).trans h.size_adjacency.symm)) hsame

/-- The listings of the edges of two graphs of one size are equal exactly if the edges are. -/
lemma edges_eq_iff (hcount : g.realCount = h.realCount) :
    g.edges = h.edges ↔ ∀ u v, g.Edge u v ↔ h.Edge u v := by
  refine ⟨fun hedges u v => ?_, fun hsame => ?_⟩
  · have hmem : (u, v) ∈ g.edges ↔ (u, v) ∈ h.edges := by rw [hedges]
    exact Adjacency.mem_edges.symm.trans (hmem.trans Adjacency.mem_edges)
  · rw [edges, edges, Adjacency.edges, Adjacency.edges, successors_eq hcount hsame]

/-- A graph is determined by the number of its nodes and by what it says. -/
lemma eq_of_says (hcount : g.realCount = h.realCount) (hsame : ∀ d, g.Says d ↔ h.Says d) :
    g = h := by
  have hsuccessors : g.adjacency.successors = h.adjacency.successors :=
    successors_eq hcount fun u v => hsame (.edge u v)
  have hpredecessors : g.adjacency.predecessors = h.adjacency.predecessors := by
    refine ext_neighbours ?_ fun v u => ?_
    · rw [g.adjacency.size_predecessors, h.adjacency.size_predecessors, hsuccessors]
    · rw [← g.adjacency.mem_successors_iff, ← h.adjacency.mem_successors_iff]
      exact hsame (.edge u v)
  have hused : g.used = h.used :=
    ext_marks (by rw [g.size_used, h.size_used, hcount]) fun n => hsame (.used n)
  have hkilled : g.killed = h.killed :=
    ext_marks (by rw [g.size_killed, h.size_killed, hcount]) fun n => hsame (.killed n)
  refine eq_iff_tables.mpr ⟨hcount, ?_⟩
  rw [tables, tables, hsuccessors, hpredecessors, hused, hkilled]

/-- What any declarations make of a graph only depends on which of them there are. -/
lemma foldl_attempt_congr {ds' : List Declaration} (h : ∀ d, d ∈ ds ↔ d ∈ ds') :
    ds.foldl attempt g = ds'.foldl attempt g := by
  refine eq_of_says (by simp) fun d => ?_
  rw [says_foldl_attempt, says_foldl_attempt, h]

/-! ## Whole descriptions -/

/-- Declarations that may not fail succeed if all of them are in range. -/
lemma foldlM_declare_eq_ok_iff :
    ds.foldlM declare g = .ok h ↔ (∀ d ∈ ds, d.InRange g.size) ∧ h = ds.foldl attempt g := by
  induction ds generalizing g with
  | nil => simp [pure, Except.pure, eq_comm]
  | cons d ds ih =>
    rw [List.foldlM_cons, bind_eq_ok_iff, List.forall_mem_cons, List.foldl_cons]
    simp only [ih]
    constructor
    · rintro ⟨g', hd, hrange, hh⟩
      have hattempt : g.attempt d = g' := by rw [attempt, hd]
      rw [size_declare hd] at hrange
      exact ⟨⟨exists_declare_iff.mp ⟨g', hd⟩, hrange⟩, by rw [hattempt, hh]⟩
    · rintro ⟨⟨hd, hrange⟩, hh⟩
      obtain ⟨g', hd⟩ := exists_declare_iff.mpr hd
      have hattempt : g.attempt d = g' := by rw [attempt, hd]
      rw [hattempt] at hh
      exact ⟨g', hd, by rwa [size_declare hd], hh⟩

/-- A description is of a graph exactly if the graph can be begun and all declarations are in
range. -/
lemma build_eq_ok_iff [Memory] {realCount : Nat} :
    build realCount ds = .ok g ↔ ofRealCount realCount = .ok (bare realCount) ∧
      (∀ d ∈ ds, d.InRange (realCount + 2)) ∧ g = ds.foldl attempt (bare realCount) := by
  rw [build, bind_eq_ok_iff]
  simp only [foldlM_declare_eq_ok_iff]
  constructor
  · rintro ⟨g₀, h₀, hrange, rfl⟩
    obtain ⟨_, rfl⟩ := eq_bare_of_ofRealCount h₀
    exact ⟨h₀, hrange, rfl⟩
  · rintro ⟨h₀, hrange, rfl⟩
    exact ⟨_, h₀, hrange, rfl⟩

/-- The order of the declarations in a description does not matter. -/
lemma build_of_perm [Memory] {realCount : Nat} {ds' : List Declaration} (hds : ds.Perm ds')
    (hg : build realCount ds = .ok g) : build realCount ds' = .ok g := by
  obtain ⟨h₀, hrange, rfl⟩ := build_eq_ok_iff.mp hg
  refine build_eq_ok_iff.mpr ⟨h₀, fun d hd => hrange d (hds.mem_iff.mpr hd), ?_⟩
  exact foldl_attempt_congr fun d => hds.mem_iff

/-! ## The listing of the edges -/

/-- The edges are listed in ascending order, by their start and then by their end, and so none of
them is listed twice. -/
lemma pairwise_edges (g : FlowGraph) :
    g.edges.Pairwise (Prod.Lex (· < ·) (· < ·)) := by
  rw [edges, Adjacency.edges, List.pairwise_flatMap]
  constructor
  · intro row _
    rw [List.pairwise_map]
    exact row.1.ascending.imp fun h => Prod.Lex.right _ h
  · have hrows : (g.adjacency.successors.toList.zipIdx.map Prod.snd).Pairwise (· < ·) := by
      rw [List.zipIdx_map_snd]
      exact List.pairwise_lt_range'
    refine (List.pairwise_map.mp hrows).imp fun hlt x hx y hy => ?_
    obtain ⟨_, _, rfl⟩ := List.mem_map.mp hx
    obtain ⟨_, _, rfl⟩ := List.mem_map.mp hy
    exact Prod.Lex.left _ _ hlt

end FlowGraph

end PartialRedundancy
