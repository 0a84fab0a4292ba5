import PartialRedundancy.Proofs.Graph.Declaration

/-!
# Building a graph call by call

A graph is built by calls that check their nodes and then write into the tables. An edge is written
in two places, so a call that failed between them would leave tables that disagree on their edges.
Here every check and every write happens at its own time, and what is written before a failure stays
written. Since all checks come before the first write, a call that fails has written nothing.

## Main definitions

* `CallError` — what can stop a call.
* `Tables.Call` — what can be done with tables, with the tables that a failure leaves behind.
* `Tables.call` — the call for a declaration.
* `Tables.Consistent` — tables that can be those of a graph.
* `Tables.after` — tables after a sequence of calls, of which some may fail.
* `Tables.Accepted` — a call of the sequence that has succeeded.

## Main results

* `FlowGraph.call_of_declare_eq_ok`, `FlowGraph.call_of_declare_eq_error` — a call succeeds or fails
  as its declaration does; where it fails, nothing has happened.
* `FlowGraph.tables_after` — the calls lead to the tables of the graph.
* `tables_after_calls` — what holds of the tables after any calls, and of the next call.
-/

namespace PartialRedundancy

/-- What can stop a call on the tables of a graph. -/
inductive CallError
  /-- The call is refused. -/
  | refused (error : GraphError)
  /-- A lookup fails. -/
  | lookup (error : OutOfBounds)
deriving DecidableEq, Repr

namespace Tables

/-- What can be done with tables. If it fails, what it has written until then stays. -/
abbrev Call := EStateM CallError Tables

/-- Refuses a node past the last one. -/
def check (last n : Nat) : Call Unit :=
  if last < n then throw (.refused (.nodeOutOfRange n last)) else return

/-- Writes into the tables. -/
def write (change : Tables → Except OutOfBounds Tables) : Call Unit := do
  let t ← MonadExcept.ofExcept ((change (← get)).mapError CallError.lookup)
  set t

/-- The call for a declaration, on the tables of a graph whose last node is `last`. -/
def call (last : Nat) : Declaration → Call Unit
  | .edge u v => do
    check last u
    check last v
    write fun t => do return { t with successors := ← add t.successors u v }
    write fun t => do return { t with predecessors := ← add t.predecessors v u }
  | .used n => do
    check last n
    write fun t => do return { t with used := ← store t.used n true }
  | .killed n => do
    check last n
    write fun t => do return { t with killed := ← store t.killed n true }

/-- The tables are those of one graph with `realCount` real nodes: they have an entry for every
node, describe the same edges, and name nodes only. -/
structure Consistent (t : Tables) (realCount : Nat) : Prop where
  /-- Every node has its successors. -/
  size_successors : t.successors.size = realCount + 2
  /-- Every node has its predecessors. -/
  size_predecessors : t.predecessors.size = realCount + 2
  /-- Every node has its mark of use. -/
  size_used : t.used.size = realCount + 2
  /-- Every node has its mark of change. -/
  size_killed : t.killed.size = realCount + 2
  /-- An edge is in both tables of neighbours or in none. -/
  transposed (u v : Nat) : v ∈ neighbours t.successors u ↔ u ∈ neighbours t.predecessors v
  /-- No node is past the exit. -/
  le_of_mem (u v : Nat) (h : v ∈ neighbours t.successors u) : u ≤ realCount + 1 ∧ v ≤ realCount + 1

/-- The tables after a sequence of calls, of which some may fail. -/
def after (last : Nat) (t : Tables) (ds : List Declaration) : Tables :=
  ds.foldl (fun t d => stateLeft (call last d t)) t

/-- The call for a declaration has been made and has succeeded. -/
def Accepted (last : Nat) (t : Tables) (ds : List Declaration) (d : Declaration) : Prop :=
  ∃ before after, ds = before ++ d :: after ∧
    ∃ t', call last d (t.after last before) = .ok () t'

variable {t t' : Tables} {last n : Nat} {k : Unit → Call Unit}

/-- A node that is not past the last one is not refused. -/
lemma bind_check_of_le (h : n ≤ last) : (check last n >>= k) t = k () t := by
  rw [check, if_neg (Nat.not_lt.mpr h)]
  rfl

/-- A node past the last one is refused. -/
lemma bind_check_of_lt (h : last < n) :
    (check last n >>= k) t = .error (.refused (.nodeOutOfRange n last)) t := by
  rw [check, if_pos h]
  rfl

/-- What is written is there afterwards. -/
lemma write_of_ok {change : Tables → Except OutOfBounds Tables} (h : change t = .ok t') :
    write change t = .ok () t' := by
  rw [write, bind_get, bind_ofExcept_of_ok (mapError_eq_ok_iff.mpr h)]
  rfl

end Tables

namespace FlowGraph

variable {g h : FlowGraph} {d : Declaration} {e : GraphError}

/-- The call for a declaration that is accepted succeeds, with the tables of the graph that the
declaration makes. -/
lemma call_of_declare_eq_ok (hd : g.declare d = .ok h) :
    Tables.call g.exit d g.tables = .ok () h.tables := by
  have hle {n : Nat} (hn : n < g.size) : n ≤ g.exit := Nat.le_of_lt_succ hn
  obtain ⟨u, v, hu, hv, rfl, rfl⟩ | ⟨n, hn, rfl, rfl⟩ | ⟨n, hn, rfl, rfl⟩ := declare_cases hd
  · have hu' : u < g.tables.successors.size := Nat.lt_of_lt_of_eq hu g.size_adjacency.symm
    have hv' : v < g.tables.predecessors.size :=
      Nat.lt_of_lt_of_eq hv (g.size_adjacency.symm.trans g.adjacency.size_predecessors.symm)
    have hfirst : Tables.write
        (fun t => do return { t with successors := ← Tables.add t.successors u v }) g.tables =
          .ok () { g.tables with successors := addNeighbour g.tables.successors u v } :=
      Tables.write_of_ok (bind_eq_ok_iff.mpr ⟨_, Tables.add_eq hu' v, rfl⟩)
    rw [Tables.call, Tables.bind_check_of_le (hle hu), Tables.bind_check_of_le (hle hv),
      bind_of_ok hfirst]
    exact Tables.write_of_ok (bind_eq_ok_iff.mpr ⟨_, Tables.add_eq hv' u, rfl⟩)
  · rw [Tables.call, Tables.bind_check_of_le (hle hn)]
    have hstore := store_of_lt (Nat.lt_of_lt_of_eq hn g.size_used.symm) true
    exact Tables.write_of_ok (bind_eq_ok_iff.mpr ⟨_, hstore, rfl⟩)
  · rw [Tables.call, Tables.bind_check_of_le (hle hn)]
    have hstore := store_of_lt (Nat.lt_of_lt_of_eq hn g.size_killed.symm) true
    exact Tables.write_of_ok (bind_eq_ok_iff.mpr ⟨_, hstore, rfl⟩)

/-- The call for a declaration that fails is refused for the same reason, and has written nothing:
it checks its nodes first. -/
lemma call_of_declare_eq_error (hd : g.declare d = .error e) :
    Tables.call g.exit d g.tables = .error (.refused e) g.tables := by
  obtain ⟨n, hfind, rfl⟩ := declare_eq_error_iff.mp hd
  cases d with
  | edge u v =>
    by_cases hu : g.exit < u
    · obtain rfl : u = n := by simpa [Declaration.nodes, hu] using hfind
      rw [Tables.call, Tables.bind_check_of_lt hu]
    · obtain ⟨hv, rfl⟩ : g.exit < v ∧ v = n := by simpa [Declaration.nodes, hu] using hfind
      rw [Tables.call, Tables.bind_check_of_le (Nat.not_lt.mp hu), Tables.bind_check_of_lt hv]
  | used m | killed m =>
    obtain ⟨hm, rfl⟩ : g.exit < m ∧ m = n := by simpa [Declaration.nodes] using hfind
    rw [Tables.call, Tables.bind_check_of_lt hm]

/-- A call fails exactly if it names a node past the last one. It reports the first such node and
leaves the tables as they are. -/
lemma call_eq_error_iff {c : CallError} {t : Tables} :
    Tables.call g.exit d g.tables = .error c t ↔
      t = g.tables ∧ ∃ n, d.nodes.find? (fun n => g.exit < n) = some n ∧
        c = .refused (.nodeOutOfRange n g.exit) := by
  constructor
  · intro hcall
    cases hd : g.declare d with
    | ok h => cases (call_of_declare_eq_ok hd).symm.trans hcall
    | error e =>
      cases (call_of_declare_eq_error hd).symm.trans hcall
      obtain ⟨n, hn, rfl⟩ := declare_eq_error_iff.mp hd
      exact ⟨rfl, n, hn, rfl⟩
  · rintro ⟨rfl, n, hn, rfl⟩
    exact call_of_declare_eq_error (declare_eq_error_iff.mpr ⟨n, hn, rfl⟩)

/-- The tables of a graph are consistent. -/
lemma consistent_tables (g : FlowGraph) : g.tables.Consistent g.realCount where
  size_successors := g.size_adjacency
  size_predecessors := g.adjacency.size_predecessors.trans g.size_adjacency
  size_used := g.size_used
  size_killed := g.size_killed
  transposed := g.adjacency.mem_successors_iff
  le_of_mem _ _ h := (g.lt_of_edge h).imp Nat.le_of_lt_succ Nat.le_of_lt_succ

/-- The calls lead to the tables of the graph that the declarations make. -/
lemma tables_after (g : FlowGraph) (ds : List Declaration) :
    g.tables.after g.exit ds = (ds.foldl attempt g).tables := by
  induction ds generalizing g with
  | nil => rfl
  | cons d ds ih =>
    have hstate : stateLeft (Tables.call g.exit d g.tables) = (g.attempt d).tables := by
      unfold attempt
      cases hd : g.declare d with
      | ok h => rw [call_of_declare_eq_ok hd]; rfl
      | error e => rw [call_of_declare_eq_error hd]; rfl
    have hexit : g.exit = (g.attempt d).exit := by simp [exit]
    rw [List.foldl_cons, ← ih, ← hexit, ← hstate]
    rfl

/-- The calls that succeed are those for the declarations that are accepted. -/
lemma accepted_tables_iff {ds : List Declaration} :
    g.tables.Accepted g.exit ds d ↔ g.Accepted ds d := by
  have hcall (before : List Declaration) :
      (∃ t', Tables.call g.exit d (g.tables.after g.exit before) = .ok () t') ↔
        ∃ h, (before.foldl attempt g).declare d = .ok h := by
    have hexit : g.exit = (before.foldl attempt g).exit := by simp [exit]
    rw [tables_after, hexit]
    cases hd : (before.foldl attempt g).declare d with
    | ok h => simp [call_of_declare_eq_ok hd]
    | error e => simp [call_of_declare_eq_error hd]
  unfold Tables.Accepted FlowGraph.Accepted
  simp only [hcall]

end FlowGraph

/-- **The tables of a graph stay consistent, and a call that fails leaves them alone.** Take a graph
with any number `N` of real nodes and any sequence of calls. Then all four tables have `N + 2`
entries, the two tables of neighbours describe the same edges, and nobody has a neighbour past
`N + 1`. The edges are listed in strictly ascending order, by their start and then by their end. They
are the edge from the entry, the one to the exit, and those of the calls that succeeded; in the same
way the marks are those of the calls that succeeded. The next call fails exactly if it names a node
past `N + 1`; then it reports the first such node and `N + 1`, and the tables are what they were. It
does to the tables what its declaration does to the graph. -/
theorem tables_after_calls [Memory] (N : Nat) (ds : List Declaration) :
    ∃ t₀ t g, Tables.new N = .ok t₀ ∧ t₀.after (N + 1) ds = t ∧
      ds.foldl FlowGraph.attempt (.bare N) = g ∧ g.tables = t ∧
      (∀ g₀, FlowGraph.ofRealCount N = .ok g₀ → g₀.tables = t₀ ∧ g₀ = .bare N) ∧
      t.Consistent N ∧
      (g.edges.Pairwise (Prod.Lex (· < ·) (· < ·)) ∧
        ∀ u v, (u, v) ∈ g.edges ↔ v ∈ neighbours t.successors u) ∧
      (∀ u v, v ∈ neighbours t.successors u ↔
        (u, v) = (0, 1) ∨ (0 < N ∧ (u, v) = (N, N + 1)) ∨ t₀.Accepted (N + 1) ds (.edge u v)) ∧
      (∀ n : Nat, t.used[n]? = some true ↔ t₀.Accepted (N + 1) ds (.used n)) ∧
      (∀ n : Nat, t.killed[n]? = some true ↔ t₀.Accepted (N + 1) ds (.killed n)) ∧
      ∀ d, (Tables.call (N + 1) d t = match g.declare d with
          | .ok h => .ok () h.tables
          | .error e => .error (.refused e) t) ∧
        ((∃ e t', Tables.call (N + 1) d t = .error e t') ↔ ∃ n ∈ d.nodes, N + 1 < n) ∧
        ∀ e t', Tables.call (N + 1) d t = .error e t' → t' = t ∧
          ∃ n, d.nodes.find? (fun n => N + 1 < n) = some n ∧
            e = .refused (.nodeOutOfRange n (N + 1)) := by
  set g := ds.foldl FlowGraph.attempt (.bare N) with hg
  have hcount : g.realCount = N := by simp [hg, FlowGraph.bare]
  have hexit : g.exit = N + 1 := congrArg (· + 1) hcount
  have hdescribed (d : Declaration) : g.Says d ↔
      (d = .edge 0 1 ∨ (0 < N ∧ d = .edge N (N + 1))) ∨
        (FlowGraph.bare N).tables.Accepted (N + 1) ds d :=
    FlowGraph.says_foldl_attempt_bare.trans (or_congr_right FlowGraph.accepted_tables_iff.symm)
  refine ⟨(FlowGraph.bare N).tables, g.tables, g, FlowGraph.tables_bare N,
    FlowGraph.tables_after (.bare N) ds, rfl, rfl, fun g₀ h₀ => ?_,
    hcount ▸ g.consistent_tables, ⟨g.pairwise_edges, fun u v => Adjacency.mem_edges⟩,
    fun u v => ?_, fun n => ?_, fun n => ?_, fun d => ⟨?_, ?_, fun e t' hcall => ?_⟩⟩
  · obtain ⟨_, rfl⟩ := FlowGraph.eq_bare_of_ofRealCount h₀
    exact ⟨rfl, rfl⟩
  · refine (hdescribed (.edge u v)).trans ?_
    simp [or_assoc]
  · refine (hdescribed (.used n)).trans ?_
    simp
  · refine (hdescribed (.killed n)).trans ?_
    simp
  · rw [← hexit]
    cases hd : g.declare d with
    | ok h => exact FlowGraph.call_of_declare_eq_ok hd
    | error e => exact FlowGraph.call_of_declare_eq_error hd
  · rw [← hexit, ← Declaration.exists_find?_nodes_iff]
    simp only [FlowGraph.call_eq_error_iff]
    constructor
    · rintro ⟨_, _, _, n, hn, _⟩
      exact ⟨n, hn⟩
    · rintro ⟨n, hn⟩
      exact ⟨_, _, rfl, n, hn, rfl⟩
  · rw [← hexit] at hcall ⊢
    exact FlowGraph.call_eq_error_iff.mp hcall

end PartialRedundancy
