import Mathlib.Data.Nat.Find
import PartialRedundancy.Proofs.Dataflow.Region

/-!
# Paths

A path of `k` edges is given by the node at each of its positions `0, …, k`. Nodes may repeat.

## Main definitions

* `FlowGraph.Path` — consecutive nodes are joined by edges.
* `prepend` — the nodes of a path with one more in front.

## Main results

* `FlowGraph.Path.of_le` — the first part of a path is a path.
* `FlowGraph.Path.prepend`, `FlowGraph.Path.extend` — an edge in front of a path, or behind it.
* `FlowGraph.exists_path` — a node that can be reached is reached by a path.
* `FlowGraph.Path.region_forward`, `FlowGraph.Path.region_backward` — a forward run resolves the
  nodes of a path from the entry, and a backward run those of a path to a node that it resolves.
* `exists_last` — the last position with some property.
-/

namespace PartialRedundancy

/-- The nodes `p 0, …, p k` are a path. -/
def FlowGraph.Path (g : FlowGraph) (p : Nat → Nat) (k : Nat) : Prop :=
  ∀ i < k, g.Edge (p i) (p (i + 1))

namespace FlowGraph.Path

variable {g : FlowGraph} {p : Nat → Nat} {k i : Nat} {seeding : Seeding}

/-- The first part of a path is a path. -/
lemma of_le (hp : g.Path p k) (hi : i ≤ k) : g.Path p i := by
  intro j hj
  exact hp j (by omega)

/-- A forward run resolves all nodes of a path from the entry. -/
lemma region_forward (hp : g.Path p k) (h0 : p 0 = g.entry) (hi : i ≤ k) :
    Direction.forward.Region g seeding (p i) := by
  induction i with
  | zero =>
    rw [h0]
    exact Direction.forward.region_boundary g seeding
  | succ i ih => exact (ih (by omega)).reader (hp i (by omega))

/-- A backward run resolves all nodes of a path to a node that it resolves. -/
lemma region_backward (hp : g.Path p k) (hk : Direction.backward.Region g seeding (p k))
    (hi : i ≤ k) : Direction.backward.Region g seeding (p i) := by
  induction hd : k - i generalizing i with
  | zero =>
    obtain rfl : i = k := by omega
    exact hk
  | succ d ih => exact (ih (by omega) (by omega)).reader (hp i (by omega))

end FlowGraph.Path

/-! ## Longer paths -/

/-- The nodes `m, p 0, p 1, …`. -/
def prepend (m : Nat) (p : Nat → Nat) : Nat → Nat
  | 0 => m
  | i + 1 => p i

/-- An edge to the start of a path makes the path longer. -/
lemma FlowGraph.Path.prepend {g : FlowGraph} {m : Nat} {p : Nat → Nat} {k : Nat}
    (h : g.Edge m (p 0)) (hp : g.Path p k) : g.Path (PartialRedundancy.prepend m p) (k + 1) := by
  rintro (_ | i) hi
  · exact h
  · exact hp i (by omega)

/-- An edge from the end of a path makes the path longer. -/
lemma FlowGraph.Path.extend {g : FlowGraph} {n : Nat} {p : Nat → Nat} {k : Nat} (hp : g.Path p k)
    (h : g.Edge (p k) n) : g.Path (Function.update p (k + 1) n) (k + 1) := by
  intro i hi
  rcases Nat.lt_succ_iff_lt_or_eq.mp hi with hi | rfl
  · rw [Function.update_of_ne (by omega), Function.update_of_ne (by omega)]
    exact hp i hi
  · rwa [Function.update_self, Function.update_of_ne (by omega)]

/-- An edge is a path. -/
lemma FlowGraph.path_of_edge {g : FlowGraph} {m n : Nat} (h : g.Edge m n) :
    g.Path (PartialRedundancy.prepend m fun _ => n) 1 := by
  intro i hi
  obtain rfl : i = 0 := Nat.lt_one_iff.mp hi
  exact h

/-- A node that can be reached is reached by a path. -/
lemma FlowGraph.exists_path {g : FlowGraph} {m n : Nat} (h : Relation.ReflTransGen g.Edge m n) :
    ∃ (p : Nat → Nat) (k : Nat), g.Path p k ∧ p 0 = m ∧ p k = n := by
  induction h using Relation.ReflTransGen.head_induction_on with
  | refl => exact ⟨fun _ => n, 0, fun i hi => absurd hi (Nat.not_lt_zero i), rfl, rfl⟩
  | @head m l h _ ih =>
    obtain ⟨p, k, hp, rfl, hk⟩ := ih
    exact ⟨PartialRedundancy.prepend m p, k + 1, hp.prepend h, rfl, hk⟩

/-- Of the positions with a property there is a last one. -/
lemma exists_last {Q : Nat → Prop} [DecidablePred Q] {i k : Nat} (hi : i ≤ k) (hQ : Q i) :
    ∃ l, i ≤ l ∧ l ≤ k ∧ Q l ∧ ∀ j, l < j → j ≤ k → ¬ Q j :=
  ⟨Nat.findGreatest Q k, Nat.le_findGreatest hi hQ, Nat.findGreatest_le k,
    Nat.findGreatest_spec hi hQ, fun _ => Nat.findGreatest_is_greatest⟩

end PartialRedundancy
