import Mathlib.Data.List.Forall2
import PartialRedundancy.Graph.Basic

/-!
# Chains of checked lookups

What it takes for a chain of lookups to succeed: every link of it does.

## Main results

* `bind_eq_ok_iff`, `pure_eq_ok_iff`, `map_eq_ok_iff` — two steps in a row, no step at all, and
  a step whose result is changed.
* `mapM_eq_ok_iff` — one step for each element of a list.
* `FlowGraph.isUsed_eq`, `FlowGraph.isKilled_eq` — the attributes of the nodes of a graph can
  always be looked up; `FlowGraph.isUsed_eq_iff`, `FlowGraph.isKilled_eq_iff` compare two graphs.
-/

namespace PartialRedundancy

variable {ε α β : Type}

/-- Two steps in a row succeed exactly if the first one does, and the second one after it. -/
@[simp] lemma bind_eq_ok_iff {x : Except ε α} {f : α → Except ε β} {b : β} :
    (x >>= f) = .ok b ↔ ∃ a, x = .ok a ∧ f a = .ok b := by
  cases x <;> simp [bind, Except.bind]

/-- A step that does nothing succeeds with what it is given. -/
@[simp] lemma pure_eq_ok_iff {a b : α} : (pure a : Except ε α) = .ok b ↔ a = b := by
  simp [pure, Except.pure]

/-- A step that only changes its result succeeds exactly if it can be made. -/
@[simp] lemma map_eq_ok_iff {x : Except ε α} {f : α → β} {b : β} :
    f <$> x = .ok b ↔ ∃ a, x = .ok a ∧ f a = b := by
  cases x <;> simp [Functor.map, Except.map]

/-- A traversal succeeds exactly if each of its steps does. -/
lemma mapM_eq_ok_iff {f : α → Except ε β} {l : List α} {k : List β} :
    l.mapM f = .ok k ↔ List.Forall₂ (fun a b => f a = .ok b) l k := by
  induction l generalizing k with
  | nil => cases k <;> simp
  | cons a l ih =>
    rw [List.mapM_cons]
    cases k with
    | nil => simp
    | cons b k =>
      simp only [bind_eq_ok_iff, pure_eq_ok_iff, List.forall₂_cons, ← ih, List.cons.injEq]
      constructor
      · rintro ⟨_, hb, _, hk, rfl, rfl⟩
        exact ⟨hb, hk⟩
      · rintro ⟨hb, hk⟩
        exact ⟨b, hb, k, hk, rfl, rfl⟩

/-- A traversal whose steps all succeed does. -/
lemma exists_mapM_eq_ok {f : α → Except ε β} {l : List α} (h : ∀ a ∈ l, ∃ b, f a = .ok b) :
    ∃ k, l.mapM f = .ok k := by
  induction l with
  | nil => exact ⟨[], rfl⟩
  | cons a l ih =>
    obtain ⟨b, hb⟩ := h a (by simp)
    obtain ⟨k, hk⟩ := ih fun a' ha' => h a' (by simp [ha'])
    exact ⟨b :: k, by rw [List.mapM_cons]; simp [hb, hk]⟩

/-- What a traversal makes of the elements of a list, each together with its element. -/
lemma mem_of_mapM_eq_ok {f : α → Except ε β} {l : List α} {k : List β}
    (h : l.mapM f = .ok k) {b : β} : b ∈ k ↔ ∃ a ∈ l, f a = .ok b := by
  rw [mapM_eq_ok_iff] at h
  induction h with
  | nil => simp
  | cons hab _ ih =>
    rw [List.mem_cons, ih]
    constructor
    · rintro (rfl | ⟨a', ha', hb⟩)
      · exact ⟨_, by simp, hab⟩
      · exact ⟨a', by simp [ha'], hb⟩
    · rintro ⟨a', ha', hb⟩
      rcases List.mem_cons.mp ha' with rfl | ha'
      · rw [hab, Except.ok.injEq] at hb
        exact Or.inl hb.symm
      · exact Or.inr ⟨a', ha', hb⟩

/-- Below the size a replacement succeeds. -/
lemma store_of_lt {xs : Array α} {i : Nat} (h : i < xs.size) (x : α) :
    store xs i x = .ok (xs.setIfInBounds i x) :=
  if_pos h

/-- A lookup in a table of some size fails exactly at the places that are not below this size. -/
lemma fetch_eq_error_iff_of_size {xs : Array α} {size i : Nat} {e : OutOfBounds}
    (h : xs.size = size) : fetch xs i = .error e ↔ size ≤ i ∧ e = ⟨size, i⟩ := by
  subst h
  exact fetch_eq_error_iff

namespace FlowGraph

/-- The nodes that evaluate the expression are those with the mark. -/
lemma mem_usedNodes {g : FlowGraph} {n : Nat} :
    n ∈ g.usedNodes ↔ n < g.size ∧ g.used[n]? = some true := by
  simp [usedNodes, nodes]

/-- The nodes that change an operand are those with the mark. -/
lemma mem_killedNodes {g : FlowGraph} {n : Nat} :
    n ∈ g.killedNodes ↔ n < g.size ∧ g.killed[n]? = some true := by
  simp [killedNodes, nodes]

/-- Whether a node of the graph evaluates the expression. -/
lemma isUsed_eq {g : FlowGraph} {n : Nat} (hn : n < g.size) :
    g.isUsed n = .ok (decide (n ∈ g.usedNodes)) := by
  have hs : n < g.used.size := Nat.lt_of_lt_of_eq hn g.size_used.symm
  rw [isUsed, fetch_of_lt hs]
  simp [mem_usedNodes, hn, hs]

/-- Whether a node of the graph changes an operand. -/
lemma isKilled_eq {g : FlowGraph} {n : Nat} (hn : n < g.size) :
    g.isKilled n = .ok (decide (n ∈ g.killedNodes)) := by
  have hs : n < g.killed.size := Nat.lt_of_lt_of_eq hn g.size_killed.symm
  rw [isKilled, fetch_of_lt hs]
  simp [mem_killedNodes, hn, hs]

/-- Whether a node is used is the same in two graphs exactly if its mark is. -/
lemma isUsed_eq_iff {g g' : FlowGraph} {n : Nat} (hn : n < g.size) (hn' : n < g'.size) :
    g.isUsed n = g'.isUsed n ↔ (n ∈ g.usedNodes ↔ n ∈ g'.usedNodes) := by
  rw [isUsed_eq hn, isUsed_eq hn', Except.ok.injEq, decide_eq_decide]

/-- Whether a node is killed is the same in two graphs exactly if its mark is. -/
lemma isKilled_eq_iff {g g' : FlowGraph} {n : Nat} (hn : n < g.size) (hn' : n < g'.size) :
    g.isKilled n = g'.isKilled n ↔ (n ∈ g.killedNodes ↔ n ∈ g'.killedNodes) := by
  rw [isKilled_eq hn, isKilled_eq hn', Except.ok.injEq, decide_eq_decide]

/-- Real nodes are nodes. -/
lemma lt_of_mem_realNodes {g : FlowGraph} {n : Nat} (hn : n ∈ g.realNodes) : n < g.size := by
  rw [realNodes, NodeSet.mem_interval] at hn
  unfold size
  omega

/-- Real nodes are nodes, also of another graph of the same size. -/
lemma lt_of_isReal {g g' : FlowGraph} {n : Nat} (hn : g.isReal n = true)
    (hcount : g.realCount = g'.realCount) : n < g'.size := by
  have hlt : n < g.size := lt_of_mem_realNodes (mem_realNodes.mpr hn)
  exact Nat.lt_of_lt_of_eq hlt (congrArg (· + 2) hcount)

/-- The real nodes are the nodes other than the entry and the exit. -/
lemma isReal_iff {g : FlowGraph} {n : Nat} (hn : n < g.size) :
    g.isReal n = true ↔ n ≠ g.entry ∧ n ≠ g.exit := by
  simp only [isReal, Bool.and_eq_true, decide_eq_true_iff, entry, exit]
  unfold size at hn
  omega

end FlowGraph

end PartialRedundancy
