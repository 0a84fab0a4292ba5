import PartialRedundancy.Proofs.Motion.Cost
import PartialRedundancy.Proofs.Motion.Temporary

/-!
# Where isolated insertions sit

Lazy code motion leaves an insertion as a plain computation if no other node reads its value. Such
an isolated insertion is a computation of the node itself if the node uses the expression. A node
without a use can have one as well: the insertion is made there for the sake of a successor, and on
every way from that successor to the exit busy code motion inserts anew before any use, at a join
into which the insertion cannot be put off. If the joins of the graph are split there are no such
ways, and the exit cannot be reached from the successor.

## Main definitions

* `FlowGraph.EntersBusyJoin` — a step into an insertion that busy code motion makes for the sake of
  another predecessor.
* `Vectors.Idle` — the value is available, and is not read before the next insertion.

## Main results

* `Vectors.Computed.idle_or_entersBusyJoin` — what one step of a path preserves.
* `Vectors.Computed.exists_entersBusyJoin` — where a path to the exit stops being idle.
* `mem_used_or_exists_edge_of_mem_isolated` — the two kinds of isolated insertions.
* `not_mem_used_of_mem_isolated` — there are isolated insertions without a use.
-/

namespace PartialRedundancy

/-- The step from `m` to `n` leads into an insertion of busy code motion, and `n` has another
predecessor, which changes an operand, or is the exit, or leads elsewhere as well. -/
def FlowGraph.EntersBusyJoin (g : FlowGraph) (P : Placement) (m n : Nat) : Prop :=
  n ∈ P.busy ∧ ∃ q < g.size, g.Edge q n ∧ q ≠ m ∧
    (q ∈ g.killedNodes ∨ q = g.exit ∨ g.Branches q n)

instance (g : FlowGraph) (P : Placement) (m n : Nat) : Decidable (g.EntersBusyJoin P m n) :=
  inferInstanceAs (Decidable (_ ∧ _))

/-- If the joins are split, no step is of this kind. -/
lemma FlowGraph.JoinsSplit.not_entersBusyJoin {g : FlowGraph} (h : g.JoinsSplit) {P : Placement}
    {m n : Nat} (hmn : g.Edge m n) : ¬ g.EntersBusyJoin P m n :=
  fun hjoin => h.not_shares hmn (Or.inr hjoin)

namespace Vectors

/-- The value of the expression is available at node `n` and sure to be used, but neither at `n`
nor anywhere before the next insertion. -/
def Idle (V : Vectors) (g : FlowGraph) (n : Nat) : Prop :=
  V.Pending n ∧ n ∉ g.usedNodes ∧ V.isolated.Holds n

namespace Computed

variable {g : FlowGraph} {V : Vectors} {P : Placement} {m n : Nat} {p : Nat → Nat} {i k : Nat}

/-! ## One step -/

/-- Lazy code motion does not insert at a node where the value is available. -/
lemma not_mem_lazy_of_pending (h : V.Computed g .eager) (hP : Placement.classify g V = .ok P)
    (hm : V.Pending m) : m ∉ P.lazy := by
  intro hl
  have hlatest := (Placement.mem_lazy_of_classify h hP).mp hl
  exact hm.2 (h.holds_latest.mp hlatest).2.1

/-- If the isolated insertion of a node without a use is not put off to a successor, the successor
is idle. -/
lemma idle_of_edge (h : V.Computed g .eager) (hmn : g.Edge m n) (hsafe : V.downSafety.Holds m)
    (hu : m ∉ g.usedNodes) (hi : V.isolated.Holds m) (hn : ¬ V.delay.Holds n) : V.Idle g n := by
  have hnlt : n < g.size := (FlowGraph.lt_of_edge hmn).2
  have hlatest : ¬ V.latest.Holds n := fun hl => hn (h.holds_latest.mp hl).2.1
  obtain ⟨hun, hin⟩ := h.isolated_of_not_latest hmn (h.ne_exit_of_safe hsafe) hnlt hi hlatest
  exact ⟨⟨(h.safe_of_edge hsafe hu).2 n hmn hnlt, hn⟩, hun, hin⟩

/-- What one step of a path preserves: from an idle node it leads to an idle node, unless it leads
into an insertion for the sake of another predecessor. -/
lemma idle_or_entersBusyJoin (h : V.Computed g .eager) (hP : Placement.classify g V = .ok P)
    (hmn : g.Edge m n) (hm : V.Idle g m) : V.Idle g n ∨ g.EntersBusyJoin P m n := by
  obtain ⟨hpending, hu, hi⟩ := hm
  by_cases hjoin : g.EntersBusyJoin P m n
  · exact Or.inr hjoin
  · have hshare : ¬ g.Shares P m n := by
      rintro (⟨hl, _⟩ | hjoin')
      · exact h.not_mem_lazy_of_pending hP hpending hl
      · exact hjoin hjoin'
    have hn : V.Pending n := h.pending_of_pending hP hmn hpending hu hshare
    exact Or.inl (h.idle_of_edge hmn hpending.1 hu hi hn.2)

/-! ## A whole path -/

/-- A path from an idle node stays idle until it enters a join with an insertion.

**Proof sketch.** Induction on the length of the path; once the path has entered such a join there
is nothing more to show. -/
lemma idle_or_exists_entersBusyJoin (h : V.Computed g .eager)
    (hP : Placement.classify g V = .ok P) (hp : g.Path p k) (h0 : V.Idle g (p 0)) :
    V.Idle g (p k) ∨
      ∃ i < k, (∀ j ≤ i, V.Idle g (p j)) ∧ g.EntersBusyJoin P (p i) (p (i + 1)) := by
  by_contra hnone
  push Not at hnone
  obtain ⟨hend, hnone⟩ := hnone
  have hidle (i : Nat) (hi : i ≤ k) : ∀ j ≤ i, V.Idle g (p j) := by
    induction i with
    | zero =>
      intro j hj
      rwa [Nat.le_zero.mp hj]
    | succ i ih =>
      have hbefore := ih (by omega)
      intro j hj
      rcases Nat.le_succ_iff.mp hj with hj | rfl
      · exact hbefore j hj
      · exact (h.idle_or_entersBusyJoin hP (hp i hi) (hbefore i le_rfl)).resolve_right
          (hnone i hi hbefore)
  exact hend (hidle k le_rfl k le_rfl)

/-- A path from an idle node to the exit enters a join with an insertion, and before that it passes
neither uses, nor changes of an operand, nor insertions of lazy code motion. -/
lemma exists_entersBusyJoin (h : V.Computed g .eager) (hP : Placement.classify g V = .ok P)
    (hp : g.Path p k) (h0 : V.Idle g (p 0)) (hk : p k = g.exit) :
    ∃ i < k, (∀ j ≤ i, p j ∉ g.usedNodes ∧ p j ∉ g.killedNodes ∧ p j ∉ P.lazy) ∧
      g.EntersBusyJoin P (p i) (p (i + 1)) := by
  rcases h.idle_or_exists_entersBusyJoin hP hp h0 with hend | ⟨i, hik, hidle, hjoin⟩
  · -- the value is not sure to be used at the exit
    exact absurd hk (h.ne_exit_of_safe hend.1.1)
  · refine ⟨i, hik, fun j hj => ?_, hjoin⟩
    obtain ⟨hpending, hu, _⟩ := hidle j hj
    exact ⟨hu, (h.safe_of_edge hpending.1 hu).1, h.not_mem_lazy_of_pending hP hpending⟩

/-- An isolated insertion at a reachable node without a use is made for the sake of a successor
that is idle. -/
lemma exists_idle_of_isolated (h : V.Computed g .eager) (hn : Direction.forward.Reached g n)
    (hl : V.latest.Holds n) (hi : V.isolated.Holds n) (hu : n ∉ g.usedNodes) :
    ∃ s, g.Edge n s ∧ V.Idle g s := by
  obtain ⟨_, hd, hlast⟩ := h.holds_latest.mp hl
  obtain ⟨s, hs, hds⟩ := hlast.resolve_left hu
  have hnlt : n < g.size := (FlowGraph.lt_of_edge hs).1
  obtain ⟨p, k, hp, h0, rfl⟩ := FlowGraph.exists_path hn
  have hsafe : V.downSafety.Holds (p k) := h.safe_of_delay hp h0 hnlt hd
  exact ⟨s, hs, h.idle_of_edge hs hsafe hu hi hds⟩

end Computed

end Vectors

/-! ## Finished sessions -/

/-- **Where isolated insertions sit.** Every graph has finished eager sessions. In each of them,
take a node that can be reached from the entry and that has an isolated insertion. Either it uses
the expression, or it has a successor such that on every path from there to the exit busy code
motion inserts at a join before any use, any change of an operand and any insertion of lazy code
motion. If the joins of the graph are split and the exit can be reached from all its successors, the
node uses the expression. -/
theorem mem_used_or_exists_edge_of_mem_isolated (g : FlowGraph) :
    (∃ V P, Finished g .eager V P) ∧
    ∀ V P, Finished g .eager V P → ∀ n ∈ P.isolated, Direction.forward.Reached g n →
      (n ∈ g.usedNodes ∨ ∃ s, g.Edge n s ∧ ∀ (p : Nat → Nat) (k : Nat), g.Path p k → p 0 = s →
        p k = g.exit →
        ∃ i < k, (∀ j ≤ i, p j ∉ g.usedNodes ∧ p j ∉ g.killedNodes ∧ p j ∉ P.lazy) ∧
          g.EntersBusyJoin P (p i) (p (i + 1))) ∧
      (g.JoinsSplit → (∀ s, g.Edge n s → Direction.backward.Reached g s) → n ∈ g.usedNodes) := by
  refine ⟨exists_finished g .eager, fun V P hfinished n hn hreached => ?_⟩
  obtain ⟨hV, hP⟩ := hfinished.computed
  obtain ⟨_, _, hisolated, _⟩ := Placement.mem_of_classify (n := n) hV hP
  obtain ⟨hl, hi⟩ := hisolated.mp hn
  by_cases hu : n ∈ g.usedNodes
  · exact ⟨Or.inl hu, fun _ _ => hu⟩
  obtain ⟨s, hs, hidle⟩ := hV.exists_idle_of_isolated hreached hl hi hu
  refine ⟨Or.inr ⟨s, hs, fun p k hp h0 hk => ?_⟩, fun hsplit hexit => ?_⟩
  · exact hV.exists_entersBusyJoin hP hp (h0 ▸ hidle) hk
  · obtain ⟨p, k, hp, h0, hk⟩ := FlowGraph.exists_path (hexit s hs)
    obtain ⟨i, hik, _, hjoin⟩ := hV.exists_entersBusyJoin hP hp (h0 ▸ hidle) hk
    exact absurd hjoin (hsplit.not_entersBusyJoin (hp i hik))

/-- Two joins in a row: the arms 2 and 3 meet at node 4, and node 4 and the bypass 5 meet at the
use 6. -/
def twoJoins : FlowGraph :=
  [Declaration.edge 1 2, .edge 1 3, .edge 1 5, .edge 2 4, .edge 3 4, .edge 4 6, .edge 5 6,
    .killed 1, .killed 5, .used 3, .used 6].foldl FlowGraph.attempt (.bare 6)

/-- The insertions of the two arms and the one at the last use are isolated. -/
lemma exists_finished_twoJoins : ∃ V, Finished twoJoins .eager V
    ⟨.ofList [2, 3, 6], ∅, .ofList [2, 3, 6], ∅⟩ := by
  have hplacement : ((Session.new twoJoins ⟨.eager⟩).after [.runAll]).placement =
      .ok ⟨.ofList [2, 3, 6], ∅, .ofList [2, 3, 6], ∅⟩ := rfl
  exact exists_finished_of_placement _ hplacement

/-- The insertion at node 2 comes to nothing where the path enters the second join. If the joins are
split, the isolated insertion is at the use behind the join. -/
theorem entersBusyJoin_twoJoins :
    (2 ∉ twoJoins.usedNodes ∧ twoJoins.EntersBusyJoin
      ⟨.ofList [2, 3, 6], ∅, .ofList [2, 3, 6], ∅⟩ 4 6) ∧
    (useAfterJoin.JoinsSplit ∧ 4 ∈ useAfterJoin.usedNodes) := by
  refine ⟨⟨by decide, ?_⟩, by decide, ?_⟩
  · obtain ⟨V, hV⟩ := exists_finished_twoJoins
    have hreached : Direction.forward.Reached twoJoins 2 :=
      .tail (.single (show twoJoins.Edge 0 1 by decide)) (show twoJoins.Edge 1 2 by decide)
    have hplace := ((mem_used_or_exists_edge_of_mem_isolated twoJoins).2 V _ hV 2 (by decide)
      hreached).1
    obtain ⟨s, hs, hpaths⟩ := hplace.resolve_left (by decide)
    have honly : ∀ s < twoJoins.size, twoJoins.Edge 2 s → s = 4 := by decide
    obtain rfl := honly s (FlowGraph.lt_of_edge hs).2 hs
    obtain ⟨i, hi, _, hjoin⟩ := hpaths (fun i => [4, 6, 7].getD i 0) 2
      (by unfold FlowGraph.Path; decide) rfl rfl
    -- the path enters the join with its first step, since its second one is to the exit
    obtain rfl | rfl : i = 0 ∨ i = 1 := by omega
    · exact hjoin
    · exact absurd hjoin (by decide)
  · have hplacement : ((Session.new useAfterJoin ⟨.eager⟩).after [.runAll]).placement =
        .ok ⟨.ofList [2, 3], ∅, .ofList [4], ∅⟩ := rfl
    obtain ⟨V, hV⟩ := exists_finished_of_placement _ hplacement
    have hreached : Direction.forward.Reached useAfterJoin 4 :=
      .tail (.tail (.single (show useAfterJoin.Edge 0 1 by decide))
        (show useAfterJoin.Edge 1 2 by decide)) (show useAfterJoin.Edge 2 4 by decide)
    have honly : ∀ s < useAfterJoin.size, useAfterJoin.Edge 4 s → s = useAfterJoin.exit := by decide
    refine ((mem_used_or_exists_edge_of_mem_isolated useAfterJoin).2 V _ hV 4 (by decide)
      hreached).2 (by decide) fun s hs => ?_
    rw [honly s (FlowGraph.lt_of_edge hs).2 hs]
    exact Direction.backward.reached_boundary useAfterJoin

/-- There are isolated insertions at nodes that can be reached and do not use the expression. -/
theorem not_mem_used_of_mem_isolated : ¬ ∀ (g : FlowGraph) (V : Vectors) (P : Placement),
    Finished g .eager V P → ∀ n ∈ P.isolated, Direction.forward.Reached g n → n ∈ g.usedNodes := by
  intro hused
  obtain ⟨V, hV⟩ := exists_finished_twoJoins
  have hreached : Direction.forward.Reached twoJoins 2 :=
    .tail (.single (show twoJoins.Edge 0 1 by decide)) (show twoJoins.Edge 1 2 by decide)
  have hmem := hused twoJoins V _ hV 2 (by decide) hreached
  exact absurd hmem (by decide)

end PartialRedundancy
