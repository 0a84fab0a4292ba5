import PartialRedundancy.Graph.Declaration
import PartialRedundancy.Proofs.Dataflow.Path
import PartialRedundancy.Proofs.Motion.Session

/-!
# Where insertions come from

On every path from the entry, what is computed at a node goes back to an insertion of busy code
motion on that path. Up to a node that is down-safe, or that is not earliest, the value is kept from
a down-safe and earliest node on. An insertion that lazy code motion can put off to a node is one
that busy code motion makes before it on the path, past nodes that all are down-safe and neither use
the expression nor change an operand.

## Main results

* `Vectors.Computed.exists_busy` — a down-safe and earliest node with no change of an operand after
  it.
* `Vectors.Computed.exists_busy_of_delay` — such a node with no use after it either.
* `exists_safe_earliest_of_path` — busy code motion covers every down-safe node.
* `exists_mem_busy_of_delay` — every insertion of lazy code motion is a delayed one of busy code
  motion.

## Design

A run from the boundary knows nothing of a node that does not lead to the exit, and leaves it out of
the equations of its predecessors. So an insertion can be put off along edges to such a node
although the node is not down-safe, and the second result is about nodes that lead to the exit.
-/

namespace PartialRedundancy

variable {g : FlowGraph} {seeding : Seeding} {V : Vectors} {P : Placement} {m n : Nat}
  {p : Nat → Nat} {k : Nat}

namespace Vectors.Computed

/-! ## Along an edge -/

/-- An insertion at a node that is not earliest can move past every predecessor. -/
lemma of_not_earliest (h : V.Computed g seeding) (hmn : g.Edge m n)
    (hm : Direction.forward.Region g seeding m) (hn : ¬ V.earliest.Holds n) :
    m ∉ g.killedNodes ∧ (V.earliest.Holds m → V.downSafety.Holds m) := by
  have hentry : n ≠ g.entry := by
    rintro rfl
    exact hn (Earliest.holds_entry h.solves_earliest)
  rw [h.holds_earliest (hm.reader hmn) hentry] at hn
  refine ⟨fun hk => hn ⟨m, hmn, hm, Or.inr hk⟩, fun he => ?_⟩
  by_contra hs
  exact hn ⟨m, hmn, hm, Or.inl ⟨hs, he⟩⟩

/-- A down-safe node without a use changes no operand, and its resolved successors are down-safe. -/
lemma safe_of_edge (h : V.Computed g seeding) (hs : V.downSafety.Holds m)
    (hu : m ∉ g.usedNodes) : m ∉ g.killedNodes ∧
      ∀ n, g.Edge m n → Direction.backward.Region g seeding n → V.downSafety.Holds n := by
  have hm := h.solves_downSafety.region_of_holds hs
  exact ((h.holds_downSafety hm (h.ne_exit_of_safe hs)).mp hs).resolve_left hu

/-! ## Along a path -/

/-- On a path from the entry to a node that is down-safe or not earliest, busy code motion makes
an insertion after which no operand changes.

**Proof sketch.** Take the last earliest node of the path; the entry is one. No insertion at a
later node is stopped by its predecessor, so no later node but the end of the path changes an
operand, and the earliest node itself is down-safe. -/
lemma exists_busy (h : V.Computed g seeding) (hp : g.Path p k) (h0 : p 0 = g.entry)
    (hk : V.downSafety.Holds (p k) ∨ ¬ V.earliest.Holds (p k)) :
    ∃ i ≤ k, V.downSafety.Holds (p i) ∧ V.earliest.Holds (p i) ∧
      ∀ j, i ≤ j → j < k → p j ∉ g.killedNodes := by
  have hentry : V.earliest.Holds (p 0) := by
    rw [h0]
    exact Earliest.holds_entry h.solves_earliest
  obtain ⟨i, _, hik, hi, hlast⟩ :=
    exists_last (Q := fun j => V.earliest.Holds (p j)) (Nat.zero_le k) hentry
  have hstep (j : Nat) (hij : i ≤ j) (hjk : j < k) :=
    h.of_not_earliest (hp j hjk) (hp.region_forward h0 hjk.le) (hlast (j + 1) (by omega) hjk)
  refine ⟨i, hik, ?_, hi, fun j hij hjk => (hstep j hij hjk).1⟩
  rcases hik.lt_or_eq with hlt | rfl
  · exact (hstep i le_rfl hlt).2 hi
  · exact hk.resolve_right (not_not.mpr hi)

/-- On a path from the entry to a node that an insertion can be put off to, and that a backward run
resolves, busy code motion makes the insertion at a node other than the entry. From there to the end
of the path all nodes are down-safe, and before its end none uses the expression or changes an
operand.

**Proof sketch.** Induction on the length of the path. No insertion is put off to the entry. To
another node it is either moved in the first place, or it is put off from all its predecessors, none
of which uses the expression. The path comes from one of them, which is down-safe by induction, and
without a use it passes down-safety on. -/
lemma exists_busy_of_delay (h : V.Computed g seeding) (hp : g.Path p k) (h0 : p 0 = g.entry)
    (hk : Direction.backward.Region g seeding (p k)) (hd : V.delay.Holds (p k)) :
    ∃ j ≤ k, p j ≠ g.entry ∧ V.earliest.Holds (p j) ∧
      (∀ i, j ≤ i → i < k → p i ∉ g.usedNodes ∧ p i ∉ g.killedNodes) ∧
      ∀ i, j ≤ i → i ≤ k → V.downSafety.Holds (p i) := by
  induction k with
  | zero => exact absurd h0 (h.ne_entry_of_delay hd)
  | succ k ih =>
    have hedge : g.Edge (p k) (p (k + 1)) := hp k (Nat.lt_succ_self k)
    have hinit : g.Path p k := hp.of_le (Nat.le_succ k)
    have hentry : p (k + 1) ≠ g.entry := h.ne_entry_of_delay hd
    rcases (h.holds_delay (hp.region_forward h0 le_rfl) hentry).mp hd with ⟨hs, he⟩ | hpred
    · -- busy code motion inserts at the end of the path itself
      refine ⟨k + 1, le_rfl, hentry, he, fun i hji hik => by omega, ?_⟩
      intro i hji hik
      obtain rfl : i = k + 1 := by omega
      exact hs
    · -- the insertion is put off from the node before, where the hypothesis applies
      obtain ⟨hu, hdk⟩ := hpred (p k) hedge (hinit.region_forward h0 le_rfl)
      obtain ⟨j, hjk, hj, he, hclear, hsafe⟩ := ih hinit (hk.reader hedge) hdk
      obtain ⟨hkill, hsucc⟩ := h.safe_of_edge (hsafe k hjk le_rfl) hu
      refine ⟨j, by omega, hj, he, ?_, ?_⟩
      · intro i hji hik
        by_cases hi : i = k
        · rw [hi]
          exact ⟨hu, hkill⟩
        · exact hclear i hji (by omega)
      · intro i hji hik
        by_cases hi : i = k + 1
        · rw [hi]
          exact hsucc _ hedge hk
        · exact hsafe i hji (by omega)

/-- On a path from the entry, a node that an insertion can be put off to, and that a backward run
resolves, is down-safe. -/
lemma safe_of_delay (h : V.Computed g seeding) (hp : g.Path p k) (h0 : p 0 = g.entry)
    (hk : Direction.backward.Region g seeding (p k)) (hd : V.delay.Holds (p k)) :
    V.downSafety.Holds (p k) := by
  obtain ⟨j, hjk, _, _, _, hsafe⟩ := h.exists_busy_of_delay hp h0 hk hd
  exact hsafe k hjk le_rfl

end Vectors.Computed

/-- Busy code motion inserts at the down-safe and earliest nodes other than the entry. -/
lemma Placement.mem_busy_of_classify (h : V.Computed g seeding)
    (hP : Placement.classify g V = .ok P) (hs : V.downSafety.Holds n) (he : V.earliest.Holds n)
    (hentry : n ≠ g.entry) : n ∈ P.busy := by
  obtain ⟨hbusy, _, _, _⟩ := mem_of_classify (n := n) h hP
  have hlt : n < g.size := (h.solves_downSafety.region_of_holds hs).lt
  exact hbusy.mpr ⟨(FlowGraph.isReal_iff hlt).mpr ⟨hentry, h.ne_exit_of_safe hs⟩, hs, he⟩

/-! ## Finished sessions -/

/-- **Busy code motion covers every down-safe node.** Every graph has finished sessions. In each of
them, on every path from the entry to a node that is down-safe, or that is not earliest, there is a
down-safe and earliest node from which on no node before the end of the path changes an operand.
Busy code motion inserts there, unless it is the entry. -/
theorem exists_safe_earliest_of_path (g : FlowGraph) (seeding : Seeding) :
    (∃ V P, Finished g seeding V P) ∧
    ∀ V P, Finished g seeding V P → ∀ (p : Nat → Nat) (k : Nat), g.Path p k → p 0 = g.entry →
      V.downSafety.Holds (p k) ∨ ¬ V.earliest.Holds (p k) →
      ∃ i ≤ k, (∀ j, i ≤ j → j < k → p j ∉ g.killedNodes) ∧
        V.downSafety.Holds (p i) ∧ V.earliest.Holds (p i) ∧ (p i ≠ g.entry → p i ∈ P.busy) := by
  refine ⟨exists_finished g seeding, ?_⟩
  intro V P hfinished p k hp h0 hk
  obtain ⟨hV, hP⟩ := hfinished.computed
  obtain ⟨i, hik, hsafe, hearliest, hkill⟩ := hV.exists_busy hp h0 hk
  exact ⟨i, hik, hkill, hsafe, hearliest, Placement.mem_busy_of_classify hV hP hsafe hearliest⟩

/-- A branch after the change of an operand, with a use behind the join. -/
def useAfterJoin : FlowGraph :=
  [Declaration.edge 1 2, .edge 1 3, .edge 2 4, .edge 3 4, .killed 1, .used 4].foldl
    FlowGraph.attempt (.bare 4)

/-- The use behind the join is covered by the insertion in the arm that the path takes. -/
theorem exists_safe_earliest_useAfterJoin : ∃ V,
    Finished useAfterJoin .eager V ⟨.ofList [2, 3], ∅, .ofList [4], ∅⟩ ∧
      ∃ i ≤ 3, (∀ j, i ≤ j → j < 3 → [0, 1, 3, 4].getD j 0 ∉ useAfterJoin.killedNodes) ∧
        [0, 1, 3, 4].getD i 0 ∈ NodeSet.ofList [2, 3] := by
  have hplacement : ((Session.new useAfterJoin ⟨.eager⟩).after [.runAll]).placement =
      .ok ⟨.ofList [2, 3], ∅, .ofList [4], ∅⟩ := rfl
  obtain ⟨V, hV⟩ := exists_finished_of_placement _ hplacement
  have hpath : useAfterJoin.Path (fun i => [0, 1, 3, 4].getD i 0) 3 := by
    unfold FlowGraph.Path
    decide
  have hsafe : V.downSafety.Holds 4 := by
    obtain ⟨hcomputed, _⟩ := hV.computed
    exact (hcomputed.holds_downSafety (show 4 < useAfterJoin.size by decide) (by decide)).mpr
      (Or.inl (by decide))
  obtain ⟨i, hi, hkill, _, _, hbusy⟩ :=
    (exists_safe_earliest_of_path useAfterJoin .eager).2 V _ hV _ 3 hpath rfl (Or.inl hsafe)
  refine ⟨V, hV, i, hi, hkill, hbusy fun hentry => ?_⟩
  -- the entry is followed by the change of an operand
  have hfirst : ∀ i ≤ 3, [0, 1, 3, 4].getD i 0 = useAfterJoin.entry → i = 0 := by decide
  have hi0 := hfirst i hi hentry
  exact hkill 1 (by omega) (by decide) (by decide)

/-- **Every insertion of lazy code motion is a delayed one of busy code motion.** Every graph has
finished sessions. In each of them, lazy code motion inserts only at nodes that an insertion can be
put off to. Take a path from the entry to such a node, and if the analyses run from the boundary let
the node lead to the exit. Then busy code motion inserts at some node of the path from which on all
nodes are down-safe, and none before the end of the path uses the expression or changes an
operand. -/
theorem exists_mem_busy_of_delay (g : FlowGraph) (seeding : Seeding) :
    (∃ V P, Finished g seeding V P) ∧
    ∀ V P, Finished g seeding V P → (∀ n ∈ P.lazy, V.delay.Holds n) ∧
      ∀ (p : Nat → Nat) (k : Nat), g.Path p k → p 0 = g.entry → V.delay.Holds (p k) →
        (seeding = .reachableOnly → Direction.backward.Reached g (p k)) →
        ∃ j ≤ k, p j ∈ P.busy ∧
          (∀ i, j ≤ i → i < k → p i ∉ g.usedNodes ∧ p i ∉ g.killedNodes) ∧
          ∀ i, j ≤ i → i ≤ k → V.downSafety.Holds (p i) := by
  refine ⟨exists_finished g seeding, ?_⟩
  intro V P hfinished
  obtain ⟨hV, hP⟩ := hfinished.computed
  refine ⟨?_, ?_⟩
  · intro n hn
    have hlatest : V.latest.Holds n := (Placement.mem_lazy_of_classify hV hP).mp hn
    exact (hV.holds_latest.mp hlatest).2.1
  · intro p k hp h0 hd hexit
    -- an eager run resolves every node, so only the other one needs a way to the exit
    have hk : Direction.backward.Region g seeding (p k) := by
      cases seeding with
      | eager => exact (hV.solves_delay.region_of_holds hd).lt
      | reachableOnly => exact hexit rfl
    obtain ⟨j, hjk, hentry, hearliest, hclear, hsafe⟩ := hV.exists_busy_of_delay hp h0 hk hd
    exact ⟨j, hjk, Placement.mem_busy_of_classify hV hP (hsafe j le_rfl hjk) hearliest hentry,
      hclear, hsafe⟩

/-- The computation that is left behind the join is the insertion in the arm that the path takes. -/
theorem exists_mem_busy_useAfterJoin : ∃ V,
    Finished useAfterJoin .reachableOnly V ⟨.ofList [2, 3], ∅, .ofList [4], ∅⟩ ∧
      ∃ j ≤ 3, [0, 1, 3, 4].getD j 0 ∈ NodeSet.ofList [2, 3] ∧
        ∀ i, j ≤ i → i ≤ 3 → V.downSafety.Holds ([0, 1, 3, 4].getD i 0) := by
  have hplacement : ((Session.new useAfterJoin ⟨.reachableOnly⟩).after [.runAll]).placement =
      .ok ⟨.ofList [2, 3], ∅, .ofList [4], ∅⟩ := rfl
  obtain ⟨V, hV⟩ := exists_finished_of_placement _ hplacement
  have hpath : useAfterJoin.Path (fun i => [0, 1, 3, 4].getD i 0) 3 := by
    unfold FlowGraph.Path
    decide
  have hexit : Direction.backward.Reached useAfterJoin 4 :=
    .single (show useAfterJoin.Edge 4 5 by decide)
  obtain ⟨hlazy, hpaths⟩ := (exists_mem_busy_of_delay useAfterJoin .reachableOnly).2 V _ hV
  obtain ⟨j, hj, hbusy, _, hsafe⟩ :=
    hpaths _ 3 hpath rfl (hlazy 4 (by decide)) fun _ => hexit
  exact ⟨V, hV, j, hj, hbusy, hsafe⟩

end PartialRedundancy
