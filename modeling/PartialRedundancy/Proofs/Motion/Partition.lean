import PartialRedundancy.Graph.Declaration
import PartialRedundancy.Proofs.Motion.Session

/-!
# How the sets of a placement divide the nodes

Lazy code motion inserts at the latest nodes, either into the temporary or in place, so these two
sets and the other real nodes are the parts of a partition. Every use is served by an insertion in
place or by a read of the temporary, and never by both. All insertions, busy ones included, are at
nodes that an insertion can be put off to. Nothing of this depends on the seeding: nodes of which
nothing is known count as nodes where the vector does not hold.

## Main definitions

* `NodeSet.Partitions` — some sets are the parts of a partition.

## Main results

* `FactVector.mem_holding_iff` — where a vector with a fact for every node holds.
* `Vectors.Computed.delay_of_safe_of_earliest` — an insertion of busy code motion can be put off to
  the node where it stands.
* `classify_partitions` — how the sets of a placement divide the nodes.
-/

namespace PartialRedundancy

variable {g : FlowGraph} {seeding : Seeding} {V : Vectors} {P : Placement} {n : Nat}

/-- The set is divided into some parts: no two of them have a member in common, and together they
have the members of the set. -/
def NodeSet.Partitions (s : NodeSet) (parts : List NodeSet) : Prop :=
  parts.Pairwise (fun t u => ∀ n ∈ t, n ∉ u) ∧ ∀ n, n ∈ s ↔ ∃ t ∈ parts, n ∈ t

/-- If a vector has a fact for every node, it lists the real nodes where it holds. -/
lemma FactVector.mem_holding_iff {v : FactVector} (hsize : v.size = g.size) :
    n ∈ v.holding ↔ n ∈ g.realNodes ∧ v.Holds n := by
  rw [mem_holding, hsize, Holds, FlowGraph.realNodes, NodeSet.mem_interval, ← and_assoc]
  unfold FlowGraph.size
  refine and_congr_left fun _ => ?_
  omega

/-- A real node that is down-safe and earliest is one that an insertion can be put off to.

**Proof sketch.** Earliestness and delayability both travel forwards, so a node where the one is
known is a node where the other one is. There the equation of delayability holds. -/
lemma Vectors.Computed.delay_of_safe_of_earliest (h : V.Computed g seeding)
    (hn : g.isReal n = true) (hs : V.downSafety.Holds n) (he : V.earliest.Holds n) :
    V.delay.Holds n := by
  have hregion : Direction.forward.Region g seeding n := h.solves_earliest.region_of_holds he
  have hentry : n ≠ g.entry := ((FlowGraph.isReal_iff hregion.lt).mp hn).1
  exact (h.holds_delay hregion hentry).mpr (Or.inl ⟨hs, he⟩)

/-- The insertions of lazy code motion, and the other real nodes, divide the real nodes. -/
lemma Placement.partitions_of_classify (h : V.Computed g seeding)
    (hP : Placement.classify g V = .ok P) :
    g.realNodes.Partitions
      [P.optimal, P.isolated, g.realNodes.filter fun n => ¬ V.latest.Holds n] := by
  have hmem (n : Nat) := mem_of_classify (n := n) h hP
  have hreal (n : Nat) (hl : V.latest.Holds n) : n ∈ g.realNodes :=
    FlowGraph.mem_realNodes.mpr (h.holds_latest.mp hl).1
  constructor
  · simp only [List.pairwise_cons, List.forall_mem_cons, List.not_mem_nil, false_implies,
      implies_true, List.Pairwise.nil, and_true, NodeSet.mem_filter, decide_eq_true_iff,
      (hmem _).2.1, (hmem _).2.2.1]
    exact ⟨⟨fun n hn hn' => hn.2 hn'.2, fun n hn hn' => hn'.2 hn.1⟩,
      fun n hn hn' => hn'.2 hn.1⟩
  · intro n
    simp only [List.exists_mem_cons_iff, List.not_mem_nil, false_and, exists_false, or_false,
      NodeSet.mem_filter, decide_eq_true_iff, (hmem n).2.1, (hmem n).2.2.1]
    constructor
    · intro hn
      by_cases hl : V.latest.Holds n
      · by_cases hi : V.isolated.Holds n
        · exact Or.inr (Or.inl ⟨hl, hi⟩)
        · exact Or.inl ⟨hl, hi⟩
      · exact Or.inr (Or.inr ⟨hn, hl⟩)
    · rintro (⟨hl, _⟩ | ⟨hl, _⟩ | ⟨hn, _⟩)
      · exact hreal n hl
      · exact hreal n hl
      · exact hn

/-- **How the sets of a placement divide the nodes.** Every graph has finished sessions. In each of
them, the insertions of lazy code motion into the temporary, those in place and the real nodes that
are not latest divide the real nodes. Every real node that uses the expression either reads the
temporary or has an insertion in place, and not both; only such nodes read the temporary. Lazy code
motion inserts at the real nodes that are latest. To these and to the insertions of busy code motion
an insertion can be put off. -/
theorem classify_partitions (g : FlowGraph) (seeding : Seeding) :
    (∃ V P, Finished g seeding V P) ∧
    ∀ V P, Finished g seeding V P →
      g.realNodes.Partitions
        [P.optimal, P.isolated, g.realNodes.filter fun n => ¬ V.latest.Holds n] ∧
      (∀ n ∈ g.realNodes, n ∈ g.usedNodes → Xor (n ∈ P.redundant) (n ∈ P.isolated)) ∧
      P.redundant ⊆ g.usedNodes ∧
      P.lazy = V.latest.holding ∧ P.lazy ⊆ V.delay.holding ∧ P.busy ⊆ V.delay.holding := by
  refine ⟨exists_finished g seeding, fun V P hfinished => ?_⟩
  obtain ⟨hV, hP⟩ := hfinished.computed
  have hmem (n : Nat) := Placement.mem_of_classify (n := n) hV hP
  have hlazy (n : Nat) : n ∈ P.lazy ↔ V.latest.Holds n := Placement.mem_lazy_of_classify hV hP
  have hdelay (n : Nat) : n ∈ V.delay.holding ↔ n ∈ g.realNodes ∧ V.delay.Holds n :=
    FactVector.mem_holding_iff hV.solves_delay.size_eq
  refine ⟨Placement.partitions_of_classify hV hP, fun n hn hu => ?_, fun n hn => ?_, ?_, ?_, ?_⟩
  · obtain ⟨_, _, hisolated, hredundant⟩ := hmem n
    rw [hredundant, hisolated, ← FlowGraph.mem_realNodes, xor_iff_iff_not]
    exact ⟨fun h => h.2.2, fun h => ⟨hn, hu, h⟩⟩
  · exact ((hmem n).2.2.2.mp hn).2.1
  · refine NodeSet.ext fun n => ?_
    rw [hlazy, FactVector.mem_holding_iff hV.size_latest, FlowGraph.mem_realNodes]
    exact ⟨fun hl => ⟨(hV.holds_latest.mp hl).1, hl⟩, And.right⟩
  · intro n hn
    obtain ⟨hreal, hd, _⟩ := hV.holds_latest.mp ((hlazy n).mp hn)
    exact (hdelay n).mpr ⟨FlowGraph.mem_realNodes.mpr hreal, hd⟩
  · intro n hn
    obtain ⟨hreal, hs, he⟩ := (hmem n).1.mp hn
    have hd := hV.delay_of_safe_of_earliest hreal hs he
    exact (hdelay n).mpr ⟨FlowGraph.mem_realNodes.mpr hreal, hd⟩

/-- The change of an operand, and after it two uses in a row, a dead end and a single use. -/
def threeWays : FlowGraph :=
  [Declaration.edge 1 2, .edge 2 3, .edge 3 6, .edge 1 4, .edge 1 5, .used 2, .used 3, .used 5,
    .killed 1].foldl FlowGraph.attempt (.bare 5)

/-- The first of the two uses sets the temporary, both of them read it, and the single use is
computed in place. A run from the boundary does not know whether the dead end is down-safe. -/
theorem classify_threeWays : ∃ V,
    Finished threeWays .reachableOnly V ⟨.ofList [2, 5], .ofList [2], .ofList [5], .ofList [2, 3]⟩ ∧
      V.downSafety.unknown = .ofList [4] ∧ V.latest.holding = .ofList [2, 5] ∧
      NodeSet.ofList [2, 5] ⊆ V.delay.holding := by
  have hplacement : ((Session.new threeWays ⟨.reachableOnly⟩).after [.runAll]).placement =
      .ok ⟨.ofList [2, 5], .ofList [2], .ofList [5], .ofList [2, 3]⟩ := rfl
  obtain ⟨V, hV⟩ := exists_finished_of_placement _ hplacement
  obtain ⟨_, _, _, hlazy, _, hbusy⟩ := (classify_partitions threeWays .reachableOnly).2 V _ hV
  refine ⟨V, hV, ?_, hlazy.symm, hbusy⟩
  obtain ⟨r, hr, hv⟩ := hV.computed.1.downSafety
  have hunknown : (DownSafety.analyze threeWays .reachableOnly).map (fun r => r.vector.unknown) =
      .ok (.ofList [4]) := rfl
  rw [hr] at hunknown
  rw [← hv]
  exact Except.ok.inj hunknown

end PartialRedundancy
