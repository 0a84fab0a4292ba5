import PartialRedundancy.Motion.Placement
import PartialRedundancy.Proofs.Motion.Equations

/-!
# Placements in terms of the vectors

The vectors of the five analyses of one graph exist, and the placement that they give can be read
off them node by node.

## Main definitions

* `Vectors.Computed` — vectors that are the results of the five analyses.

## Main results

* `Vectors.exists_computed` — every graph has its five vectors.
* `Vectors.Computed.holds_downSafety` and so on — the equations between the five vectors.
* `Placement.exists_classify`, `Placement.mem_of_classify` — the placement exists, and which nodes
  are in it.
-/

namespace PartialRedundancy

variable {g : FlowGraph} {seeding : Seeding} {n : Nat}

/-- The vectors are the results of the five analyses of graph `g`, each of them made from the ones
before. -/
structure Vectors.Computed (V : Vectors) (g : FlowGraph) (seeding : Seeding) : Prop where
  /-- The vector of down-safety. -/
  downSafety : ∃ r, DownSafety.analyze g seeding = .ok r ∧ r.vector = V.downSafety
  /-- The vector of earliestness. -/
  earliest : ∃ r, Earliest.analyze g V.downSafety seeding = .ok r ∧ r.vector = V.earliest
  /-- The vector of delayability. -/
  delay : ∃ r, Delay.analyze g V.downSafety V.earliest seeding = .ok r ∧ r.vector = V.delay
  /-- The vector of latestness. -/
  latest : Latest.analyze g V.delay = .ok V.latest
  /-- The vector of isolation. -/
  isolated : ∃ r, Isolated.analyze g V.latest seeding = .ok r ∧ r.vector = V.isolated

namespace Vectors

/-- Every graph has its five vectors. -/
lemma exists_computed (g : FlowGraph) (seeding : Seeding) :
    ∃ V : Vectors, V.Computed g seeding := by
  obtain ⟨safe, hsafe, ssafe⟩ :=
    AnalysisRun.exists_ofEquation (DownSafety.isMonotone g) .downSafety seeding
  have hsize := ssafe.size_eq.ge
  obtain ⟨earliest, hearliest, searliest⟩ :=
    AnalysisRun.exists_ofEquation (Earliest.isMonotone hsize) .earliest seeding
  obtain ⟨delay, hdelay, sdelay⟩ :=
    AnalysisRun.exists_ofEquation (Delay.isMonotone hsize searliest.size_eq.ge) .delay seeding
  obtain ⟨latest, hlatest⟩ := Latest.exists_analyze sdelay.size_eq
  have hlatest_size := (Latest.holds_iff sdelay.size_eq hlatest).1
  obtain ⟨isolated, hisolated, _⟩ :=
    AnalysisRun.exists_ofEquation (Isolated.isMonotone hlatest_size.ge) .isolated seeding
  exact ⟨⟨safe.vector, earliest.vector, delay.vector, latest, isolated.vector⟩,
    ⟨safe, hsafe, rfl⟩, ⟨earliest, hearliest, rfl⟩, ⟨delay, hdelay, rfl⟩, hlatest,
    ⟨isolated, hisolated, rfl⟩⟩

namespace Computed

variable {V : Vectors}

/-- The vector of down-safety solves its system. -/
lemma solves_downSafety (h : V.Computed g seeding) :
    V.downSafety.Solves (DownSafety.equation g) g seeding := by
  obtain ⟨r, hr, hv⟩ := h.downSafety
  exact hv ▸ AnalysisRun.solves_of_ofEquation (DownSafety.isMonotone g) hr

/-- The vector of earliestness solves its system. -/
lemma solves_earliest (h : V.Computed g seeding) :
    V.earliest.Solves (Earliest.equation g V.downSafety) g seeding := by
  obtain ⟨r, hr, hv⟩ := h.earliest
  exact hv ▸ AnalysisRun.solves_of_ofEquation
    (Earliest.isMonotone h.solves_downSafety.size_eq.ge) hr

/-- The vector of delayability solves its system. -/
lemma solves_delay (h : V.Computed g seeding) :
    V.delay.Solves (Delay.equation g V.downSafety V.earliest) g seeding := by
  obtain ⟨r, hr, hv⟩ := h.delay
  exact hv ▸ AnalysisRun.solves_of_ofEquation
    (Delay.isMonotone h.solves_downSafety.size_eq.ge h.solves_earliest.size_eq.ge) hr

/-- The vector of latestness has a fact for every node. -/
lemma size_latest (h : V.Computed g seeding) : V.latest.size = g.size :=
  (Latest.holds_iff h.solves_delay.size_eq h.latest).1

/-- Latestness is known at every node. -/
lemma factAt_latest (h : V.Computed g seeding) (hn : n < g.size) :
    factAt V.latest.facts n = .known (decide (V.latest.Holds n)) := by
  obtain ⟨b, hb⟩ := Fact.ne_unknown_iff.mp
    (Latest.factAt_ne_unknown h.latest (hn.trans_eq h.size_latest.symm))
  simp only [FactVector.holds_iff_factAt, hb]
  cases b <;> rfl

/-- The vector of isolation solves its system. -/
lemma solves_isolated (h : V.Computed g seeding) :
    V.isolated.Solves (Isolated.equation g V.latest) g seeding := by
  obtain ⟨r, hr, hv⟩ := h.isolated
  exact hv ▸ AnalysisRun.solves_of_ofEquation (Isolated.isMonotone h.size_latest.ge) hr

/-- Where the vector of down-safety holds. -/
lemma holds_downSafety (h : V.Computed g seeding) (hn : Direction.backward.Region g seeding n)
    (hb : n ≠ g.exit) :
    V.downSafety.Holds n ↔ n ∈ g.usedNodes ∨ (n ∉ g.killedNodes ∧
      ∀ s, g.Edge n s → Direction.backward.Region g seeding s → V.downSafety.Holds s) :=
  DownSafety.holds_iff h.solves_downSafety hn hb

/-- Where the vector of earliestness holds. -/
lemma holds_earliest (h : V.Computed g seeding) (hn : Direction.forward.Region g seeding n)
    (hb : n ≠ g.entry) :
    V.earliest.Holds n ↔ ∃ p, g.Edge p n ∧ Direction.forward.Region g seeding p ∧
      ((¬ V.downSafety.Holds p ∧ V.earliest.Holds p) ∨ p ∈ g.killedNodes) :=
  Earliest.holds_iff h.solves_downSafety.size_eq.ge h.solves_earliest hn hb

/-- Where the vector of delayability holds. -/
lemma holds_delay (h : V.Computed g seeding) (hn : Direction.forward.Region g seeding n)
    (hb : n ≠ g.entry) :
    V.delay.Holds n ↔ (V.downSafety.Holds n ∧ V.earliest.Holds n) ∨
      ∀ p, g.Edge p n → Direction.forward.Region g seeding p →
        p ∉ g.usedNodes ∧ V.delay.Holds p :=
  Delay.holds_iff h.solves_downSafety.size_eq.ge h.solves_earliest.size_eq.ge h.solves_delay hn hb

/-- Where the vector of latestness holds. -/
lemma holds_latest (h : V.Computed g seeding) :
    V.latest.Holds n ↔ g.isReal n = true ∧ V.delay.Holds n ∧
      (n ∈ g.usedNodes ∨ ∃ s, g.Edge n s ∧ ¬ V.delay.Holds s) :=
  (Latest.holds_iff h.solves_delay.size_eq h.latest).2 n

/-- Where the vector of isolation holds. -/
lemma holds_isolated (h : V.Computed g seeding) (hn : Direction.backward.Region g seeding n)
    (hb : n ≠ g.exit) :
    V.isolated.Holds n ↔ ∀ s, g.Edge n s → Direction.backward.Region g seeding s →
      V.latest.Holds s ∨ (s ∉ g.usedNodes ∧ V.isolated.Holds s) :=
  Isolated.holds_iff h.size_latest.ge h.solves_isolated hn hb

/-- Down-safe nodes are not the exit. -/
lemma ne_exit_of_safe (h : V.Computed g seeding) (hs : V.downSafety.Holds n) : n ≠ g.exit := by
  rintro rfl
  exact DownSafety.not_holds_exit h.solves_downSafety hs

/-- Nodes that an insertion can be put off to are not the entry. -/
lemma ne_entry_of_delay (h : V.Computed g seeding) (hd : V.delay.Holds n) : n ≠ g.entry := by
  rintro rfl
  exact Delay.not_holds_entry h.solves_delay hd

end Computed

end Vectors

namespace Placement

variable {V : Vectors} {P : Placement}

/-- What is decided of a node. -/
lemma verdict_eq (h : V.Computed g seeding) (hn : n < g.size) : Verdict.ofVectors g V n =
    .ok ⟨decide (V.downSafety.Holds n ∧ V.earliest.Holds n),
      decide (V.latest.Holds n ∧ ¬ V.isolated.Holds n),
      decide (V.latest.Holds n ∧ V.isolated.Holds n),
      decide (n ∈ g.usedNodes ∧ ¬ (V.latest.Holds n ∧ V.isolated.Holds n))⟩ := by
  have hlatest := FactVector.holds_eq (hn.trans_eq h.size_latest.symm)
  have hisolated := FactVector.holds_eq (hn.trans_eq h.solves_isolated.size_eq.symm)
  have hsafe := FactVector.holds_eq (hn.trans_eq h.solves_downSafety.size_eq.symm)
  have hearliest := FactVector.holds_eq (hn.trans_eq h.solves_earliest.size_eq.symm)
  simp only [Verdict.ofVectors, hlatest, hisolated, hsafe, hearliest, FlowGraph.isUsed_eq hn]
  by_cases hs : V.downSafety.Holds n <;> simp [hs, bind, Except.bind, pure, Except.pure]

/-- The placement of the vectors of a graph exists. -/
lemma exists_classify (h : V.Computed g seeding) : ∃ P, classify g V = .ok P := by
  obtain ⟨verdicts, hverdicts⟩ : ∃ verdicts, (g.realNodes.toList.mapM fun n => do
      return (n, ← Verdict.ofVectors g V n)) = .ok verdicts := by
    refine exists_mapM_eq_ok fun n hn => ?_
    rw [verdict_eq h (FlowGraph.lt_of_mem_realNodes hn)]
    exact ⟨_, rfl⟩
  refine ⟨_, bind_eq_ok_iff.mpr ⟨verdicts, hverdicts, rfl⟩⟩

/-- Which nodes the placement of the vectors of a graph holds. -/
lemma mem_of_classify (h : V.Computed g seeding) (hP : classify g V = .ok P) :
    (n ∈ P.busy ↔ g.isReal n = true ∧ V.downSafety.Holds n ∧ V.earliest.Holds n) ∧
    (n ∈ P.optimal ↔ V.latest.Holds n ∧ ¬ V.isolated.Holds n) ∧
    (n ∈ P.isolated ↔ V.latest.Holds n ∧ V.isolated.Holds n) ∧
    (n ∈ P.redundant ↔ g.isReal n = true ∧ n ∈ g.usedNodes ∧
      ¬ (V.latest.Holds n ∧ V.isolated.Holds n)) := by
  simp only [classify, bind_eq_ok_iff, pure_eq_ok_iff] at hP
  obtain ⟨verdicts, hverdicts, rfl⟩ := hP
  have hselect (kind : Verdict → Bool) : n ∈ select verdicts kind ↔
      g.isReal n = true ∧ ∃ d, Verdict.ofVectors g V n = .ok d ∧ kind d = true := by
    simp only [select, NodeSet.mem_ofList, List.mem_map, List.mem_filter,
      mem_of_mapM_eq_ok hverdicts, bind_eq_ok_iff, pure_eq_ok_iff, ← FlowGraph.mem_realNodes]
    constructor
    · rintro ⟨⟨_, _⟩, ⟨⟨m, hm, d, hd, heq⟩, hkind⟩, rfl⟩
      obtain ⟨rfl, rfl⟩ := Prod.mk.inj heq
      exact ⟨hm, d, hd, hkind⟩
    · rintro ⟨hn, d, hd, hkind⟩
      exact ⟨(n, d), ⟨⟨n, hn, d, hd, rfl⟩, hkind⟩, rfl⟩
  have hreal : V.latest.Holds n → g.isReal n = true := fun hl => (h.holds_latest.mp hl).1
  simp only [hselect]
  by_cases hn : g.isReal n = true
  · have hlt := FlowGraph.lt_of_mem_realNodes (FlowGraph.mem_realNodes.mpr hn)
    simp only [hn, true_and, verdict_eq h hlt, Except.ok.injEq, exists_eq_left',
      decide_eq_true_iff, and_self]
  · have hl : ¬ V.latest.Holds n := fun hl => hn (hreal hl)
    simp [hn, hl]

/-- Lazy code motion inserts at the latest nodes. -/
lemma mem_lazy_of_classify (h : V.Computed g seeding) (hP : classify g V = .ok P) :
    n ∈ P.lazy ↔ V.latest.Holds n := by
  obtain ⟨_, hoptimal, hisolated, _⟩ := mem_of_classify (n := n) h hP
  rw [lazy, NodeSet.mem_union, hoptimal, hisolated, ← and_or_left]
  exact and_iff_left (em' _)

end Placement

end PartialRedundancy
