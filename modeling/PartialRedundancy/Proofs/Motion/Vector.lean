import PartialRedundancy.Motion.Vector
import PartialRedundancy.Proofs.Dataflow.Extremal

/-!
# Vectors that solve a system

The vector of an analysis, read as a set of nodes: those that are known to be true. On the nodes
that a run resolves the vector is determined by that set.

## Main definitions

* `FactVector.Holds` — a node is known to be true.
* `FactVector.Solves` — the vector resolves the right nodes and satisfies the equations there.

## Main results

* `AnalysisRun.exists_ofEquation` — the analysis of a monotone system succeeds, and its vector
  solves the system.
* `FactVector.Solves.isSolution` — the equations of the resolved nodes, in terms of where the
  vector holds.
-/

namespace PartialRedundancy

namespace FactVector

variable {v : FactVector} {e : Equation} {g : FlowGraph} {seeding : Seeding} {n : Nat}

/-- Node `n` is known to be true. -/
def Holds (v : FactVector) (n : Nat) : Prop := v.get? n = some (.known true)

instance (v : FactVector) (n : Nat) : Decidable (v.Holds n) :=
  inferInstanceAs (Decidable (v.get? n = some (.known true)))

/-- Where a vector holds, its assignment of facts is true. -/
lemma holds_iff_factAt : v.Holds n ↔ factAt v.facts n = .known true := by
  rw [Holds, get?, getElem?_eq_some_iff_factAt]
  exact ⟨And.right, fun h => ⟨lt_of_factAt_ne (Fact.ne_unknown_iff.mpr ⟨true, h⟩), h⟩⟩

/-- A lookup in the vector tells whether the vector holds. -/
lemma holds_eq (hn : n < v.size) : v.holds n = .ok (decide (v.Holds n)) := by
  have hfetch : v.fact n = .ok (factAt v.facts n) := fetch_fact hn
  rw [holds, hfetch]
  simp only [holds_iff_factAt]
  cases factAt v.facts n with
  | unknown => rfl
  | known b => cases b <;> rfl

/-- The vector resolves the nodes that a run with some seeding resolves, and satisfies the
equations there. -/
structure Solves (v : FactVector) (e : Equation) (g : FlowGraph) (seeding : Seeding) : Prop where
  /-- Every node has a fact. -/
  size_eq : v.size = g.size
  /-- The nodes that have a value are those of the region. -/
  known_iff : ∀ n, factAt v.facts n ≠ .unknown ↔ e.direction.Region g seeding n
  /-- The boundary has its value. -/
  boundary : factAt v.facts (e.direction.boundary g) = .known e.boundary
  /-- The other nodes satisfy their equations. -/
  satisfies : e.Satisfies g (factAt v.facts)

/-- A resolved node has the value that the vector gives it. -/
lemma Solves.factAt_eq (h : v.Solves e g seeding) (hn : e.direction.Region g seeding n) :
    factAt v.facts n = .known (decide (v.Holds n)) := by
  obtain ⟨b, hb⟩ := Fact.ne_unknown_iff.mp ((h.known_iff n).mpr hn)
  simp only [holds_iff_factAt, hb]
  cases b <;> rfl

/-- A vector only holds at resolved nodes. -/
lemma Solves.region_of_holds (h : v.Solves e g seeding) (hn : v.Holds n) :
    e.direction.Region g seeding n := by
  rw [holds_iff_factAt] at hn
  exact (h.known_iff n).mp (Fact.ne_unknown_iff.mpr ⟨true, hn⟩)

/-- The boundary holds if its value is true. -/
lemma Solves.holds_boundary (h : v.Solves e g seeding) :
    v.Holds (e.direction.boundary g) ↔ e.boundary = true := by
  rw [holds_iff_factAt, h.boundary, Fact.known.injEq]

/-- The values that a vector gives to the sources of a node. -/
lemma Solves.factAt_eq_known_iff (h : v.Solves e g seeding) {b : Bool} :
    factAt v.facts n = .known b ↔ e.direction.Region g seeding n ∧ decide (v.Holds n) = b := by
  constructor
  · intro hf
    have hn : e.direction.Region g seeding n :=
      (h.known_iff n).mp (Fact.ne_unknown_iff.mpr ⟨b, hf⟩)
    rw [h.factAt_eq hn, Fact.known.injEq] at hf
    exact ⟨hn, hf⟩
  · rintro ⟨hn, rfl⟩
    exact h.factAt_eq hn

/-- Where the vector holds is a solution of the equations on the resolved nodes. -/
lemma Solves.isSolution (h : v.Solves e g seeding) :
    e.IsSolution g (e.direction.Region g seeding) fun n => decide (v.Holds n) :=
  (Equation.isSolution_iff_satisfies fun _ _ => h.factAt_eq_known_iff).mpr h.satisfies

/-- The fact of a node of the graph. -/
lemma Solves.get?_eq_some_iff (h : v.Solves e g seeding) (hn : n < g.size) {f : Fact} :
    v.get? n = some f ↔ factAt v.facts n = f := by
  have hlt : n < v.facts.size := Nat.lt_of_lt_of_eq hn h.size_eq.symm
  rw [get?, getElem?_eq_some_iff_factAt]
  exact and_iff_right hlt

/-- The boundary has its value. -/
lemma Solves.get?_boundary (h : v.Solves e g seeding) :
    v.get? (e.direction.boundary g) = some (.known e.boundary) :=
  (h.get?_eq_some_iff (e.direction.boundary_lt g)).mpr h.boundary

/-- Nothing is known of the nodes that are not resolved. -/
lemma Solves.get?_eq_unknown_iff (h : v.Solves e g seeding) (hn : n < g.size) :
    v.get? n = some .unknown ↔ ¬ e.direction.Region g seeding n := by
  rw [h.get?_eq_some_iff hn, ← h.known_iff, not_not]

/-- A resolved node has one value or the other. -/
lemma Solves.get?_eq_not_iff (h : v.Solves e g seeding) (hn : e.direction.Region g seeding n)
    (b : Bool) : v.get? n = some (.known !b) ↔ ¬ v.get? n = some (.known b) := by
  rw [h.get?_eq_some_iff hn.lt, h.get?_eq_some_iff hn.lt, h.factAt_eq hn]
  cases b <;> cases decide (v.Holds n) <;> simp

end FactVector

/-- The analysis of a monotone system succeeds, and its vector solves the system. -/
lemma AnalysisRun.exists_ofEquation {e : Equation} {g : FlowGraph} (he : e.IsMonotone g)
    (analysis : Analysis) (seeding : Seeding) :
    ∃ r, ofEquation analysis e g seeding = .ok r ∧ r.vector.Solves e g seeding := by
  obtain ⟨s, hs, hends⟩ := exists_solve he seeding
  refine ⟨⟨analysis, .settled s.finish⟩, bind_eq_ok_iff.mpr ⟨_, hs, rfl⟩, ?_⟩
  exact ⟨hends.invariants.1.size_facts, fun n => hends.known_iff,
    hends.invariants.1.fact_boundary, hends.satisfies⟩

/-- The vector of the analysis of a monotone system holds the facts in which the loop ends. -/
lemma AnalysisRun.exists_ends {e : Equation} {g : FlowGraph} (he : e.IsMonotone g)
    {analysis : Analysis} {seeding : Seeding} {v : FactVector}
    (h : ∃ r, ofEquation analysis e g seeding = .ok r ∧ r.vector = v) :
    ∃ s : SolverState, s.Ends e g seeding ∧ v = ⟨analysis, s.facts⟩ := by
  obtain ⟨r, hr, rfl⟩ := h
  obtain ⟨s, hs, hends⟩ := exists_solve he seeding
  simp only [ofEquation, bind_eq_ok_iff, pure_eq_ok_iff, hs, Except.ok.injEq] at hr
  obtain ⟨_, rfl, rfl⟩ := hr
  exact ⟨s, hends, rfl⟩

/-- What the analysis of a monotone system ends with solves the system. -/
lemma AnalysisRun.solves_of_ofEquation {e : Equation} {g : FlowGraph} (he : e.IsMonotone g)
    {analysis : Analysis} {seeding : Seeding} {r : AnalysisRun}
    (h : ofEquation analysis e g seeding = .ok r) : r.vector.Solves e g seeding := by
  obtain ⟨r', hr', hsolves⟩ := exists_ofEquation he analysis seeding
  rw [h] at hr'
  exact Except.ok.inj hr' ▸ hsolves

/-- The fact of a node in a run that can be evaluated. -/
lemma AnalysisRun.get?_of_map {x : Except OutOfBounds AnalysisRun} {r : AnalysisRun}
    {n : Nat} {f : Option Fact} (hr : x = .ok r) (hx : x.map (fun r => r.vector.get? n) = .ok f) :
    r.vector.get? n = f := by
  rw [hr] at hx
  exact Except.ok.inj hx

end PartialRedundancy
