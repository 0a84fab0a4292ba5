import PartialRedundancy.Proofs.Dataflow.Extension
import PartialRedundancy.Proofs.Motion.Equations

/-!
# Vectors of another graph

Earliestness and isolation read the vector of an earlier analysis at the sources of the nodes. A
caller may hand over a vector that was made for another graph. A longer one is read as far as it is
needed. A shorter one may do as well, which depends on the graph and on the seeding: on the nodes
that the analysis resolves, and on which of them the other nodes read.

## Main definitions

* `FactVector.extend` — a vector with more facts behind its end.

## Main results

* `FactVector.holds_eq_error`, `FactVector.holds_extend` — lookups past the end, and in a longer
  vector.
* `Earliest.looksUp`, `Isolated.looksUp` — what the two systems look up.
* `analyze_error_iff_exists_edge` — exactly which vectors are too short.
-/

namespace PartialRedundancy

namespace FactVector

variable {v : FactVector} {n : Nat}

/-- The vector with more facts behind its end. -/
def extend (v : FactVector) (more : Array Fact) : FactVector := ⟨v.analysis, v.facts ++ more⟩

/-- Past the end of a vector a lookup fails. -/
lemma holds_eq_error (hn : v.size ≤ n) : v.holds n = .error ⟨v.size, n⟩ := by
  have hfact : v.fact n = .error ⟨v.size, n⟩ := fetch_eq_error_iff.mpr ⟨hn, rfl⟩
  rw [holds, hfact]
  rfl

/-- What is found in a vector is found in the longer one. -/
lemma holds_extend {b : Bool} (more : Array Fact) (h : v.holds n = .ok b) :
    (v.extend more).holds n = .ok b := by
  simp only [holds, bind_eq_ok_iff, pure_eq_ok_iff] at h ⊢
  obtain ⟨f, hf, hb⟩ := h
  have hget := fetch_eq_ok_iff.mp hf
  have hn : n < v.facts.size := (Array.getElem?_eq_some_iff.mp hget).1
  refine ⟨f, fetch_eq_ok_iff.mpr ?_, hb⟩
  rw [extend, Array.getElem?_append_left hn, hget]

/-- A vector can be made as long as a graph takes. -/
lemma size_le_extend (v : FactVector) (g : FlowGraph) :
    g.size ≤ (v.extend (.replicate g.size .unknown)).size := by
  simp [extend, size]

end FactVector

/-- The analysis of a system fails as its run does. -/
lemma AnalysisRun.ofEquation_eq_error_iff {a : Analysis} {e : Equation} {g : FlowGraph}
    {seeding : Seeding} {err : OutOfBounds} :
    ofEquation a e g seeding = .error err ↔ solve e g seeding = .error err :=
  bind_eq_error_iff_of_exists fun _ _ => ⟨_, rfl⟩

/-- An analysis that succeeds, with terms that succeed more often, and alike: it does not change,
and it has come to its end if it would with them. -/
lemma AnalysisRun.ofEquation_withTerm {a : Analysis} {e : Equation} {g : FlowGraph}
    {seeding : Seeding} {term : Nat → Bool → Except OutOfBounds Bool} {r : AnalysisRun}
    (hterm : ∀ m v t, e.term m v = .ok t → term m v = .ok t)
    (h : ofEquation a e g seeding = .ok r) :
    ofEquation a (e.withTerm term) g seeding = .ok r ∧
      ((e.withTerm term).IsMonotone g →
        ∃ s : SolverState, s.Ends e g seeding ∧ r.vector.facts = s.facts) := by
  obtain ⟨run, hrun, h⟩ := bind_eq_ok_iff.mp h
  refine ⟨bind_eq_ok_iff.mpr ⟨run, solve_withTerm hterm hrun, h⟩, fun he => ?_⟩
  obtain ⟨s, hs, rfl⟩ := exists_ends_of_solve hterm he hrun
  obtain rfl := pure_eq_ok_iff.mp h
  exact ⟨s, hs, rfl⟩

/-! ## The two systems -/

namespace Earliest

/-- Earliestness looks the predecessors of a node up in the vector of down-safety. -/
lemma looksUp (g : FlowGraph) (safe : FactVector) : (equation g safe).LooksUp g safe.size where
  found _ hm hsafe value := ⟨_, term_eq_of_lt hsafe hm value⟩
  missing m hm value := by
    simp only [equation, FactVector.holds_eq_error hm]
    rfl
  apply _ _ met := ⟨met, rfl⟩

/-- A longer vector of down-safety gives the same contributions. -/
lemma term_extend (g : FlowGraph) (safe : FactVector) (more : Array Fact) (m : Nat) (value t : Bool)
    (h : (equation g safe).term m value = .ok t) :
    (equation g (safe.extend more)).term m value = .ok t := by
  simp only [equation, bind_eq_ok_iff] at h ⊢
  obtain ⟨b, hb, h⟩ := h
  exact ⟨b, FactVector.holds_extend more hb, h⟩

end Earliest

namespace Isolated

/-- Isolation looks the successors of a node up in the vector of latestness. -/
lemma looksUp (g : FlowGraph) (latest : FactVector) :
    (equation g latest).LooksUp g latest.size where
  found _ hm hlatest value := ⟨_, term_eq_of_lt hlatest hm value⟩
  missing m hm value := by
    simp only [equation, FactVector.holds_eq_error hm]
    rfl
  apply _ _ met := ⟨met, rfl⟩

/-- A longer vector of latestness gives the same contributions. -/
lemma term_extend (g : FlowGraph) (latest : FactVector) (more : Array Fact) (m : Nat)
    (value t : Bool) (h : (equation g latest).term m value = .ok t) :
    (equation g (latest.extend more)).term m value = .ok t := by
  simp only [equation, bind_eq_ok_iff] at h ⊢
  obtain ⟨b, hb, h⟩ := h
  exact ⟨b, FactVector.holds_extend more hb, h⟩

end Isolated

/-- **Exactly which vectors are too short.** On every graph, with either seeding and a vector of any
length: earliestness fails exactly if there is an edge into a node other than the entry from a node
that the run resolves and that is past the end of the vector, and isolation exactly if there is an
edge from a node other than the exit to such a node. The lookup that fails is that of such a
node. An analysis that does not fail comes to its end, and it has the same result and makes the same
updates if the vector is extended by any facts. -/
theorem analyze_error_iff_exists_edge (g : FlowGraph) (seeding : Seeding) (v : FactVector) :
    ((∃ err, Earliest.analyze g v seeding = .error err) ↔
      ∃ p n, g.Edge p n ∧ n ≠ g.entry ∧ Direction.forward.Region g seeding p ∧ v.size ≤ p) ∧
    (∀ err, Earliest.analyze g v seeding = .error err →
      err.size = v.size ∧ v.size ≤ err.index ∧ Direction.forward.Region g seeding err.index ∧
      ∃ n, g.Edge err.index n ∧ n ≠ g.entry) ∧
    (∀ r, Earliest.analyze g v seeding = .ok r →
      (∃ s : SolverState, s.Ends (Earliest.equation g v) g seeding ∧ r.vector.facts = s.facts) ∧
      ∀ more, Earliest.analyze g (v.extend more) seeding = .ok r) ∧
    ((∃ err, Isolated.analyze g v seeding = .error err) ↔
      ∃ n s, g.Edge n s ∧ n ≠ g.exit ∧ Direction.backward.Region g seeding s ∧ v.size ≤ s) ∧
    (∀ err, Isolated.analyze g v seeding = .error err →
      err.size = v.size ∧ v.size ≤ err.index ∧ Direction.backward.Region g seeding err.index ∧
      ∃ n, g.Edge n err.index ∧ n ≠ g.exit) ∧
    ∀ r, Isolated.analyze g v seeding = .ok r →
      (∃ s : SolverState, s.Ends (Isolated.equation g v) g seeding ∧ r.vector.facts = s.facts) ∧
      ∀ more, Isolated.analyze g (v.extend more) seeding = .ok r := by
  have hearliest := Earliest.isMonotone (v.size_le_extend g)
  have hisolated := Isolated.isMonotone (v.size_le_extend g)
  refine ⟨?_, fun err herr => ?_, fun r hr => ⟨?_, fun more => ?_⟩, ?_, fun err herr => ?_,
    fun r hr => ⟨?_, fun more => ?_⟩⟩
  · simp only [Earliest.analyze, AnalysisRun.ofEquation_eq_error_iff]
    exact (Earliest.looksUp g v).solve_error_iff (Earliest.term_extend g v _) hearliest
  · exact (Earliest.looksUp g v).solve_failsOnly seeding err
      (AnalysisRun.ofEquation_eq_error_iff.mp herr)
  · exact (AnalysisRun.ofEquation_withTerm (Earliest.term_extend g v _) hr).2 hearliest
  · exact (AnalysisRun.ofEquation_withTerm (Earliest.term_extend g v more) hr).1
  · simp only [Isolated.analyze, AnalysisRun.ofEquation_eq_error_iff]
    rw [(Isolated.looksUp g v).solve_error_iff (Isolated.term_extend g v _) hisolated, exists_comm]
    rfl
  · exact (Isolated.looksUp g v).solve_failsOnly seeding err
      (AnalysisRun.ofEquation_eq_error_iff.mp herr)
  · exact (AnalysisRun.ofEquation_withTerm (Isolated.term_extend g v _) hr).2 hisolated
  · exact (AnalysisRun.ofEquation_withTerm (Isolated.term_extend g v more) hr).1

/-- The facts of two nodes. -/
def twoFacts : FactVector := ⟨.downSafety, #[.known false, .known true]⟩

/-- Two real nodes without an edge between them, and a vector that ends before the second one. An
eager run needs the second node, for the sake of the exit. A run from the entry does not get there,
so the vector is long enough for it, and any longer one does as well. Backwards the exit is needed,
and two facts more are enough. -/
theorem analyze_twoFacts :
    (∃ err, Earliest.analyze (.bare 2) twoFacts .eager = .error err ∧ err.size = 2 ∧
      2 ≤ err.index) ∧
    (∃ r, Earliest.analyze (.bare 2) twoFacts .reachableOnly = .ok r ∧
      ∀ more, Earliest.analyze (.bare 2) (twoFacts.extend more) .reachableOnly = .ok r) ∧
    (∃ err, Isolated.analyze (.bare 2) twoFacts .reachableOnly = .error err ∧ err.size = 2 ∧
      2 ≤ err.index) ∧
    ∃ r, Isolated.analyze (.bare 2) (twoFacts.extend #[.unknown, .unknown]) .eager = .ok r ∧
      ∀ more, Isolated.analyze (.bare 2) ((twoFacts.extend #[.unknown, .unknown]).extend more)
        .eager = .ok r := by
  obtain ⟨heager, hindex, _⟩ := analyze_error_iff_exists_edge (.bare 2) .eager twoFacts
  obtain ⟨_, _, hextend, hisolated, hindex', _⟩ :=
    analyze_error_iff_exists_edge (.bare 2) .reachableOnly twoFacts
  obtain ⟨_, _, _, _, _, hextend'⟩ :=
    analyze_error_iff_exists_edge (.bare 2) .eager (twoFacts.extend #[.unknown, .unknown])
  obtain ⟨err, herr⟩ := heager.mpr
    ⟨2, 3, by decide, by decide, show 2 < (FlowGraph.bare 2).size by decide, by decide⟩
  obtain ⟨err', herr'⟩ := hisolated.mpr
    ⟨2, 3, by decide, by decide, Direction.backward.reached_boundary _, by decide⟩
  obtain ⟨hsize, hpast, _⟩ := hindex err herr
  obtain ⟨hsize', hpast', _⟩ := hindex' err' herr'
  obtain ⟨r, hr⟩ : ∃ r, Earliest.analyze (.bare 2) twoFacts .reachableOnly = .ok r := ⟨_, rfl⟩
  obtain ⟨r', hr'⟩ : ∃ r, Isolated.analyze (.bare 2) (twoFacts.extend #[.unknown, .unknown])
      .eager = .ok r := ⟨_, rfl⟩
  exact ⟨⟨err, herr, hsize, hpast⟩, ⟨r, hr, (hextend r hr).2⟩, ⟨err', herr', hsize', hpast'⟩,
    r', hr', (hextend' r' hr').2⟩

end PartialRedundancy
