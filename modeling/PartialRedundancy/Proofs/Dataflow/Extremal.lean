import PartialRedundancy.Proofs.Dataflow.Descent

/-!
# What the solver computes

A run of a monotone system ends with the extreme solution of its equations on the nodes that it
resolves. An eager run resolves all nodes and gives the solution that the system asks for. A run
from the boundary leaves the nodes out that no value reaches, and gives the solution that its meet
asks for.

## Main definitions

* `Equation.IsSolution` — some values satisfy the equations of the nodes of a region, with all
  other nodes left out of the meets.
* `SolverState.value` — the value that a state gives a node.

## Main results

* `SolverState.Ends.isExtreme` — the last values are the extreme solution.
* `solve_reachableOnly_isExtreme` — what a run from the boundary computes.
-/

namespace PartialRedundancy

/-- The values `w` satisfy the equations of all nodes of `R` but the boundary, with the sources
outside of `R` left out of the meets. -/
def Equation.IsSolution (e : Equation) (g : FlowGraph) (R : Nat → Prop) (w : Nat → Bool) : Prop :=
  ∀ n, R n → n ≠ e.direction.boundary g → ∃ met : Bool,
    (match e.meet with
      | .all => met = true ↔ ∀ m, e.direction.Source g m n → R m → e.term m (w m) = .ok true
      | .any => met = true ↔ ∃ m, e.direction.Source g m n ∧ R m ∧ e.term m (w m) = .ok true) ∧
    e.apply n met = .ok (w n)

section IsSolution

variable {e : Equation} {g : FlowGraph} {R : Nat → Prop} {w : Nat → Bool} {x : Nat → Fact}

/-- The equation of a node, if all contributions have to be true. -/
lemma Equation.IsSolution.conjunction (h : e.IsSolution g R w) (hmeet : e.meet = .all) {n : Nat}
    (hn : R n) (hb : n ≠ e.direction.boundary g) : ∃ met : Bool,
      (met = true ↔ ∀ m, e.direction.Source g m n → R m → e.term m (w m) = .ok true) ∧
      e.apply n met = .ok (w n) := by
  simpa only [hmeet] using h n hn hb

/-- The equation of a node, if one contribution has to be true. -/
lemma Equation.IsSolution.disjunction (h : e.IsSolution g R w) (hmeet : e.meet = .any) {n : Nat}
    (hn : R n) (hb : n ≠ e.direction.boundary g) : ∃ met : Bool,
      (met = true ↔ ∃ m, e.direction.Source g m n ∧ R m ∧ e.term m (w m) = .ok true) ∧
      e.apply n met = .ok (w n) := by
  simpa only [hmeet] using h n hn hb

/-- The facts that stand for the values of the nodes of a region. -/
lemma exists_facts (R : Nat → Prop) (w : Nat → Bool) :
    ∃ x : Nat → Fact, ∀ n b, x n = .known b ↔ R n ∧ w n = b := by
  classical
  refine ⟨fun n => if R n then .known (w n) else .unknown, fun n b => ?_⟩
  by_cases hn : R n <;> simp [hn]

/-- These facts give a value to the nodes of the region. -/
lemma facts_ne_unknown_iff (hx : ∀ n b, x n = .known b ↔ R n ∧ w n = b) {n : Nat} :
    x n ≠ .unknown ↔ R n := by
  rw [Fact.ne_unknown_iff]
  constructor
  · rintro ⟨b, hn⟩
    exact ((hx n b).mp hn).1
  · intro hn
    exact ⟨w n, (hx n _).mpr ⟨hn, rfl⟩⟩

/-- The meet of the contributions of the sources in a region. -/
lemma Equation.met_region (hx : ∀ n b, x n = .known b ↔ R n ∧ w n = b) {met : Bool} {n : Nat} :
    (met = true ↔ e.Met x fun m => e.direction.Source g m n) ↔
      match e.meet with
        | .all => met = true ↔ ∀ m, e.direction.Source g m n → R m → e.term m (w m) = .ok true
        | .any => met = true ↔
            ∃ m, e.direction.Source g m n ∧ R m ∧ e.term m (w m) = .ok true := by
  cases hm : e.meet with
  | all =>
    rw [e.met_all hm]
    refine iff_congr Iff.rfl ⟨fun h m hs hr => ?_, fun h m v hs hv => ?_⟩
    · exact h m _ hs ((hx m _).mpr ⟨hr, rfl⟩)
    · obtain ⟨hr, rfl⟩ := (hx m v).mp hv
      exact h m hs hr
  | any =>
    rw [e.met_any hm]
    refine iff_congr Iff.rfl ⟨?_, ?_⟩
    · rintro ⟨m, v, hs, hv, ht⟩
      obtain ⟨hr, rfl⟩ := (hx m v).mp hv
      exact ⟨m, hs, hr, ht⟩
    · rintro ⟨m, hs, hr, ht⟩
      exact ⟨m, _, hs, (hx m _).mpr ⟨hr, rfl⟩, ht⟩

/-- Values satisfy the equations of a region if the facts that stand for them do. -/
lemma Equation.isSolution_iff_satisfies (hx : ∀ n b, x n = .known b ↔ R n ∧ w n = b) :
    e.IsSolution g R w ↔ e.Satisfies g x := by
  constructor
  · intro h n b hb hn
    obtain ⟨hr, rfl⟩ := (hx n b).mp hn
    obtain ⟨met, hmet, happly⟩ := h n hr hb
    exact ⟨met, (met_region hx).mpr hmet, happly⟩
  · intro h n hr hb
    obtain ⟨met, hmet, happly⟩ := h n (w n) hb ((hx n _).mpr ⟨hr, rfl⟩)
    exact ⟨met, (met_region hx).mp hmet, happly⟩

end IsSolution

namespace SolverState

variable {e : Equation} {g : FlowGraph} {seeding : Seeding} {s : SolverState} {n : Nat}

/-- The value that a state gives node `n`. -/
def value (s : SolverState) (n : Nat) : Bool := (factAt s.facts n).holds

/-- At the end the nodes of the region have their values, and the other nodes have none. -/
lemma Ends.fact_eq_known_iff (h : s.Ends e g seeding) {b : Bool} :
    factAt s.facts n = .known b ↔ e.direction.Region g seeding n ∧ s.value n = b := by
  rw [← h.known_iff, value]
  cases factAt s.facts n with
  | unknown => simp
  | known c => simp [Fact.holds]

/-- The last values are the extreme solution: they satisfy the equations, and a solution is below
them exactly if it is at the boundary. -/
theorem Ends.isExtreme (h : s.Ends e g seeding) (he : e.IsMonotone g) :
    s.value (e.direction.boundary g) = e.boundary ∧
      e.IsSolution g (e.direction.Region g seeding) s.value ∧
      ∀ w, e.IsSolution g (e.direction.Region g seeding) w →
        ((∀ n, e.direction.Region g seeding n → (e.origin seeding).Le (w n) (s.value n)) ↔
          (e.origin seeding).Le (w (e.direction.boundary g)) e.boundary) := by
  have hb := e.direction.region_boundary g seeding
  obtain ⟨_, hvalue⟩ := h.fact_eq_known_iff.mp h.invariants.1.fact_boundary
  have hsolution := (Equation.isSolution_iff_satisfies fun n b => h.fact_eq_known_iff).mpr
    h.satisfies
  refine ⟨hvalue, hsolution, fun w hw => ⟨fun hle => ?_, fun hle n hn => ?_⟩⟩
  · rw [← hvalue]
    exact hle _ hb
  · obtain ⟨x, hx⟩ := exists_facts (e.direction.Region g seeding) w
    have hxb : x (e.direction.boundary g) = .known (w (e.direction.boundary g)) :=
      (hx _ _).mpr ⟨hb, rfl⟩
    have hfact := h.le he ((Equation.isSolution_iff_satisfies hx).mp hw).supports
      (fun _ => facts_ne_unknown_iff hx)
      (by rw [hxb]; exact hle) n
    rw [(hx n _).mpr ⟨hn, rfl⟩, h.fact_eq_known_iff.mpr ⟨hn, rfl⟩] at hfact
    exact hfact

/-- A resolved node has its value in the facts of the run. -/
lemma Ends.getElem?_of_region (h : s.Ends e g seeding) (hn : e.direction.Region g seeding n) :
    s.finish.facts[n]? = some (.known (s.value n)) := by
  refine getElem?_eq_some_iff_factAt.mpr ⟨?_, h.fact_eq_known_iff.mpr ⟨hn, rfl⟩⟩
  exact Nat.lt_of_lt_of_eq hn.lt h.invariants.1.size_facts.symm

/-- A node outside of the region has no value in the facts of the run. -/
lemma Ends.getElem?_eq_unknown_iff (h : s.Ends e g seeding) (hn : n < g.size) :
    s.finish.facts[n]? = some .unknown ↔ ¬ e.direction.Region g seeding n := by
  rw [getElem?_eq_some_iff_factAt, ← h.known_iff, not_not]
  exact and_iff_right (Nat.lt_of_lt_of_eq hn h.invariants.1.size_facts.symm)

end SolverState

/-- The run of a monotone system settles, in the state in which the loop ends. -/
lemma exists_solve {e : Equation} {g : FlowGraph} (he : e.IsMonotone g) (seeding : Seeding) :
    ∃ s : SolverState, solve e g seeding = .ok (.settled s.finish) ∧ s.Ends e g seeding := by
  obtain ⟨s, hs, hends, hwithin⟩ := SolverState.exists_solverState he seeding
  refine ⟨s, bind_eq_ok_iff.mpr ⟨s, hs, ?_⟩, hends⟩
  rw [if_neg (Nat.not_lt.mpr hwithin)]
  rfl

/-- A run settles in one way. -/
lemma eq_of_settled {x : Except OutOfBounds Outcome} {r r' : SolverRun}
    (h : x = .ok (.settled r)) (h' : x = .ok (.settled r')) : r = r' :=
  Outcome.settled.inj (Except.ok.inj (h.symm.trans h'))

/-- **What a run from the boundary computes.** If the system is monotone, the loop of the solver
ends and the run settles. The nodes that stay unknown are those that values from the boundary do not
reach. On the other nodes the run gives the extreme solution of the equations in which the unknown
nodes are left out of every meet and the boundary has its value: the greatest one if the meet is a
conjunction, the least one if it is a disjunction. -/
theorem solve_reachableOnly_isExtreme (e : Equation) (g : FlowGraph) (he : e.IsMonotone g) :
    ∃ (s : SolverState) (v : Nat → Bool), s.Ends e g .reachableOnly ∧
      solve e g .reachableOnly = .ok (.settled s.finish) ∧ s.finish.facts.size = g.size ∧
      (∀ n < g.size, s.finish.facts[n]? = some .unknown ↔
        n ≠ e.direction.boundary g ∧ ¬ e.direction.Reached g n) ∧
      (∀ n, e.direction.Reached g n → s.finish.facts[n]? = some (.known (v n))) ∧
      v (e.direction.boundary g) = e.boundary ∧ e.IsSolution g (e.direction.Reached g) v ∧
      ∀ w : Nat → Bool, w (e.direction.boundary g) = e.boundary →
        e.IsSolution g (e.direction.Reached g) w → ∀ n, e.direction.Reached g n →
          match e.meet with
            | .all => w n = true → v n = true
            | .any => v n = true → w n = true := by
  obtain ⟨s, hs, hends⟩ := exists_solve he .reachableOnly
  obtain ⟨hboundary, hsolution, hextreme⟩ := hends.isExtreme he
  refine ⟨s, s.value, hends, hs, hends.invariants.1.size_facts, fun n hn => ?_,
    fun n hn => hends.getElem?_of_region hn, hboundary, hsolution, fun w hwb hw n hn => ?_⟩
  · rw [hends.getElem?_eq_unknown_iff hn]
    refine ⟨fun hr => ⟨?_, hr⟩, And.right⟩
    rintro rfl
    exact hr (e.direction.reached_boundary g)
  · have hle := (hextreme w hw).mpr (hwb ▸ Extreme.Le.refl _ _) n hn
    simp only [Equation.origin] at hle
    cases hm : e.meet <;> rw [hm] at hle <;> exact hle

/-- Two real nodes, the first of which is its own successor and does not lead to the second. -/
def selfLoop : FlowGraph := (FlowGraph.bare 2).insertEdge 1 1 (by decide) (by decide)

/-- The equations of the nodes to which some path brings the truth of the entry, which is false. -/
def passing : Equation where
  direction := .forward
  extreme := .greatest
  meet := .any
  boundary := false
  term _ value := .ok value
  apply _ met := .ok met

/-- Both values of the loop satisfy its equation, and the run finds the lesser one. The second node
is not reached and stays unknown. -/
theorem solve_reachableOnly_passing : passing.IsMonotone selfLoop ∧ ∃ s : SolverState,
    solve passing selfLoop .reachableOnly = .ok (.settled s.finish) ∧
      s.finish.facts = #[.known false, .known false, .unknown, .unknown] ∧
      ¬ Direction.forward.Reached selfLoop 2 := by
  have hrising : Rising .ok := ⟨false, true, rfl, rfl, fun _ => rfl⟩
  have he : passing.IsMonotone selfLoop := ⟨fun _ _ => hrising, fun _ _ => hrising⟩
  obtain ⟨s, v, _, hs, _, hunknown, _⟩ := solve_reachableOnly_isExtreme passing selfLoop he
  have hfacts : s.finish.facts = #[.known false, .known false, .unknown, .unknown] := by
    obtain ⟨r, hr, hfacts⟩ : ∃ r, solve passing selfLoop .reachableOnly = .ok (.settled r) ∧
        r.facts = #[.known false, .known false, .unknown, .unknown] := ⟨_, rfl, rfl⟩
    rw [eq_of_settled hs hr, hfacts]
  refine ⟨he, s, hs, hfacts, ((hunknown 2 (by decide)).mp ?_).2⟩
  rw [hfacts]
  rfl

end PartialRedundancy
