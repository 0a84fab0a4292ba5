import PartialRedundancy.Proofs.Dataflow.Simulation

/-!
# How far the two seedings differ

An eager run and a run from the boundary solve the same equations, but the second one leaves out the
nodes that the boundary does not reach. What is left out contributes nothing, and so the second run
stays nearer to the extreme value. Where nothing that is left out is read, the runs agree.

## Main definitions

* `SolverRun.Resolves` — a run ends with a value for a node.
* `Direction.SourceClosed` — the equations of some nodes read these nodes only.

## Main results

* `SolverState.Ends.value_le_of_reached` — on the nodes that the boundary reaches, an eager run ends
  below a run from the boundary.
* `SolverState.Ends.le_of_sourceClosed` — it does not end below if no other nodes are read.
* `solve_eager_le_reachableOnly` — how the results of the solver compare.
-/

namespace PartialRedundancy

/-- The run ends with a value for node `n`. -/
def SolverRun.Resolves (r : SolverRun) (n : Nat) : Prop := ∃ b, r.facts[n]? = some (.known b)

/-- The equations of the nodes of `R` but the boundary read nodes of `R` only. -/
def Direction.SourceClosed (d : Direction) (g : FlowGraph) (R : Nat → Prop) : Prop :=
  ∀ m n, R n → n ≠ d.boundary g → d.Source g m n → R m

namespace SolverState.Ends

variable {e : Equation} {g : FlowGraph} {seeding : Seeding} {s s' : SolverState} {n : Nat}

/-- The nodes for which a run ends with a value are those of its region. -/
lemma resolves_iff (h : s.Ends e g seeding) :
    s.finish.Resolves n ↔ e.direction.Region g seeding n := by
  constructor
  · rintro ⟨b, hb⟩
    exact (h.fact_eq_known_iff.mp (getElem?_eq_some_iff_factAt.mp hb).2).1
  · intro hn
    exact ⟨s.value n, h.getElem?_of_region hn⟩

/-- If the system descends in the order of its meet, an eager run ends below a run from the
boundary. -/
lemma value_le_of_reached (h : s.Ends e g .eager) (he : e.IsMonotone g) (ho : e.Aligned)
    (h' : s'.Ends e g .reachableOnly) (hn : e.direction.Reached g n) :
    e.extreme.Le (s.value n) (s'.value n) := by
  have hle : (factAt s.facts n).Le e.meet.extreme (factAt s'.facts n) :=
    h'.le_of_dominates he rfl h he.isTotal (.of_region e fun _ hm => Direction.Reached.lt hm) rfl
  rw [h.fact_eq_known_iff.mpr ⟨hn.lt, rfl⟩, h'.fact_eq_known_iff.mpr ⟨hn, rfl⟩, ← ho] at hle
  exact hle

/-- If the equations of the nodes that the boundary reaches read no other nodes, a run from the
boundary ends below an eager run.

**Proof sketch.** Take the last facts of the run from the boundary, and the least value for all
nodes that it leaves out. The equations support this assignment: those of the nodes that are reached
read nothing that was added. So the eager run ends above it. -/
lemma le_of_sourceClosed (h : s.Ends e g .eager) (he : e.IsMonotone g)
    (h' : s'.Ends e g .reachableOnly) (hclosed : e.direction.SourceClosed g (e.direction.Reached g))
    (hn : e.direction.Reached g n) : e.extreme.Le (s'.value n) (s.value n) := by
  classical
  obtain ⟨x, hx⟩ := exists_facts (e.direction.Region g .eager)
    fun m => if e.direction.Reached g m then s'.value m else !e.extreme.start
  have hreached (m : Nat) (hm : e.direction.Reached g m) : x m = factAt s'.facts m := by
    rw [(hx m _).mpr ⟨hm.lt, rfl⟩, if_pos hm, h'.fact_eq_known_iff.mpr ⟨hm, rfl⟩]
  have hsupports : e.Supports g e.extreme x := by
    intro m a b hb ha hright
    by_cases hm : e.direction.Reached g m
    · rw [hreached m hm] at ha
      refine (h'.satisfies m a hb ha).le he hm.lt (fun l hl => ?_)
        (Or.inr fun l hl => (facts_ne_unknown_iff hx).mpr hl) hright
      rw [hreached l (hclosed l m hm hb hl)]
      exact .refl _ _
    · obtain ⟨_, rfl⟩ := (hx m a).mp ha
      rw [if_neg hm]
      exact Extreme.le_of_imp fun hstart => absurd hstart (Bool.not_ne_self _)
  have hboundary : (x (e.direction.boundary g)).Le e.extreme (.known e.boundary) := by
    rw [hreached _ (e.direction.reached_boundary g), h'.invariants.1.fact_boundary]
    exact .refl _ _
  have hle := h.le he hsupports (fun _ => facts_ne_unknown_iff hx) hboundary n
  rw [hreached n hn, h'.fact_eq_known_iff.mpr ⟨hn, rfl⟩,
    h.fact_eq_known_iff.mpr ⟨hn.lt, rfl⟩] at hle
  exact hle

end SolverState.Ends

/-- **How far the two seedings differ.** Take a monotone system that asks for the greatest solution
of conjunctions or for the least solution of disjunctions. Its runs settle with both seedings.
Compare the two runs at the nodes for which the run from the boundary ends with a value. If the
greatest solution is asked for, what is true in the eager run is true in this run; if the least
solution is asked for, what is true in this run is true in the eager run. If the equations of these
nodes but the boundary read no other nodes, the runs agree at all of them. -/
theorem solve_eager_le_reachableOnly (e : Equation) (g : FlowGraph) (he : e.IsMonotone g)
    (ho : e.Aligned) :
    ∃ full part : SolverRun, solve e g .eager = .ok (.settled full) ∧
      solve e g .reachableOnly = .ok (.settled part) ∧
      (e.extreme = .greatest → ∀ n, part.Resolves n →
        full.facts[n]? = some (.known true) → part.facts[n]? = some (.known true)) ∧
      (e.extreme = .least → ∀ n, part.Resolves n →
        part.facts[n]? = some (.known true) → full.facts[n]? = some (.known true)) ∧
      (e.direction.SourceClosed g part.Resolves →
        ∀ n, part.Resolves n → full.facts[n]? = part.facts[n]?) := by
  obtain ⟨s, hs, h⟩ := exists_solve he .eager
  obtain ⟨s', hs', h'⟩ := exists_solve he .reachableOnly
  have hresolves : s'.finish.Resolves = e.direction.Reached g :=
    funext fun n => propext h'.resolves_iff
  have hfull {n : Nat} (hn : e.direction.Reached g n) :
      s.finish.facts[n]? = some (.known (s.value n)) := h.getElem?_of_region hn.lt
  have hpart {n : Nat} (hn : e.direction.Reached g n) :
      s'.finish.facts[n]? = some (.known (s'.value n)) :=
    h'.getElem?_of_region hn
  have hle {n : Nat} (hn : e.direction.Reached g n) : e.extreme.Le (s.value n) (s'.value n) :=
    h.value_le_of_reached he ho h' hn
  refine ⟨s.finish, s'.finish, hs, hs', ?_, ?_, ?_⟩
  · intro hextreme n hn htrue
    rw [hresolves] at hn
    rw [hfull hn, Option.some.injEq, Fact.known.injEq] at htrue
    have hle := hle hn
    rw [hextreme] at hle
    rw [hpart hn, hle htrue]
  · intro hextreme n hn htrue
    rw [hresolves] at hn
    rw [hpart hn, Option.some.injEq, Fact.known.injEq] at htrue
    have hle := hle hn
    rw [hextreme] at hle
    rw [hfull hn, hle htrue]
  · intro hclosed n hn
    rw [hresolves] at hclosed hn
    rw [hfull hn, hpart hn, (hle hn).antisymm (h.le_of_sourceClosed he h' hclosed hn)]

/-- The equations of the nodes from which no path passes node 2. -/
def avoidingTwo : Equation where
  direction := .backward
  extreme := .greatest
  meet := .all
  boundary := true
  term _ value := .ok value
  apply n met := .ok (n != 2 && met)

/-- A branch to node 3, which leads to the exit, and to node 2, which leads nowhere. -/
def withDeadEnd : FlowGraph :=
  ((FlowGraph.bare 3).insertEdge 1 2 (by decide) (by decide)).insertEdge 1 3 (by decide) (by decide)

/-- The run from the exit does not know of the dead end, and so it differs from the eager run at the
branch. Where no node that leads to the exit has another successor, the runs agree. -/
theorem eager_le_reachableOnly_avoidingTwo :
    (∃ full part : SolverRun, solve avoidingTwo withDeadEnd .eager = .ok (.settled full) ∧
      solve avoidingTwo withDeadEnd .reachableOnly = .ok (.settled part) ∧
      full.facts[1]? = some (.known false) ∧ part.facts[1]? = some (.known true) ∧
      part.facts[3]? = some (.known true)) ∧
    ∃ full part : SolverRun, solve avoidingTwo selfLoop .eager = .ok (.settled full) ∧
      solve avoidingTwo selfLoop .reachableOnly = .ok (.settled part) ∧
      full.facts[1]? = some (.known true) ∧ part.facts[1]? = some .unknown ∧
      full.facts[2]? = part.facts[2]? := by
  have hmonotone (g : FlowGraph) : avoidingTwo.IsMonotone g := by
    refine ⟨fun m _ => ⟨false, true, rfl, rfl, fun _ => rfl⟩, fun n _ => ?_⟩
    exact ⟨n != 2 && false, n != 2 && true, rfl, rfl, by simp⟩
  have hfacts {g : FlowGraph} {seeding : Seeding} {r : SolverRun} {facts : Array Fact}
      (hr : solve avoidingTwo g seeding = .ok (.settled r))
      (h : ∃ r', solve avoidingTwo g seeding = .ok (.settled r') ∧ r'.facts = facts) :
      r.facts = facts := by
    obtain ⟨r', hr', rfl⟩ := h
    rw [eq_of_settled hr hr']
  constructor
  · obtain ⟨full, part, hfull, hpart, hle, _⟩ :=
      solve_eager_le_reachableOnly avoidingTwo withDeadEnd (hmonotone _) rfl
    have hfull' : full.facts =
        #[.known false, .known false, .known false, .known true, .known true] :=
      hfacts hfull ⟨_, rfl, rfl⟩
    have hpart' : part.facts = #[.known true, .known true, .unknown, .known true, .known true] :=
      hfacts hpart ⟨_, rfl, rfl⟩
    refine ⟨full, part, hfull, hpart, by rw [hfull']; rfl, by rw [hpart']; rfl, ?_⟩
    exact hle rfl 3 ⟨true, by rw [hpart']; rfl⟩ (by rw [hfull']; rfl)
  · obtain ⟨full, part, hfull, hpart, _, _, heq⟩ :=
      solve_eager_le_reachableOnly avoidingTwo selfLoop (hmonotone _) rfl
    have hfull' : full.facts = #[.known true, .known true, .known false, .known true] :=
      hfacts hfull ⟨_, rfl, rfl⟩
    have hpart' : part.facts = #[.unknown, .unknown, .known false, .known true] :=
      hfacts hpart ⟨_, rfl, rfl⟩
    refine ⟨full, part, hfull, hpart, by rw [hfull']; rfl, by rw [hpart']; rfl, ?_⟩
    refine heq ?_ 2 ⟨false, by rw [hpart']; rfl⟩
    -- apart from the exit only node 2 is resolved, and its successor is the exit
    rintro m n ⟨b, hn⟩ hb hm
    have hresolved : ∀ n < 4, ∀ b, n ≠ 3 →
        #[Fact.unknown, .unknown, .known false, .known true][n]? = some (.known b) → n = 2 := by
      decide
    rw [hpart'] at hn
    obtain rfl := hresolved n hm.lt.2 b hb hn
    have honly : ∀ m < 4, selfLoop.Edge 2 m → m = 3 := by decide
    obtain rfl := honly m hm.lt.1 hm
    exact ⟨true, by rw [hpart']; rfl⟩

end PartialRedundancy
