import PartialRedundancy.Proofs.Dataflow.Rounds

/-!
# The two polarities are dual

A system of equations can be turned upside down: conjunction becomes disjunction, the greatest
solution the least one, and every value its contrary. The solver favours neither side. Its run on
the dual system goes through the same nodes in the same order, with contrary values all along, and
what is unknown stays unknown. This does not depend on what terms and applications do.

## Main definitions

* `Equation.dual` — the dual of a system.
* `Fact.dual`, `Flip.dual`, `SolverState.dual` — contrary facts, and with them records and states.
* `SolverRun.dual`, `Outcome.dual` — contrary ends of a run.

## Main results

* `Equation.evaluate_dual` — the right-hand sides of the dual system have the contrary values.
* `SolverState.step_dual`, `SolverState.iterate_dual`, `SolverState.run_dual` — a round of the dual
  run, any number of rounds, and the bounded loop.
* `stateAfter_dual` — the two runs side by side.

## Design

Everything is an equation between computations that may fail, `y = x.map f`: the dual computation
succeeds with the contrary result, or it fails with the same error. Such equations are composed step
by step with `bind_eq_map`.
-/

namespace PartialRedundancy

/-! ## Results that are changed throughout -/

section Map

variable {ε α α' β β' : Type}

/-- Two steps in a row, the results of which are changed. -/
lemma bind_eq_map {x : Except ε α} {y : Except ε α'} {k : α → Except ε β} {k' : α' → Except ε β'}
    {f : α → α'} {h : β → β'} (hx : y = x.map f) (hk : ∀ a, k' (f a) = (k a).map h) :
    (y >>= k') = (x >>= k).map h := by
  subst hx
  cases x with
  | error e => rfl
  | ok a => exact hk a

/-- Two steps in a row, of which only the second one has its results changed. -/
lemma bind_eq_map_right {x : Except ε α} {k : α → Except ε β} {k' : α → Except ε β'} {h : β → β'}
    (hk : ∀ a, k' a = (k a).map h) : (x >>= k') = (x >>= k).map h := by
  cases x with
  | error e => rfl
  | ok a => exact hk a

/-- One step for each element of a list, with changed results. -/
lemma foldlM_eq_map {k : β → α → Except ε β} {k' : β' → α → Except ε β'} {f : β → β'}
    (hk : ∀ b a, k' (f b) a = (k b a).map f) (l : List α) (b : β) :
    l.foldlM k' (f b) = (l.foldlM k b).map f := by
  induction l generalizing b with
  | nil => rfl
  | cons a l ih =>
    rw [List.foldlM_cons, List.foldlM_cons]
    exact bind_eq_map (hk b a) ih

/-- A lookup in a table whose elements are changed. -/
lemma fetch_map (f : α → β) (xs : Array α) (i : Nat) :
    fetch (xs.map f) i = (fetch xs i).map f := by
  unfold fetch
  rw [Array.getElem?_map, Array.size_map]
  cases xs[i]? <;> rfl

/-- A replacement in a table whose elements are changed. -/
lemma store_map (f : α → β) (xs : Array α) (i : Nat) (x : α) :
    store (xs.map f) i (f x) = (store xs i x).map (Array.map f) := by
  unfold store
  rw [Array.size_map]
  split
  · rw [← Array.map_setIfInBounds]
    rfl
  · rfl

end Map

/-! ## Dual systems -/

/-- The other extreme. -/
def Extreme.dual : Extreme → Extreme
  | greatest => least
  | least => greatest

/-- The other way to combine contributions. -/
def Meet.dual : Meet → Meet
  | all => any
  | any => all

/-- The contrary of what is known. -/
def Fact.dual : Fact → Fact
  | unknown => unknown
  | known value => known (!value)

/-- The contrary flip of the same node. -/
def Flip.dual (f : Flip) : Flip := ⟨f.node, f.old.dual, !f.new⟩

/-- The dual system: its terms and applications take the contrary of a value and give the contrary
of what the system gives. -/
def Equation.dual (e : Equation) : Equation where
  direction := e.direction
  extreme := e.extreme.dual
  meet := e.meet.dual
  boundary := !e.boundary
  term m value := (e.term m (!value)).map (!·)
  apply n met := (e.apply n (!met)).map (!·)

/-- The state with contrary facts and a contrary record. The same nodes wait. -/
def SolverState.dual (s : SolverState) : SolverState :=
  ⟨s.facts.map Fact.dual, s.worklist, s.flips.map Flip.dual, s.evaluations⟩

/-- The result with contrary facts and a contrary record. -/
def SolverRun.dual (r : SolverRun) : SolverRun :=
  ⟨r.facts.map Fact.dual, r.flips.map Flip.dual, r.evaluations⟩

/-- The end of the run with contrary values. -/
def Outcome.dual : Outcome → Outcome
  | settled run => settled run.dual
  | cutOff flips => cutOff (flips.map Flip.dual)

@[simp] lemma Extreme.start_dual (x : Extreme) : x.dual.start = !x.start := by
  cases x <;> rfl

@[simp] lemma Meet.identity_dual (m : Meet) : m.dual.identity = !m.identity := by
  cases m <;> rfl

/-- The laws of De Morgan. -/
@[simp] lemma Meet.combine_dual (m : Meet) (a b : Bool) :
    m.dual.combine (!a) (!b) = !m.combine a b := by
  cases m <;> simp [dual, combine]

@[simp] lemma Fact.dual_dual (f : Fact) : f.dual.dual = f := by
  cases f <;> simp [dual]

/-- Contrary facts tell a value from another one alike. -/
@[simp] lemma Fact.dual_eq_known_iff {f : Fact} {b : Bool} :
    f.dual = .known (!b) ↔ f = .known b := by
  cases f <;> simp [dual]

/-- The dual of the dual system is the system. -/
lemma Equation.dual_dual (e : Equation) : e.dual.dual = e := by
  have hmap (x : Except OutOfBounds Bool) : (x.map (!·)).map (!·) = x := by
    cases x <;> simp [Except.map]
  obtain ⟨direction, extreme, meet, boundary, term, apply⟩ := e
  simp only [Equation.dual, Bool.not_not, hmap, Equation.mk.injEq, true_and, and_true]
  exact ⟨by cases extreme <;> rfl, by cases meet <;> rfl⟩

/-! ## Right-hand sides -/

namespace Equation

variable (e : Equation) (g : FlowGraph)

/-- What a source adds to the meet in the dual system. -/
lemma contribute_dual (facts : Array Fact) (met : Bool) (m : Nat) :
    e.dual.contribute (facts.map Fact.dual) (!met) m = (e.contribute facts met m).map (!·) := by
  refine bind_eq_map (fetch_map Fact.dual facts m) fun f => ?_
  cases f with
  | unknown => rfl
  | known value =>
    refine bind_eq_map (f := (!·)) ?_ fun t => ?_
    · simp only [Equation.dual, Bool.not_not]
    · exact congrArg Except.ok (e.meet.combine_dual met t)

/-- The right-hand sides of the dual system have the contrary values. -/
lemma evaluate_dual (facts : Array Fact) (n : Nat) :
    e.dual.evaluate g (facts.map Fact.dual) n = (e.evaluate g facts n).map (!·) := by
  refine bind_eq_map_right fun sources => ?_
  refine bind_eq_map (f := (!·)) ?_ fun met => ?_
  · change sources.toList.foldlM _ e.meet.dual.identity = _
    rw [Meet.identity_dual]
    exact foldlM_eq_map (e.contribute_dual facts) sources.toList e.meet.identity
  · simp only [Equation.dual, Bool.not_not]

end Equation

/-! ## Rounds -/

namespace SolverState

variable (e : Equation) (g : FlowGraph)

/-- The dual run starts from the contrary facts, with the same queue. -/
lemma start_dual (seeding : Seeding) :
    start e.dual g seeding = (start e g seeding).map SolverState.dual := by
  have hinitial : initialFact e.dual seeding = (initialFact e seeding).dual := by
    cases seeding with
    | eager => exact congrArg Fact.known e.extreme.start_dual
    | reachableOnly => rfl
  refine bind_eq_map (f := Array.map Fact.dual) ?_ fun facts => ?_
  · rw [hinitial, ← Array.map_replicate]
    exact store_map Fact.dual _ _ (.known e.boundary)
  · -- the queue does not depend on what is dual
    have hseeds : seeds e.dual g seeding = seeds e g seeding := by cases seeding <;> rfl
    rw [hseeds]
    refine bind_eq_map_right fun ns => bind_eq_map_right fun w => ?_
    simp [Except.map, pure, Except.pure, SolverState.dual]

/-- A round of the dual run takes the same node, flips it if the other run does, to the contrary
value, and queues the same readers. -/
lemma step_dual (s : SolverState) : s.dual.step e.dual g = (s.step e g).map SolverState.dual := by
  obtain ⟨facts, worklist, flips, evaluations⟩ := s
  refine bind_eq_map_right fun p => ?_
  obtain ⟨next, w⟩ := p
  cases next with
  | none => rfl
  | some n =>
    refine bind_eq_map (fetch_map Fact.dual facts n) fun old => ?_
    refine bind_eq_map (e.evaluate_dual g facts n) fun new => ?_
    by_cases hold : old = .known new
    · rw [if_pos hold, if_pos (Fact.dual_eq_known_iff.mpr hold)]
      rfl
    · rw [if_neg hold, if_neg (mt Fact.dual_eq_known_iff.mp hold)]
      refine bind_eq_map (store_map Fact.dual facts n (.known new)) fun facts' => ?_
      refine bind_eq_map_right fun readers => bind_eq_map_right fun w' => ?_
      simp [Except.map, pure, Except.pure, SolverState.dual, Flip.dual]

/-- Any number of rounds of the dual run. -/
lemma iterate_dual (rounds : Nat) (s : SolverState) :
    iterate e.dual g rounds s.dual = (iterate e g rounds s).map SolverState.dual := by
  induction rounds generalizing s with
  | zero => rfl
  | succ rounds ih => exact bind_eq_map (step_dual e g s) ih

/-- The bounded loop stops at the same round. -/
lemma run_dual (limit fuel : Nat) (s : SolverState) :
    run e.dual g limit fuel s.dual = (run e g limit fuel s).map SolverState.dual := by
  induction fuel generalizing s with
  | zero => rfl
  | succ fuel ih =>
    have hflips : s.dual.flips.size = s.flips.size := Array.size_map
    rw [run, run, hflips]
    change (if s.worklist.isEmpty || limit < s.flips.size then _ else _) = _
    split
    · rfl
    · exact bind_eq_map (step_dual e g s) ih

end SolverState

/-! ## Runs -/

section Run

variable (e : Equation) (g : FlowGraph) (seeding : Seeding)

/-- The dual run has the contrary state after any number of rounds. -/
lemma stateAfter_dual_eq (rounds : Nat) :
    stateAfter e.dual g seeding rounds = (stateAfter e g seeding rounds).map SolverState.dual :=
  bind_eq_map (SolverState.start_dual e g seeding) (SolverState.iterate_dual e g rounds)

/-- The dual run stops with the contrary state. -/
lemma solverState_dual (limit : Nat) :
    solverState e.dual g seeding limit = (solverState e g seeding limit).map SolverState.dual :=
  bind_eq_map (SolverState.start_dual e g seeding) (SolverState.run_dual e g limit _)

/-- Its result is the contrary one. -/
lemma finish_dual (s : SolverState) : s.dual.finish = s.finish.dual := by
  simp [SolverState.finish, SolverState.dual, SolverRun.dual]

/-- The dual run settles with the contrary result, or it is cut off after as many flips. -/
lemma solveWithin_dual (limit : Nat) :
    solveWithin e.dual g seeding limit = (solveWithin e g seeding limit).map Outcome.dual := by
  refine bind_eq_map (solverState_dual e g seeding limit) fun s => ?_
  have hflips : s.dual.flips.size = s.flips.size := Array.size_map
  rw [hflips]
  split
  · simp [Except.map, pure, Except.pure, SolverState.dual, Outcome.dual, List.map_take]
  · exact congrArg (fun r => Except.ok (Outcome.settled r)) (finish_dual s)

end Run

/-- **The two polarities of the solver are exact duals.** For arbitrary equations and their dual,
with either seeding: after any number of rounds either both runs have failed, with the same error,
or the same nodes wait in the same order, the facts of one are those of the other with truth and
falsehood exchanged, and the records list the same nodes in the same order with exchanged values. In
particular one run comes to an end exactly if the other does. So whatever the limit, both runs
settle with contrary results, or both are cut off with contrary records, or both fail. -/
theorem stateAfter_dual (e : Equation) (g : FlowGraph) (seeding : Seeding) :
    e.dual.dual = e ∧
    (∀ rounds s, stateAfter e g seeding rounds = .ok s →
      ∃ t, stateAfter e.dual g seeding rounds = .ok t ∧
        t.worklist = s.worklist ∧ (∀ n : Nat, t.facts[n]? = (s.facts[n]?).map Fact.dual) ∧
        t.flips.toList = s.flips.toList.map Flip.dual ∧ t.evaluations = s.evaluations) ∧
    (∀ rounds err, stateAfter e.dual g seeding rounds = .error err ↔
      stateAfter e g seeding rounds = .error err) ∧
    ((∃ rounds t, stateAfter e.dual g seeding rounds = .ok t ∧ t.worklist.toList = []) ↔
      ∃ rounds s, stateAfter e g seeding rounds = .ok s ∧ s.worklist.toList = []) ∧
    solve e.dual g seeding = (solve e g seeding).map Outcome.dual ∧
    ∀ limit, solveWithin e.dual g seeding limit =
      (solveWithin e g seeding limit).map Outcome.dual := by
  have hrounds := stateAfter_dual_eq e g seeding
  refine ⟨e.dual_dual, fun rounds s hs => ?_, fun rounds err => ?_, ?_,
    solveWithin_dual e g seeding _, solveWithin_dual e g seeding⟩
  · refine ⟨s.dual, by rw [hrounds, hs]; rfl, rfl, fun n => Array.getElem?_map, ?_, rfl⟩
    exact Array.toList_map
  · rw [hrounds]
    cases stateAfter e g seeding rounds <;> simp [Except.map]
  · refine exists_congr fun rounds => ?_
    rw [hrounds]
    cases stateAfter e g seeding rounds with
    | error err => simp [Except.map]
    | ok s => simp [Except.map, SolverState.dual]

/-- A node that contradicts itself does so in the dual system too, from falsehood on: after two
rounds it waits again in both runs, and after four rounds the records tell of contrary values.
Without the edge from the node to itself both systems settle. -/
theorem stateAfter_dual_negating :
    (∃ s t, stateAfter negating oneLoop .eager 4 = .ok s ∧
      stateAfter negating.dual oneLoop .eager 4 = .ok t ∧ t.worklist = s.worklist ∧
      s.worklist.toList ≠ [] ∧
      t.flips.toList =
        [⟨1, .known false, true⟩, ⟨1, .known true, false⟩, ⟨1, .known false, true⟩]) ∧
    ∃ r, solveWithin negating (.bare 1) .eager 2 = .ok (.settled r) ∧
      solveWithin negating.dual (.bare 1) .eager 2 = .ok (.settled r.dual) := by
  obtain ⟨_, hstate, _⟩ := stateAfter_dual negating oneLoop .eager
  obtain ⟨_, _, _, _, _, hwithin⟩ := stateAfter_dual negating (.bare 1) .eager
  obtain ⟨s, hs, hwaiting, hflips⟩ : ∃ s, stateAfter negating oneLoop .eager 4 = .ok s ∧
      s.worklist.toList ≠ [] ∧ s.flips.toList =
        [⟨1, .known true, false⟩, ⟨1, .known false, true⟩, ⟨1, .known true, false⟩] :=
    ⟨_, rfl, by decide, rfl⟩
  obtain ⟨t, ht, hqueue, _, hrecord, _⟩ := hstate 4 s hs
  obtain ⟨r, hr⟩ : ∃ r, solveWithin negating (.bare 1) .eager 2 = .ok (.settled r) := ⟨_, rfl⟩
  refine ⟨⟨s, t, hs, ht, hqueue, hwaiting, ?_⟩, r, hr, ?_⟩
  · rw [hrecord, hflips]
    rfl
  · rw [hwithin 2, hr]
    rfl

end PartialRedundancy
