import PartialRedundancy.Proofs.Dataflow.Region

/-!
# The rounds of a run

What is true at the head of the loop after any number of rounds, for arbitrary equations, and how
the bounded loop of the solver relates to it: the number of rounds that the solver allows is never
what stops it.

## Main definitions

* `stateAfter` — the state at the head of the loop after some number of rounds.
* `SolverState.credit` — how many rounds are left at most, if only so many flips are allowed.

## Main results

* `SolverState.Consistent.credit_lt` — every round uses up some credit.
* `SolverState.Consistent.iterate_of_run` — the bounded loop ends with an empty queue, or after
  more flips than are allowed.
* `stateAfter_invariant` — the invariant of the loop, and what it says at the end.

## Design

Between two flips every round shortens the queue, and a flip fills it with no more nodes than there
are. A flip is therefore worth as many rounds as the graph has nodes. This does not depend on what
the values are, and so it holds of equations that are not monotone too; what monotonicity adds is a
bound on the number of flips.
-/

namespace PartialRedundancy

/-- The state at the head of the loop after some number of rounds. -/
def stateAfter (e : Equation) (g : FlowGraph) (seeding : Seeding) (rounds : Nat) :
    Except OutOfBounds SolverState := do
  SolverState.iterate e g rounds (← SolverState.start e g seeding)

/-- The state after some rounds is reached from the first one. -/
lemma stateAfter_eq_ok_iff {e : Equation} {g : FlowGraph} {seeding : Seeding} {rounds : Nat}
    {s : SolverState} : stateAfter e g seeding rounds = .ok s ↔
      ∃ s₀, SolverState.start e g seeding = .ok s₀ ∧ SolverState.iterate e g rounds s₀ = .ok s := by
  rw [stateAfter, bind_eq_ok_iff]

namespace SolverState

variable {e : Equation} {g : FlowGraph} {seeding : Seeding} {s t : SolverState}
  {limit fuel rounds : Nat}

/-! ## Any number of rounds -/

/-- Any number of rounds preserves the invariant. -/
lemma Consistent.iterate (hs : s.Consistent e g) (h : iterate e g rounds s = .ok t) :
    t.Consistent e g :=
  iterate_preserves (P := fun s => s.Consistent e g) (fun _ _ hs h => hs.step h) hs h

/-- A total system can go on by any number of rounds. -/
lemma Consistent.exists_iterate (hs : s.Consistent e g) (he : e.IsTotal g) (rounds : Nat) :
    ∃ t, SolverState.iterate e g rounds s = .ok t := by
  induction rounds generalizing s with
  | zero => exact ⟨s, rfl⟩
  | succ rounds ih =>
    obtain ⟨u, hu⟩ := hs.exists_step he
    obtain ⟨t, ht⟩ := ih (hs.step hu)
    exact ⟨t, bind_eq_ok_iff.mpr ⟨u, hu, ht⟩⟩

/-! ## The bounded loop -/

/-- How many rounds are left at most before the queue is empty or there are more than `limit`
flips. -/
def credit (g : FlowGraph) (limit : Nat) (s : SolverState) : Nat :=
  (limit + 1 - s.flips.size) * g.size + s.worklist.toList.length

/-- As long as a node waits and the flips are within the limit, every round uses up some credit. -/
lemma Consistent.credit_lt (hs : s.Consistent e g) (h : s.step e g = .ok t)
    (hne : s.worklist.toList ≠ []) (hlimit : s.flips.size ≤ limit) :
    t.credit g limit < s.credit g limit := by
  have hlen := (hs.step h).worklist.length_le
  unfold credit
  cases step_of_eq_ok h with
  | rest hnil => exact absurd hnil hne
  | @keep n value w hpop heval hold =>
    rw [Worklist.toList_of_pop hpop, List.length_cons]
    exact Nat.add_lt_add_left (Nat.lt_succ_self _) _
  | @flip n value w w' readers hpop heval hold hn hreaders hqueue =>
    change w'.toList.length ≤ g.size at hlen
    -- the flip is paid with as many rounds as there are nodes
    have hpay : limit + 1 - s.flips.size = (limit + 1 - (s.flips.size + 1)) + 1 := by omega
    rw [Worklist.toList_of_pop hpop, List.length_cons, Array.size_push, hpay, Nat.succ_mul]
    change _ + w'.toList.length < _
    omega

/-- The credit at the beginning is not more than the number of rounds that the solver allows. -/
lemma credit_of_start (h : start e g seeding = .ok s) (limit : Nat) :
    s.credit g limit ≤ (limit + 2) * g.size := by
  obtain ⟨_, _, hflips, hw, _⟩ := start_spec h
  have hlen := hw.length_le
  have hsucc : (limit + 2) * g.size = (limit + 1) * g.size + g.size := Nat.succ_mul _ _
  have hsize : s.flips.size = 0 := by rw [hflips]; rfl
  rw [credit, hsize, hsucc]
  exact Nat.add_le_add_left hlen _

/-- The bounded loop fails only as its rounds do, in states that have what every round preserves. -/
lemma run_failsOnly {P : OutOfBounds → Prop} {Q : SolverState → Prop}
    (hstep : ∀ s t, Q s → s.step e g = .ok t → Q t) (hfail : ∀ s, Q s → FailsOnly P (s.step e g))
    (hs : Q s) (limit fuel : Nat) : FailsOnly P (run e g limit fuel s) := by
  induction fuel generalizing s with
  | zero => exact .of_ok rfl
  | succ fuel ih =>
    rw [run]
    split
    · exact .of_ok rfl
    · exact (hfail s hs).bind fun u hu => ih (hstep s u hs hu)

/-- A total system can go through the bounded loop. -/
lemma Consistent.exists_run (hs : s.Consistent e g) (he : e.IsTotal g) (limit fuel : Nat) :
    ∃ t, run e g limit fuel s = .ok t :=
  FailsOnly.exists_ok <| run_failsOnly (Q := fun s => s.Consistent e g)
    (fun _ _ hs h => hs.step h)
    (fun _ hs => by
      obtain ⟨t, ht⟩ := hs.exists_step he
      exact .of_ok ht)
    hs limit fuel

/-- With enough credit the bounded loop makes some number of rounds, and it stops because no node
waits or because there are too many flips.

**Proof sketch.** Induction on the number of rounds that are allowed. If the loop goes on, a node
waits and the flips are within the limit, so the round uses up some credit. Without credit the queue
is empty. -/
lemma Consistent.iterate_of_run (hs : s.Consistent e g) (h : run e g limit fuel s = .ok t)
    (hfuel : s.credit g limit ≤ fuel) :
    ∃ rounds, SolverState.iterate e g rounds s = .ok t ∧
      (t.worklist.toList = [] ∨ limit < t.flips.size) := by
  induction fuel generalizing s with
  | zero =>
    obtain rfl : s = t := by simpa [run] using h
    have hlen : s.worklist.toList.length = 0 := by
      unfold credit at hfuel
      omega
    exact ⟨0, rfl, Or.inl (List.length_eq_zero_iff.mp hlen)⟩
  | succ fuel ih =>
    rw [run] at h
    split at h
    · -- the loop stops here
      rename_i hstop
      obtain rfl : s = t := by simpa using h
      rw [Bool.or_eq_true, Worklist.isEmpty_iff, decide_eq_true_iff] at hstop
      exact ⟨0, rfl, hstop⟩
    · -- one round more, which the credit pays for
      rename_i hgo
      rw [Bool.or_eq_true, Worklist.isEmpty_iff, decide_eq_true_iff, not_or, Nat.not_lt] at hgo
      obtain ⟨u, hu, h⟩ := bind_eq_ok_iff.mp h
      have hcredit := hs.credit_lt hu hgo.1 hgo.2
      obtain ⟨rounds, hrounds, hend⟩ := ih (hs.step hu) h (by omega)
      exact ⟨rounds + 1, bind_eq_ok_iff.mpr ⟨u, hu, hrounds⟩, hend⟩

end SolverState

/-! ## The solver -/

section Solver

variable {e : Equation} {g : FlowGraph} {seeding : Seeding} {s : SolverState} {limit rounds : Nat}

/-- The invariant holds after any number of rounds. -/
lemma consistent_of_stateAfter (h : stateAfter e g seeding rounds = .ok s) : s.Consistent e g := by
  obtain ⟨s₀, h₀, hs⟩ := stateAfter_eq_ok_iff.mp h
  exact (SolverState.consistent_of_start h₀).iterate hs

/-- A total system has a state after any number of rounds. -/
lemma exists_stateAfter (he : e.IsTotal g) (seeding : Seeding) (rounds : Nat) :
    ∃ s, stateAfter e g seeding rounds = .ok s := by
  obtain ⟨s₀, h₀⟩ := SolverState.exists_start e g seeding
  obtain ⟨s, hs⟩ := (SolverState.consistent_of_start h₀).exists_iterate he rounds
  exact ⟨s, stateAfter_eq_ok_iff.mpr ⟨s₀, h₀, hs⟩⟩

/-- The solver gets through the run of a total system. -/
lemma exists_solverState_of_isTotal (he : e.IsTotal g) (seeding : Seeding) (limit : Nat) :
    ∃ s, solverState e g seeding limit = .ok s := by
  obtain ⟨s₀, h₀⟩ := SolverState.exists_start e g seeding
  obtain ⟨s, hs⟩ := (SolverState.consistent_of_start h₀).exists_run he limit _
  exact ⟨s, bind_eq_ok_iff.mpr ⟨s₀, h₀, hs⟩⟩

/-- The solver stops because no node waits or because there are too many flips. -/
lemma stateAfter_of_solverState (h : solverState e g seeding limit = .ok s) :
    ∃ rounds, stateAfter e g seeding rounds = .ok s ∧
      (s.worklist.toList = [] ∨ limit < s.flips.size) := by
  obtain ⟨s₀, h₀, hrun⟩ := bind_eq_ok_iff.mp h
  obtain ⟨rounds, hs, hend⟩ := (SolverState.consistent_of_start h₀).iterate_of_run hrun
    (SolverState.credit_of_start h₀ limit)
  exact ⟨rounds, stateAfter_eq_ok_iff.mpr ⟨s₀, h₀, hs⟩, hend⟩

/-- A run that settles is one that has ended with an empty queue. -/
lemma stateAfter_of_settled {r : SolverRun}
    (h : solveWithin e g seeding limit = .ok (.settled r)) :
    ∃ rounds s, stateAfter e g seeding rounds = .ok s ∧ s.worklist.toList = [] ∧
      r = s.finish := by
  obtain ⟨s, hs, h⟩ := bind_eq_ok_iff.mp h
  obtain ⟨rounds, hrounds, hend⟩ := stateAfter_of_solverState hs
  split at h
  · exact absurd (pure_eq_ok_iff.mp h) (by simp)
  · rename_i hwithin
    have hr : s.finish = r := Outcome.settled.inj (pure_eq_ok_iff.mp h)
    exact ⟨rounds, s, hrounds, hend.resolve_right hwithin, hr.symm⟩

/-- A run that is cut off goes on: its record is the beginning of a longer one. -/
lemma stateAfter_of_cutOff {flips : List Flip}
    (h : solveWithin e g seeding limit = .ok (.cutOff flips)) :
    ∃ rounds s, stateAfter e g seeding rounds = .ok s ∧ limit < s.flips.size ∧
      flips = s.flips.toList.take limit := by
  obtain ⟨s, hs, h⟩ := bind_eq_ok_iff.mp h
  obtain ⟨rounds, hrounds, _⟩ := stateAfter_of_solverState hs
  split at h
  · rename_i hlimit
    have hflips : s.flips.toList.take limit = flips := Outcome.cutOff.inj (pure_eq_ok_iff.mp h)
    exact ⟨rounds, s, hrounds, hlimit, hflips.symm⟩
  · exact absurd (pure_eq_ok_iff.mp h) (by simp)

end Solver

/-- **The invariant of the loop.** For arbitrary equations, at the head of the loop after any number
of rounds: no node waits twice, the boundary does not wait, the marks tell which nodes wait, and the
boundary has its value. Every other node that does not wait either has a value, which is the one
that an evaluation on the current facts gives, or nothing is known of it and of its sources. So once
no node waits, and in particular when a run settles, all nodes that have a value but the boundary
satisfy their equations, with the unknown sources left out. Where terms and applications do not
fail, there is a state after every number of rounds. -/
theorem stateAfter_invariant (e : Equation) (g : FlowGraph) (seeding : Seeding) :
    (e.IsTotal g → ∀ rounds, ∃ s, stateAfter e g seeding rounds = .ok s) ∧
    (∀ rounds s, stateAfter e g seeding rounds = .ok s →
      s.worklist.toList.Nodup ∧ e.direction.boundary g ∉ s.worklist.toList ∧
      s.worklist.queued.size = g.size ∧
      (∀ n, s.worklist.queued[n]? = some true ↔ n ∈ s.worklist.toList) ∧
      s.facts[e.direction.boundary g]? = some (.known e.boundary) ∧
      (∀ n < g.size, n ≠ e.direction.boundary g → n ∉ s.worklist.toList →
        (∃ b, s.facts[n]? = some (.known b) ∧ e.evaluate g s.facts n = .ok b) ∨
        (s.facts[n]? = some .unknown ∧
          ∀ m, e.direction.Source g m n → s.facts[m]? = some .unknown)) ∧
      (s.worklist.toList = [] → e.Satisfies g (factAt s.facts))) ∧
    ∀ limit r, solveWithin e g seeding limit = .ok (.settled r) →
      (∃ rounds s, stateAfter e g seeding rounds = .ok s ∧ s.worklist.toList = [] ∧
        r = s.finish) ∧ e.Satisfies g (factAt r.facts) := by
  refine ⟨fun he rounds => exists_stateAfter he seeding rounds, ?_, ?_⟩
  · intro rounds s h
    have hs := consistent_of_stateAfter h
    have hfact (n : Nat) (hn : n < g.size) : s.facts[n]? = some (factAt s.facts n) :=
      getElem?_eq_some_iff_factAt.mpr ⟨hs.size_facts.symm ▸ hn, rfl⟩
    refine ⟨hs.worklist.nodup, hs.boundary_notMem, hs.worklist.size_queued, hs.worklist.queued_iff,
      ?_, ?_, hs.satisfies⟩
    · rw [hfact _ (e.direction.boundary_lt g), hs.fact_boundary]
    · intro n hn hb hw
      rcases hs.settled n hn hb hw with ⟨b, hnb, heval⟩ | ⟨hu, hsource⟩
      · left
        exact ⟨b, by rw [hfact n hn, hnb], heval⟩
      · right
        refine ⟨by rw [hfact n hn, hu], ?_⟩
        intro m hm
        rw [hfact m hm.lt.1, hsource m hm]
  · intro limit r h
    obtain ⟨rounds, s, hs, hnil, rfl⟩ := stateAfter_of_settled h
    exact ⟨⟨rounds, s, hs, hnil, rfl⟩, (consistent_of_stateAfter hs).satisfies hnil⟩

/-- One real node, which is its own successor. -/
def oneLoop : FlowGraph := (FlowGraph.bare 1).insertEdge 1 1 (by decide) (by decide)

/-- Every node contributes the contrary of its value, which is not monotone. -/
def negating : Equation where
  direction := .forward
  extreme := .greatest
  meet := .all
  boundary := false
  term _ value := .ok (!value)
  apply _ met := .ok met

/-- A node that contradicts itself never comes to rest: the loop goes on, and whenever only that
node waits the exit behind it has the value of its right-hand side. Without the edge from the node
to itself the same equations settle. -/
theorem stateAfter_negating :
    negating.IsTotal oneLoop ∧ (∀ rounds, ∃ s, stateAfter negating oneLoop .eager rounds = .ok s) ∧
    (∃ s, stateAfter negating oneLoop .eager 2 = .ok s ∧ s.worklist.toList = [1] ∧
      ∃ b, s.facts[2]? = some (.known b) ∧ negating.evaluate oneLoop s.facts 2 = .ok b) ∧
    ∃ r, solveWithin negating (.bare 1) .eager 2 = .ok (.settled r) ∧
      negating.Satisfies (.bare 1) (factAt r.facts) := by
  have htotal : negating.IsTotal oneLoop :=
    ⟨fun _ _ v => ⟨!v, rfl⟩, fun _ _ met => ⟨met, rfl⟩⟩
  obtain ⟨hgo, hinvariant, _⟩ := stateAfter_invariant negating oneLoop .eager
  obtain ⟨s, hs⟩ := hgo htotal 2
  have hlist : s.worklist.toList = [1] := by
    have hrun : (stateAfter negating oneLoop .eager 2).map (fun s => s.worklist.toList) =
        .ok [1] := rfl
    rw [hs] at hrun
    exact Except.ok.inj hrun
  have hexit : s.facts[2]? ≠ some .unknown := by
    have hrun : (stateAfter negating oneLoop .eager 2).map (fun s => s.facts[2]?) =
        .ok (some (.known true)) := rfl
    rw [hs] at hrun
    rw [show s.facts[2]? = some (.known true) from Except.ok.inj hrun]
    decide
  obtain ⟨_, _, _, _, _, hsettled, _⟩ := hinvariant 2 s hs
  obtain ⟨r, hr⟩ : ∃ r, solveWithin negating (.bare 1) .eager 2 = .ok (.settled r) := ⟨_, rfl⟩
  refine ⟨htotal, hgo htotal, ⟨s, hs, hlist, ?_⟩, r, hr,
    ((stateAfter_invariant negating (.bare 1) .eager).2.2 2 r hr).2⟩
  rcases hsettled 2 (by decide) (by decide) (by rw [hlist]; decide) with hknown | ⟨hunknown, _⟩
  · exact hknown
  · exact absurd hunknown hexit

end PartialRedundancy
