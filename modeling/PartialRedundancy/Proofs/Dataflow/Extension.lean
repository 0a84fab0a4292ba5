import PartialRedundancy.Proofs.Dataflow.Extremal

/-!
# Systems that look sources up in a table

The terms of a system may look their source up in a table that somebody else has made, and which may
be too short. A run of such a system fails exactly if it resolves some source past the end of the
table that a node other than the boundary reads. Otherwise the table has all that is looked up, and
what else it has, or is made to have behind its end, does not matter.

## Main definitions

* `Equation.withTerm` — the system with other terms.
* `Equation.LooksUp` — the terms fail exactly at the sources past the end of a table.

## Main results

* `solve_withTerm` — terms that succeed more often, and alike, do not change a run that succeeds.
* `Equation.LooksUp.solve_failsOnly` — which lookup it is that fails.
* `Equation.LooksUp.lt_of_ends` — when a run has ended, the sources that it resolves are in the
  table.
* `Equation.LooksUp.solve_error_iff` — exactly when a run fails.

## Design

Which nodes are evaluated, and after which of their sources have got a value, depends on the order
of the queue. Neither direction of the result follows the rounds. A failure is that of an
evaluation, and the invariants of the loop tell which sources an evaluation can meet. A run that
succeeds is also one of the system with a longer table, so it ends; and at the end every node that
reads a resolved source can be evaluated on the last facts.
-/

namespace PartialRedundancy

/-- The system with other terms. -/
def Equation.withTerm (e : Equation) (term : Nat → Bool → Except OutOfBounds Bool) : Equation :=
  { e with term := term }

/-- The terms of `e` look their source up in a table of `size` entries: they succeed at the nodes
that are in the table and report those that are not. The applications never fail. -/
structure Equation.LooksUp (e : Equation) (g : FlowGraph) (size : Nat) : Prop where
  /-- A node in the table contributes something, whatever its value is. -/
  found : ∀ m < g.size, m < size → ∀ value, ∃ t, e.term m value = .ok t
  /-- A node past the end is not found. -/
  missing : ∀ m, size ≤ m → ∀ value, e.term m value = .error ⟨size, m⟩
  /-- Every meet gives its node some value. -/
  apply : ∀ n < g.size, ∀ met, ∃ b, e.apply n met = .ok b

variable {e : Equation} {g : FlowGraph} {seeding : Seeding} {size m n : Nat}
  {term : Nat → Bool → Except OutOfBounds Bool}

/-! ## Terms that succeed more often -/

section withTerm

variable (hterm : ∀ m v t, e.term m v = .ok t → term m v = .ok t)

include hterm

/-- An evaluation that succeeds does not change. -/
lemma Equation.evaluate_withTerm {facts : Array Fact} {b : Bool}
    (h : e.evaluate g facts n = .ok b) : (e.withTerm term).evaluate g facts n = .ok b := by
  have hcontribute (met : Bool) (m : Nat) (met' : Bool) (h : e.contribute facts met m = .ok met') :
      (e.withTerm term).contribute facts met m = .ok met' := by
    simp only [contribute, bind_eq_ok_iff] at h ⊢
    obtain ⟨f, hf, h⟩ := h
    refine ⟨f, hf, ?_⟩
    cases f with
    | unknown => exact h
    | known v =>
      simp only [bind_eq_ok_iff] at h ⊢
      obtain ⟨t, ht, h⟩ := h
      exact ⟨t, hterm m v t ht, h⟩
  simp only [evaluate, bind_eq_ok_iff] at h ⊢
  obtain ⟨sources, hsources, met, hmet, h⟩ := h
  exact ⟨sources, hsources, met, foldlM_eq_ok_of_imp hcontribute hmet, h⟩

/-- Neither does a round. -/
lemma SolverState.step_withTerm {s t : SolverState} (h : s.step e g = .ok t) :
    s.step (e.withTerm term) g = .ok t := by
  obtain ⟨facts, worklist, flips, evaluations⟩ := s
  simp only [step, bind_eq_ok_iff] at h ⊢
  obtain ⟨⟨next, w⟩, hpop, h⟩ := h
  refine ⟨⟨next, w⟩, hpop, ?_⟩
  cases next with
  | none => exact h
  | some n =>
    simp only [bind_eq_ok_iff] at h ⊢
    obtain ⟨old, hold, new, heval, h⟩ := h
    exact ⟨old, hold, new, e.evaluate_withTerm hterm heval, h⟩

/-- Neither does the bounded loop. -/
lemma SolverState.run_withTerm {limit fuel : Nat} {s t : SolverState}
    (h : run e g limit fuel s = .ok t) : run (e.withTerm term) g limit fuel s = .ok t := by
  induction fuel generalizing s with
  | zero => exact h
  | succ fuel ih =>
    rw [run] at h ⊢
    split at h
    · rename_i hstop
      rw [if_pos hstop]
      exact h
    · rename_i hgo
      rw [if_neg hgo]
      obtain ⟨u, hu, h⟩ := bind_eq_ok_iff.mp h
      exact bind_eq_ok_iff.mpr ⟨u, step_withTerm hterm hu, ih h⟩

/-- Neither does the state in which a run ends. -/
lemma solverState_withTerm {limit : Nat} {s : SolverState}
    (h : solverState e g seeding limit = .ok s) :
    solverState (e.withTerm term) g seeding limit = .ok s := by
  obtain ⟨s₀, h₀, hrun⟩ := bind_eq_ok_iff.mp h
  exact bind_eq_ok_iff.mpr ⟨s₀, h₀, SolverState.run_withTerm hterm hrun⟩

/-- Terms that succeed more often, and alike, do not change a run that succeeds. -/
lemma solve_withTerm {o : Outcome} (h : solve e g seeding = .ok o) :
    solve (e.withTerm term) g seeding = .ok o := by
  obtain ⟨s, hs, h⟩ := bind_eq_ok_iff.mp h
  exact bind_eq_ok_iff.mpr ⟨s, solverState_withTerm hterm hs, h⟩

/-- A run that succeeds settles, if it does with terms that succeed more often. -/
lemma exists_ends_of_solve (he : (e.withTerm term).IsMonotone g) {o : Outcome}
    (h : solve e g seeding = .ok o) :
    ∃ s : SolverState, s.Ends e g seeding ∧ o = .settled s.finish := by
  obtain ⟨_, hsettled, _⟩ := exists_solve he seeding
  obtain rfl := Except.ok.inj ((solve_withTerm hterm h).symm.trans hsettled)
  obtain ⟨rounds, s, hafter, hnil, hfinish⟩ := stateAfter_of_settled h
  obtain ⟨s₀, h₀, hiter⟩ := stateAfter_eq_ok_iff.mp hafter
  exact ⟨s, ⟨s₀, rounds, h₀, hiter, hnil⟩, congrArg Outcome.settled hfinish⟩

end withTerm

/-! ## Lookups -/

namespace Equation.LooksUp

/-- A term that fails does so because its source is past the end of the table. -/
lemma term_failsOnly (h : e.LooksUp g size) (hm : m < g.size) (v : Bool) :
    FailsOnly (fun err => err = ⟨size, m⟩ ∧ size ≤ m) (e.term m v) := by
  intro err herr
  by_cases hsize : m < size
  · obtain ⟨t, ht⟩ := h.found m hm hsize v
    cases ht.symm.trans herr
  · have hmissing := h.missing m (Nat.not_lt.mp hsize) v
    exact ⟨Except.error.inj (herr.symm.trans hmissing), Nat.not_lt.mp hsize⟩

/-- A run that fails does so at a source that it resolves and that a node other than the boundary
reads, and this source is past the end of the table. -/
lemma solve_failsOnly (h : e.LooksUp g size) (seeding : Seeding) :
    FailsOnly (fun err => err.size = size ∧ size ≤ err.index ∧
      e.direction.Region g seeding err.index ∧
      ∃ n, e.direction.Source g err.index n ∧ n ≠ e.direction.boundary g)
      (solve e g seeding) := by
  obtain ⟨s₀, h₀⟩ := SolverState.exists_start e g seeding
  refine FailsOnly.bind (FailsOnly.bind (.of_ok h₀) fun s hs => ?_) fun s _ => ?_
  · refine SolverState.run_failsOnly (Q := fun s => s.Consistent e g ∧ s.Confined e g seeding) ?_ ?_
      ⟨SolverState.consistent_of_start hs, SolverState.confined_of_start hs⟩ _ _
    · rintro s t ⟨hs, hc⟩ hstep
      exact ⟨hs.step hstep, hc.step hs hstep⟩
    · rintro s ⟨hs, hc⟩
      refine hs.step_failsOnly fun n hn => ?_
      have hlt := hs.worklist.lt hn
      refine evaluate_failsOnly hs.size_facts hlt (fun m v hm hv err herr => ?_) fun met => ?_
      · -- the source has a value, so it is resolved, and its reader waits
        obtain ⟨rfl, hmsize⟩ := h.term_failsOnly hm.lt.1 v err herr
        refine ⟨rfl, hmsize, hc.known m (Fact.ne_unknown_iff.mpr ⟨v, hv⟩), n, hm, ?_⟩
        rintro rfl
        exact hs.boundary_notMem hn
      · obtain ⟨b, hb⟩ := h.apply n hlt met
        exact .of_ok hb
  · -- however the run ends, it does not fail any more
    split
    · exact .of_ok rfl
    · exact .of_ok rfl

/-- When a run has ended, the sources that it resolves are in the table, but for those that only the
boundary reads.

**Proof sketch.** A node that reads a resolved source does not lack a value at the end. So it could
be evaluated on the last facts, which includes the term of that source. -/
lemma lt_of_ends (h : e.LooksUp g size) {s : SolverState} (hs : s.Ends e g seeding)
    (hm : e.direction.Region g seeding m) (hmn : e.direction.Source g m n)
    (hn : n ≠ e.direction.boundary g) : m < size := by
  obtain ⟨v, hv⟩ := Fact.ne_unknown_iff.mp (hs.known_iff.mpr hm)
  obtain ⟨hconsistent, _⟩ := hs.invariants
  obtain ⟨_, _, _, _, hnil⟩ := hs
  rcases hconsistent.settled n hmn.lt.2 hn (by simp [hnil]) with ⟨b, _, heval⟩ | ⟨_, hsource⟩
  · obtain ⟨t, ht⟩ := exists_term_of_evaluate heval hmn hv
    by_contra hsize
    rw [h.missing m (Nat.not_lt.mp hsize) v] at ht
    cases ht
  · rw [hsource m hmn] at hv
    cases hv

/-- A run fails exactly if it resolves some source past the end of the table
that a node other than the boundary reads, provided that it would end with some longer table. -/
lemma solve_error_iff (h : e.LooksUp g size)
    (hterm : ∀ m v t, e.term m v = .ok t → term m v = .ok t) (he : (e.withTerm term).IsMonotone g) :
    (∃ err, solve e g seeding = .error err) ↔ ∃ m n, e.direction.Source g m n ∧
      n ≠ e.direction.boundary g ∧ e.direction.Region g seeding m ∧ size ≤ m := by
  constructor
  · rintro ⟨err, herr⟩
    obtain ⟨_, hsize, hregion, n, hsource, hn⟩ := h.solve_failsOnly seeding err herr
    exact ⟨err.index, n, hsource, hn, hregion, hsize⟩
  · rintro ⟨m, n, hsource, hn, hregion, hsize⟩
    cases hr : solve e g seeding with
    | error err => exact ⟨err, rfl⟩
    | ok o =>
      obtain ⟨s, hs, _⟩ := exists_ends_of_solve hterm he hr
      exact absurd (h.lt_of_ends hs hregion hsource hn) (Nat.not_lt.mpr hsize)

end Equation.LooksUp

end PartialRedundancy
