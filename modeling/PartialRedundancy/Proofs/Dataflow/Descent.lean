import Mathlib.Algebra.Order.BigOperators.Group.Finset
import PartialRedundancy.Proofs.Dataflow.Order
import PartialRedundancy.Proofs.Dataflow.Rounds

/-!
# Monotone runs descend and end

In a monotone system every flip lowers the fact of its node, in the order in which the run starts
from the greatest facts. So every run ends, within the number of flips that the solver allows, and
no assignment that satisfies the equations is ever left above the facts.

## Main definitions

* `Equation.origin` — the extreme from which a run descends.
* `Equation.Supports` — no value is above the right-hand side of its equation.
* `SolverState.Descending` — no right-hand side is above the fact of its node.
* `SolverState.potential` — how many flips are left at most.
* `SolverState.Ends` — the loop ends in a state.

## Main results

* `SolverState.Descending.step` — every round keeps a run descending.
* `SolverState.Descending.potential_add_flips_le` — every flip uses up some of what is left.
* `SolverState.exists_solverState` — the solver ends, and not because it was cut off.
* `SolverState.Ends.le` — the last facts bound every assignment that the equations support.

## Design

An eager run starts from its extreme value and all its facts are known. A run that starts unknown
descends in the order of its meet, whatever extreme the equation names: a source that becomes
known can only move a conjunction down and a disjunction up.
-/

namespace PartialRedundancy

/-- The extreme from which a run descends. -/
def Equation.origin (e : Equation) : Seeding → Extreme
  | .eager => e.extreme
  | .reachableOnly => e.meet.extreme

/-- In the order of `o`, the facts `x` give no node but the boundary a value above the right-hand
side of its equation. -/
def Equation.Supports (e : Equation) (g : FlowGraph) (o : Extreme) (x : Nat → Fact) : Prop :=
  ∀ n a b, n ≠ e.direction.boundary g → x n = .known a → e.RightSide g x n b → o.Le a b

/-- Equations support what satisfies them. -/
lemma Equation.Satisfies.supports {e : Equation} {g : FlowGraph} {o : Extreme} {x : Nat → Fact}
    (h : e.Satisfies g x) : e.Supports g o x := by
  intro n a b hb ha hright
  rw [(h n a hb ha).unique hright]
  exact .refl o b

namespace SolverState

variable {e : Equation} {g : FlowGraph} {seeding : Seeding} {s t : SolverState} {n : Nat}

/-- In a run that is confined to its region, the facts can be compared. -/
lemma Confined.comparable (hc : s.Confined e g seeding) :
    e.origin seeding = e.meet.extreme ∨ ∀ m < g.size, factAt s.facts m ≠ .unknown := by
  cases seeding with
  | eager => exact Or.inr (hc.eager rfl)
  | reachableOnly => exact Or.inl rfl

/-! ## The invariant -/

/-- The loop invariant of a monotone system: no right-hand side is above the fact of its node. -/
structure Descending (e : Equation) (g : FlowGraph) (seeding : Seeding) (s : SolverState) :
    Prop where
  /-- The invariant of every loop. -/
  consistent : s.Consistent e g
  /-- No node outside of the region waits or has a value. -/
  confined : s.Confined e g seeding
  /-- The fact of a node can only go down. -/
  le_fact : ∀ n < g.size, n ≠ e.direction.boundary g → ∀ b,
    e.RightSide g (factAt s.facts) n b → (Fact.known b).Le (e.origin seeding) (factAt s.facts n)

/-- At the beginning all facts are the greatest. -/
lemma descending_of_start (h : start e g seeding = .ok s) : s.Descending e g seeding := by
  obtain ⟨_, hfacts, _⟩ := start_spec h
  refine ⟨consistent_of_start h, confined_of_start h, fun n hn hb b _ => ?_⟩
  rw [hfacts, initialFacts_of_ne hn hb]
  cases seeding with
  | eager => exact e.extreme.le_start b
  | reachableOnly => trivial

/-- Lowering the fact of one node lowers the facts. -/
lemma update_le {o : Extreme} {y : Nat → Fact} {b : Bool} (h : (Fact.known b).Le o (y n))
    (m : Nat) : (Function.update y n (.known b) m).Le o (y m) := by
  by_cases hmn : m = n
  · subst hmn
    rwa [Function.update_self]
  · rw [Function.update_of_ne hmn]
    exact Fact.Le.refl o (y m)

/-- The node that is taken is one whose fact may change, and its fact goes down if it does. -/
lemma Descending.known_le (hs : s.Descending e g seeding) {w : Worklist} {b : Bool}
    (hpop : s.worklist.pop = .ok (some n, w)) (heval : e.evaluate g s.facts n = .ok b) :
    n < g.size ∧ n ≠ e.direction.boundary g ∧
      (Fact.known b).Le (e.origin seeding) (factAt s.facts n) := by
  have hmem := Worklist.mem_of_pop hpop
  have hlt := hs.consistent.worklist.lt hmem
  have hb : n ≠ e.direction.boundary g := by
    rintro rfl
    exact hs.consistent.boundary_notMem hmem
  exact ⟨hlt, hb, hs.le_fact n hlt hb b (Equation.rightSide_of_evaluate heval)⟩

/-- Every round keeps a run descending.

**Proof sketch.** A flip lowers the fact of its node `n` and no other, so by monotonicity it
lowers every right-hand side. A node other than `n` keeps its fact, which was above its old
right-hand side, and `n` itself now has its old right-hand side as its fact. -/
lemma Descending.step (hs : s.Descending e g seeding) (he : e.IsMonotone g)
    (h : s.step e g = .ok t) : t.Descending e g seeding := by
  refine ⟨hs.consistent.step h, hs.confined.step hs.consistent h, ?_⟩
  cases step_of_eq_ok h with
  | rest hnil => exact hs.le_fact
  | keep hpop heval hold => exact hs.le_fact
  | @flip n value w w' readers hpop heval hold hn hreaders hqueue =>
    obtain ⟨hlt, hb, hle⟩ := hs.known_le hpop heval
    intro m hm hmb b' hb'
    rw [factAt_setIfInBounds hn] at hb' ⊢
    obtain ⟨b, hmb'⟩ := he.isTotal.exists_rightSide hm (factAt s.facts)
    have hdown : (Fact.known b').Le (e.origin seeding) (.known b) :=
      hb'.le he hm (fun k _ => update_le hle k) hs.confined.comparable hmb'
    by_cases hmn : m = n
    · subst hmn
      obtain rfl := hmb'.unique (Equation.rightSide_of_evaluate heval)
      rw [Function.update_self]
      exact hdown
    · rw [Function.update_of_ne hmn]
      exact hdown.trans (hs.le_fact m hm hmb b hmb')

/-! ## Termination -/

/-- How many flips the facts `x` leave at most. -/
def potential (g : FlowGraph) (o : Extreme) (x : Nat → Fact) : Nat :=
  ∑ n ∈ Finset.range g.size, (x n).rank o

/-- Lowering the fact of a node lowers the potential. -/
lemma potential_update_lt {o : Extreme} {x : Nat → Fact} {b : Bool} (hlt : n < g.size)
    (hle : (Fact.known b).Le o (x n)) (hne : x n ≠ .known b) :
    potential g o (Function.update x n (.known b)) < potential g o x := by
  have hrank := Fact.rank_lt hle hne
  refine Finset.sum_lt_sum (fun m _ => ?_) ⟨n, Finset.mem_range.mpr hlt, ?_⟩
  · by_cases hmn : m = n
    · subst hmn
      rw [Function.update_self]
      exact hrank.le
    · rw [Function.update_of_ne hmn]
  · rwa [Function.update_self]

/-- Every flip is paid for by the potential. -/
lemma Descending.potential_add_flips_le (hs : s.Descending e g seeding)
    (h : s.step e g = .ok t) :
    potential g (e.origin seeding) (factAt t.facts) + t.flips.size ≤
      potential g (e.origin seeding) (factAt s.facts) + s.flips.size := by
  cases step_of_eq_ok h with
  | rest hnil => exact le_rfl
  | keep hpop heval hold => exact le_rfl
  | @flip n value w w' readers hpop heval hold hn hreaders hqueue =>
    obtain ⟨hlt, _, hle⟩ := hs.known_le hpop heval
    have hpot := potential_update_lt hlt hle hold
    rw [factAt_setIfInBounds hn, Array.size_push]
    omega

/-- There are never more flips left than the solver allows. -/
lemma potential_le (g : FlowGraph) (o : Extreme) (x : Nat → Fact) :
    potential g o x ≤ monotoneFlipLimit g := by
  have hrank (n : Nat) : (x n).rank o ≤ 2 := by
    cases x n with
    | unknown => exact le_rfl
    | known b =>
      simp only [Fact.rank]
      split <;> omega
  calc potential g o x
      ≤ ∑ _n ∈ Finset.range g.size, 2 := Finset.sum_le_sum fun n _ => hrank n
    _ = monotoneFlipLimit g := by
        rw [Finset.sum_const, Finset.card_range, monotoneFlipLimit, Nat.mul_comm]
        rfl

/-! ## The whole run -/

/-- The loop ends in state `s`: after some number of rounds no node waits. -/
def Ends (e : Equation) (g : FlowGraph) (seeding : Seeding) (s : SolverState) : Prop :=
  ∃ s₀ rounds, start e g seeding = .ok s₀ ∧ iterate e g rounds s₀ = .ok s ∧
    s.worklist.toList = []

/-- After any number of rounds the run is descending, and it has made no more flips than the solver
allows. -/
lemma descending_of_stateAfter (he : e.IsMonotone g) {rounds : Nat}
    (h : stateAfter e g seeding rounds = .ok s) :
    s.Descending e g seeding ∧
      potential g (e.origin seeding) (factAt s.facts) + s.flips.size ≤ monotoneFlipLimit g := by
  obtain ⟨s₀, h₀, hiter⟩ := stateAfter_eq_ok_iff.mp h
  refine iterate_preserves (P := fun s => s.Descending e g seeding ∧
    potential g (e.origin seeding) (factAt s.facts) + s.flips.size ≤ monotoneFlipLimit g)
    ?_ ?_ hiter
  · rintro s t ⟨hs, hle⟩ hstep
    exact ⟨hs.step he hstep, (hs.potential_add_flips_le hstep).trans hle⟩
  · obtain ⟨_, _, hflips, _⟩ := start_spec h₀
    have hnone : s₀.flips.size = 0 := by
      rw [hflips]
      rfl
    exact ⟨descending_of_start h₀, by rw [hnone]; exact potential_le g _ _⟩

/-- The run of a monotone system ends, and the solver does not cut it off before. -/
lemma exists_solverState (he : e.IsMonotone g) (seeding : Seeding) :
    ∃ s, solverState e g seeding (monotoneFlipLimit g) = .ok s ∧ s.Ends e g seeding ∧
      s.flips.size ≤ monotoneFlipLimit g := by
  obtain ⟨s, hs⟩ := exists_solverState_of_isTotal he.isTotal seeding (monotoneFlipLimit g)
  obtain ⟨rounds, hafter, hend⟩ := stateAfter_of_solverState hs
  obtain ⟨_, hflips⟩ := descending_of_stateAfter he hafter
  obtain ⟨s₀, h₀, hiter⟩ := stateAfter_eq_ok_iff.mp hafter
  have hwithin : s.flips.size ≤ monotoneFlipLimit g := le_of_add_le_right hflips
  exact ⟨s, hs, ⟨s₀, rounds, h₀, hiter, hend.resolve_right (Nat.not_lt.mpr hwithin)⟩, hwithin⟩

/-! ## The last state -/

/-- The loop ends in a consistent state, confined to its region. -/
lemma Ends.invariants (h : s.Ends e g seeding) :
    s.Consistent e g ∧ s.Confined e g seeding := by
  obtain ⟨s₀, rounds, h₀, hiter, _⟩ := h
  refine iterate_preserves (P := fun s => s.Consistent e g ∧ s.Confined e g seeding) ?_
    ⟨consistent_of_start h₀, confined_of_start h₀⟩ hiter
  rintro s t ⟨hs, hc⟩ hstep
  exact ⟨hs.step hstep, hc.step hs hstep⟩

/-- The last facts satisfy the equations. -/
lemma Ends.satisfies (h : s.Ends e g seeding) : e.Satisfies g (factAt s.facts) := by
  obtain ⟨_, _, _, _, hnil⟩ := id h
  exact h.invariants.1.satisfies hnil

/-- The nodes that have a value at the end are those of the region. -/
lemma Ends.known_iff (h : s.Ends e g seeding) :
    factAt s.facts n ≠ .unknown ↔ e.direction.Region g seeding n := by
  obtain ⟨_, _, _, _, hnil⟩ := id h
  exact h.invariants.2.known_iff h.invariants.1 hnil

/-- The last facts bound every assignment that the equations support, if it gives values to the
same nodes and is not above the boundary's value at the boundary.

**Proof sketch.** The facts bound the assignment at the beginning, since all are the greatest that
there are. A flip replaces the fact of a node by its right-hand side for the current facts, which
by monotonicity is above the right-hand side for the assignment, which is above the assignment's
own fact. -/
lemma Ends.le (h : s.Ends e g seeding) (he : e.IsMonotone g) {x : Nat → Fact}
    (hx : e.Supports g (e.origin seeding) x)
    (hknown : ∀ n, x n ≠ .unknown ↔ e.direction.Region g seeding n)
    (hboundary : (x (e.direction.boundary g)).Le (e.origin seeding) (.known e.boundary)) (n : Nat) :
    (x n).Le (e.origin seeding) (factAt s.facts n) := by
  obtain ⟨s₀, rounds, h₀, hiter, _⟩ := h
  have hvalue (m : Nat) (hm : e.direction.Region g seeding m) : ∃ b, x m = .known b :=
    Fact.ne_unknown_iff.mp ((hknown m).mpr hm)
  refine (iterate_preserves (P := fun s => s.Descending e g seeding ∧
    ∀ n, (x n).Le (e.origin seeding) (factAt s.facts n)) ?_ ?_ hiter).2 n
  · rintro s t ⟨hs, hle⟩ hstep
    refine ⟨hs.step he hstep, ?_⟩
    cases step_of_eq_ok hstep with
    | rest hnil => exact hle
    | keep hpop heval hold => exact hle
    | @flip n value w w' readers hpop heval hold hn hreaders hqueue =>
      obtain ⟨hlt, hb, _⟩ := hs.known_le hpop heval
      obtain ⟨b, hxn⟩ := hvalue n (hs.confined.waiting n (Worklist.mem_of_pop hpop))
      obtain ⟨c, hc⟩ := he.isTotal.exists_rightSide hlt x
      have hbv : (e.origin seeding).Le b value :=
        (hx n b c hb hxn hc).trans <| hc.le he hlt (fun m _ => hle m) hs.confined.comparable
          (Equation.rightSide_of_evaluate heval)
      intro m
      rw [factAt_setIfInBounds hn]
      by_cases hmn : m = n
      · subst hmn
        rw [Function.update_self, hxn]
        exact hbv
      · rw [Function.update_of_ne hmn]
        exact hle m
  · refine ⟨descending_of_start h₀, fun m => ?_⟩
    obtain ⟨_, hfacts, _⟩ := start_spec h₀
    rw [hfacts]
    by_cases hb : m = e.direction.boundary g
    · rw [hb, initialFacts, Function.update_self]
      exact hboundary
    · by_cases hlt : m < g.size
      · rw [initialFacts_of_ne hlt hb]
        cases seeding with
        | eager =>
          obtain ⟨b, hxm⟩ := hvalue m hlt
          rw [hxm]
          exact e.extreme.le_start b
        | reachableOnly => trivial
      · have hu : initialFacts e g seeding m = .unknown := by
          rw [initialFacts, Function.update_of_ne hb]
          simp [factAt, hlt]
        rw [hu]
        trivial

end SolverState

end PartialRedundancy
