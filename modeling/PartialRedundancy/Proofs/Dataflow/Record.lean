import Mathlib.Algebra.BigOperators.Group.Finset.Basic
import PartialRedundancy.Proofs.Dataflow.Descent

/-!
# The record of a run

The flips of one node, in the order in which they are recorded, lead from the fact that the node
starts from to the fact that it has. In a monotone system they lead downwards, and there is no more
than one step down from the extreme value and no more than two from an unknown fact.

## Main definitions

* `flipsAt` — the flips of one node in a record.
* `Trail` — flips of one node, each from the fact that the one before it left.
* `SolverState.Recorded` — the record of a state explains its facts.

## Main results

* `SolverState.Recorded.step` — every round keeps the record.
* `Trail.of_start`, `Trail.of_unknown` — the trails that lead downwards.
* `length_le_of_flipsAt` — a bound for each node gives one for the whole record.

## Design

Which flips are allowed is a parameter of a trail. What every run does is that a flip changes the
fact of its node; that it lowers it is true of monotone systems only.
-/

namespace PartialRedundancy

/-! ## Flips of one node -/

/-- The flips of node `n` in a record, in order. -/
def flipsAt (flips : List Flip) (n : Nat) : List Flip := flips.filter fun f => f.node == n

/-- A flip of the node itself is added at the end. -/
lemma flipsAt_append_self (flips : List Flip) (n : Nat) (old : Fact) (new : Bool) :
    flipsAt (flips ++ [⟨n, old, new⟩]) n = flipsAt flips n ++ [⟨n, old, new⟩] := by
  simp [flipsAt]

/-- A flip of another node does not matter. -/
lemma flipsAt_append_of_ne (flips : List Flip) {m n : Nat} (h : m ≠ n) (old : Fact) (new : Bool) :
    flipsAt (flips ++ [⟨m, old, new⟩]) n = flipsAt flips n := by
  simp [flipsAt, h]

/-- A record has at most `k` flips for each of the nodes other than `b`, if it has at most `k` of
each node and none of `b`.

**Proof sketch.** The length of the list of the flipped nodes is the sum of their multiplicities,
over a set of nodes in which `b` does not occur. -/
lemma length_le_of_flipsAt {flips : List Flip} {size b k : Nat} (hb : b < size)
    (hnode : ∀ f ∈ flips, f.node < size ∧ f.node ≠ b) (hk : ∀ n, (flipsAt flips n).length ≤ k) :
    flips.length ≤ k * (size - 1) := by
  have hcount (n : Nat) : (flips.map Flip.node).count n ≤ k := by
    refine le_trans (le_of_eq ?_) (hk n)
    rw [List.count, List.countP_map, List.countP_eq_length_filter]
    rfl
  have hsub : (flips.map Flip.node).toFinset ⊆ (Finset.range size).erase b := by
    intro n hn
    rw [List.mem_toFinset, List.mem_map] at hn
    obtain ⟨f, hf, rfl⟩ := hn
    exact Finset.mem_erase.mpr ⟨(hnode f hf).2, Finset.mem_range.mpr (hnode f hf).1⟩
  have hcard : ((Finset.range size).erase b).card = size - 1 := by
    rw [Finset.card_erase_of_mem (Finset.mem_range.mpr hb), Finset.card_range]
  calc flips.length
      = ∑ n ∈ (flips.map Flip.node).toFinset, (flips.map Flip.node).count n := by
        rw [List.sum_toFinset_count_eq_length, List.length_map]
    _ ≤ (flips.map Flip.node).toFinset.card * k :=
        Finset.sum_le_card_nsmul _ _ k fun n _ => hcount n
    _ ≤ (size - 1) * k := Nat.mul_le_mul_right k (hcard ▸ Finset.card_le_card hsub)
    _ = k * (size - 1) := Nat.mul_comm _ _

/-! ## Trails -/

/-- Flips of node `n` in a row that lead from the fact `first` to a last one. Each starts from the
fact that the one before it left, and goes to a value that is allowed from there. -/
inductive Trail (allowed : Fact → Bool → Prop) (n : Nat) (first : Fact) : List Flip → Fact → Prop
  /-- Without a flip the fact stays. -/
  | nil : Trail allowed n first [] first
  /-- One flip more. -/
  | snoc {flips : List Flip} {f : Fact} {b : Bool} (h : Trail allowed n first flips f)
      (hb : allowed f b) : Trail allowed n first (flips ++ [⟨n, f, b⟩]) (.known b)

/-- A fact can be lowered to a value. -/
def Fact.Falls (o : Extreme) (f : Fact) (b : Bool) : Prop := (known b).Le o f ∧ f ≠ known b

section Falls

variable {o : Extreme} {n : Nat} {flips : List Flip} {f : Fact} {a b : Bool}

/-- A known value can only be lowered from one end to the other. -/
lemma Fact.Falls.of_known (h : (known a).Falls o b) : a = o.start ∧ b = !o.start := by
  obtain ⟨hle, hne⟩ := h
  obtain ⟨hb, ha⟩ := Extreme.Le.eq_of_ne hle fun hab => hne (hab ▸ rfl)
  exact ⟨ha, hb⟩

/-- The lower value cannot be lowered. -/
lemma Fact.not_falls_of_low : ¬ (known !o.start).Falls o b := by
  intro h
  exact Bool.not_ne_self o.start h.of_known.1

/-- From the extreme value there is at most one step down. -/
lemma Trail.of_start (h : Trail (Fact.Falls o) n (.known o.start) flips f) :
    (flips = [] ∧ f = .known o.start) ∨
      (flips = [⟨n, .known o.start, !o.start⟩] ∧ f = .known !o.start) := by
  induction h with
  | nil => exact Or.inl ⟨rfl, rfl⟩
  | snoc _ hb ih =>
    rcases ih with ⟨rfl, rfl⟩ | ⟨rfl, rfl⟩
    · obtain ⟨_, rfl⟩ := hb.of_known
      exact Or.inr ⟨rfl, rfl⟩
    · exact absurd hb Fact.not_falls_of_low

/-- From an unknown fact there is one step to a value, and another one if that is the extreme
value. -/
lemma Trail.of_unknown (h : Trail (Fact.Falls o) n .unknown flips f) :
    (flips = [] ∧ f = .unknown) ∨ (∃ b, flips = [⟨n, .unknown, b⟩] ∧ f = .known b) ∨
      (flips = [⟨n, .unknown, o.start⟩, ⟨n, .known o.start, !o.start⟩] ∧
        f = .known !o.start) := by
  induction h with
  | nil => exact Or.inl ⟨rfl, rfl⟩
  | @snoc flips f b _ hb ih =>
    rcases ih with ⟨rfl, rfl⟩ | ⟨a, rfl, rfl⟩ | ⟨rfl, rfl⟩
    · exact Or.inr (Or.inl ⟨b, rfl, rfl⟩)
    · obtain ⟨rfl, rfl⟩ := hb.of_known
      exact Or.inr (Or.inr ⟨rfl, rfl⟩)
    · exact absurd hb Fact.not_falls_of_low

end Falls

/-! ## The record of a state -/

namespace SolverState

variable {e : Equation} {g : FlowGraph} {seeding : Seeding} {s t : SolverState}
  {allowed : Fact → Bool → Prop} {n : Nat}

/-- The record explains the facts: the flips of every node lead from its first fact to its present
one, and the boundary does not flip. -/
structure Recorded (e : Equation) (g : FlowGraph) (seeding : Seeding)
    (allowed : Fact → Bool → Prop) (s : SolverState) : Prop where
  /-- What flips is a node other than the boundary. -/
  node : ∀ f ∈ s.flips.toList, f.node < g.size ∧ f.node ≠ e.direction.boundary g
  /-- The flips of a node lead to its fact. -/
  trail : ∀ n, Trail allowed n (initialFacts e g seeding n) (flipsAt s.flips.toList n)
    (factAt s.facts n)

/-- At the beginning nothing is recorded. -/
lemma recorded_of_start (h : start e g seeding = .ok s) : s.Recorded e g seeding allowed := by
  obtain ⟨_, hfacts, hflips, _⟩ := start_spec h
  constructor
  · intro f hf
    simp [hflips] at hf
  · intro n
    rw [hfacts, hflips]
    exact .nil

/-- Every round keeps the record, if the node that is taken only changes as it is allowed to. -/
lemma Recorded.step (hr : s.Recorded e g seeding allowed) (hs : s.Consistent e g)
    (hallowed : ∀ n w b, s.worklist.pop = .ok (some n, w) → e.evaluate g s.facts n = .ok b →
      factAt s.facts n ≠ .known b → allowed (factAt s.facts n) b)
    (h : s.step e g = .ok t) : t.Recorded e g seeding allowed := by
  cases step_of_eq_ok h with
  | rest hnil => exact hr
  | keep hpop heval hold => exact ⟨hr.node, hr.trail⟩
  | @flip n value w w' readers hpop heval hold hn hreaders hqueue =>
    have hmem := Worklist.mem_of_pop hpop
    have hnb : n ≠ e.direction.boundary g := by
      rintro rfl
      exact hs.boundary_notMem hmem
    constructor
    · intro f hf
      rw [Array.toList_push, List.mem_append, List.mem_singleton] at hf
      rcases hf with hf | rfl
      · exact hr.node f hf
      · exact ⟨hs.worklist.lt hmem, hnb⟩
    · intro m
      rw [Array.toList_push, factAt_setIfInBounds hn]
      by_cases hmn : n = m
      · subst hmn
        rw [flipsAt_append_self, Function.update_self]
        exact .snoc (hr.trail n) (hallowed n w value hpop heval hold)
      · rw [flipsAt_append_of_ne _ hmn, Function.update_of_ne (Ne.symm hmn)]
        exact hr.trail m

/-- A node that flips starts from the fact that all nodes but the boundary start from. -/
lemma Recorded.flipsAt_eq_nil_or (hr : s.Recorded e g seeding allowed) (n : Nat) :
    flipsAt s.flips.toList n = [] ∨
      Trail allowed n (initialFact e seeding) (flipsAt s.flips.toList n) (factAt s.facts n) := by
  by_cases hn : n < g.size ∧ n ≠ e.direction.boundary g
  · right
    rw [← initialFacts_of_ne hn.1 hn.2]
    exact hr.trail n
  · left
    rw [flipsAt, List.filter_eq_nil_iff]
    intro f hf hfn
    rw [beq_iff_eq] at hfn
    exact hn (hfn ▸ hr.node f hf)

/-- In a monotone system the record leads downwards. -/
lemma Ends.recorded (h : s.Ends e g seeding) (he : e.IsMonotone g) :
    s.Recorded e g seeding (Fact.Falls (e.origin seeding)) := by
  obtain ⟨s₀, rounds, h₀, hiter, _⟩ := h
  -- that a flip goes down is known of states that descend, so both are carried along
  refine (iterate_preserves (P := fun s => s.Descending e g seeding ∧
    s.Recorded e g seeding (Fact.Falls (e.origin seeding))) ?_
    ⟨descending_of_start h₀, recorded_of_start h₀⟩ hiter).2
  rintro s t ⟨hs, hr⟩ hstep
  refine ⟨hs.step he hstep, hr.step hs.consistent ?_ hstep⟩
  intro n w b hpop heval hne
  obtain ⟨_, _, hle⟩ := hs.known_le hpop heval
  exact ⟨hle, hne⟩

/-- In an eager run of a monotone system a node flips at most once, away from the extreme value. -/
lemma Ends.flipsAt_eager (h : s.Ends e g .eager) (he : e.IsMonotone g) (n : Nat) :
    flipsAt s.flips.toList n = [] ∨
      flipsAt s.flips.toList n = [⟨n, .known e.extreme.start, !e.extreme.start⟩] := by
  rcases (h.recorded he).flipsAt_eq_nil_or n with hnil | htrail
  · exact Or.inl hnil
  · exact htrail.of_start.imp And.left And.left

/-- In a run from the boundary a node of a monotone system flips at most twice: first it gets a
value, and then that value can leave the identity of the meet. -/
lemma Ends.flipsAt_reachableOnly (h : s.Ends e g .reachableOnly) (he : e.IsMonotone g) (n : Nat) :
    flipsAt s.flips.toList n = [] ∨ (∃ b, flipsAt s.flips.toList n = [⟨n, .unknown, b⟩]) ∨
      flipsAt s.flips.toList n =
        [⟨n, .unknown, e.meet.identity⟩, ⟨n, .known e.meet.identity, !e.meet.identity⟩] := by
  have hstart : e.meet.extreme.start = e.meet.identity := by cases e.meet <;> rfl
  rcases (h.recorded he).flipsAt_eq_nil_or n with hnil | htrail
  · exact Or.inl hnil
  · rw [← hstart]
    exact htrail.of_unknown.imp And.left (Or.imp (fun ⟨b, hb⟩ => ⟨b, hb.1⟩) And.left)

/-- A bound for each node gives one for the whole record. -/
lemma Recorded.length_le (hr : s.Recorded e g seeding allowed) {k : Nat}
    (hk : ∀ n, (flipsAt s.flips.toList n).length ≤ k) :
    s.flips.toList.length ≤ k * (g.realCount + 1) :=
  length_le_of_flipsAt (e.direction.boundary_lt g) hr.node hk

/-- An eager run of a monotone system makes at most one flip for each node but the boundary. -/
lemma Ends.length_eager (h : s.Ends e g .eager) (he : e.IsMonotone g) :
    s.flips.toList.length ≤ g.realCount + 1 := by
  have hone (n : Nat) : (flipsAt s.flips.toList n).length ≤ 1 := by
    rcases h.flipsAt_eager he n with hnil | hflip
    · simp [hnil]
    · simp [hflip]
  have hlen := (h.recorded he).length_le hone
  rwa [Nat.one_mul] at hlen

/-- A run of a monotone system from the boundary makes at most two flips for each other node. -/
lemma Ends.length_reachableOnly (h : s.Ends e g .reachableOnly) (he : e.IsMonotone g) :
    s.flips.toList.length ≤ 2 * (g.realCount + 1) := by
  refine (h.recorded he).length_le ?_
  intro n
  rcases h.flipsAt_reachableOnly he n with hnil | ⟨b, hflip⟩ | hflips
  · simp [hnil]
  · simp [hflip]
  · simp [hflips]

end SolverState

end PartialRedundancy
