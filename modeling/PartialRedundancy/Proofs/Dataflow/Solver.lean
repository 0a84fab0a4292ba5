import PartialRedundancy.Dataflow.Solver
import PartialRedundancy.Proofs.Dataflow.Equation
import PartialRedundancy.Proofs.Dataflow.Worklist

/-!
# The loop of the solver

What one round of the solver does, and what every number of rounds preserves for arbitrary
equations, monotone or not: a node that does not wait in the queue satisfies its equation, or
nothing is known of it and of its sources.

## Main definitions

* `SolverState.Step` — the three things that a round can do.
* `SolverState.Consistent` — the invariant of the loop.

## Main results

* `SolverState.step_of_eq_ok` — a round does one of the three things.
* `SolverState.consistent_of_start`, `SolverState.Consistent.step` — the invariant holds at the
  beginning, and every round preserves it.
* `SolverState.Consistent.step_failsOnly` — a round fails only as an evaluation does.
* `SolverState.iterate_preserves` — what every round preserves, any number of rounds does.

## Design

The invariant speaks of the facts as they are now. A flip of node `n` invalidates only what was
known of the readers of `n`, and these are queued by the same round, `n` itself included if it is
its own reader. The sources and the readers come from two tables; that they describe one edge
relation is a field of `Adjacency`.
-/

namespace PartialRedundancy

/-- Node `n` satisfies its equation, or nothing is known of it and of its sources. -/
def Equation.SettledAt (e : Equation) (g : FlowGraph) (facts : Array Fact) (n : Nat) : Prop :=
  (∃ b, factAt facts n = .known b ∧ e.evaluate g facts n = .ok b) ∨
    (factAt facts n = .unknown ∧ ∀ m, e.direction.Source g m n → factAt facts m = .unknown)

/-- A node keeps its equation satisfied as long as neither its fact nor that of a source
changes. -/
lemma Equation.SettledAt.congr {e : Equation} {g : FlowGraph} {facts facts' : Array Fact} {n : Nat}
    (hsize : facts.size = facts'.size) (hn : factAt facts n = factAt facts' n)
    (hsource : ∀ m, e.direction.Source g m n → factAt facts m = factAt facts' m)
    (h : e.SettledAt g facts n) : e.SettledAt g facts' n := by
  rcases h with ⟨b, hb, heval⟩ | ⟨hu, hsources⟩
  · refine Or.inl ⟨b, hn ▸ hb, ?_⟩
    rwa [← e.evaluate_congr hsize hsource]
  · exact Or.inr ⟨hn ▸ hu, fun m hm => hsource m hm ▸ hsources m hm⟩

namespace SolverState

variable {e : Equation} {g : FlowGraph} {seeding : Seeding} {s t : SolverState} {n : Nat}

/-! ## One round -/

/-- One round of the loop from state `s`. -/
inductive Step (e : Equation) (g : FlowGraph) (s : SolverState) : SolverState → Prop
  /-- No node waits, and nothing happens. -/
  | rest (hnil : s.worklist.toList = []) : Step e g s s
  /-- The node that is taken has the value of its right-hand side already. -/
  | keep {n : Nat} {value : Bool} {w : Worklist} (hpop : s.worklist.pop = .ok (some n, w))
      (heval : e.evaluate g s.facts n = .ok value) (hold : factAt s.facts n = .known value) :
      Step e g s ⟨s.facts, w, s.flips, s.evaluations + 1⟩
  /-- The node that is taken flips to the value of its right-hand side, and its readers are
  queued. -/
  | flip {n : Nat} {value : Bool} {w w' : Worklist} {readers : NodeSet}
      (hpop : s.worklist.pop = .ok (some n, w)) (heval : e.evaluate g s.facts n = .ok value)
      (hold : factAt s.facts n ≠ .known value) (hn : n < s.facts.size)
      (hreaders : e.direction.readers g n = .ok readers) (hqueue : enqueue e g w readers = .ok w') :
      Step e g s ⟨s.facts.setIfInBounds n (.known value), w',
        s.flips.push ⟨n, factAt s.facts n, value⟩, s.evaluations + 1⟩

/-- A round does one of three things. -/
lemma step_of_eq_ok (h : s.step e g = .ok t) : Step e g s t := by
  obtain ⟨facts, worklist, flips, evaluations⟩ := s
  simp only [step, bind_eq_ok_iff] at h
  obtain ⟨⟨next, w⟩, hpop, h⟩ := h
  cases next with
  | none =>
    obtain ⟨hnil, rfl⟩ := Worklist.pop_eq_none_iff.mp hpop
    rw [pure_eq_ok_iff] at h
    subst h
    exact .rest hnil
  | some n =>
    simp only [bind_eq_ok_iff] at h
    obtain ⟨old, hold, value, heval, h⟩ := h
    obtain rfl := factAt_of_fetch hold
    split at h
    · rename_i heq
      rw [pure_eq_ok_iff] at h
      subst h
      exact .keep hpop heval heq
    · rename_i hne
      simp only [bind_eq_ok_iff, pure_eq_ok_iff, store_eq_ok_iff] at h
      obtain ⟨_, ⟨hn, rfl⟩, readers, hreaders, w', hqueue, rfl⟩ := h
      exact .flip hpop heval hne hn hreaders hqueue

/-- What every round preserves, any number of rounds does. -/
lemma iterate_preserves {P : SolverState → Prop}
    (hstep : ∀ s t, P s → s.step e g = .ok t → P t) :
    ∀ {rounds : Nat} {s t : SolverState}, P s → iterate e g rounds s = .ok t → P t
  | 0, s, t, hs, h => by
    obtain rfl : s = t := by simpa [iterate] using h
    exact hs
  | rounds + 1, s, t, hs, h => by
    simp only [iterate, bind_eq_ok_iff] at h
    obtain ⟨u, hu, h⟩ := h
    exact iterate_preserves hstep (hstep s u hs hu) h

/-! ## Queueing -/

/-- The nodes that are queued wait afterwards, but for the boundary. -/
lemma consistent_enqueue {w w' : Worklist} {ns : NodeSet} (hw : w.Consistent g.size)
    (h : enqueue e g w ns = .ok w') :
    w'.Consistent g.size ∧
      ∀ m, m ∈ w'.toList ↔ m ∈ w.toList ∨ (m ∈ ns ∧ m ≠ e.direction.boundary g) := by
  obtain ⟨hw', hmem⟩ := hw.pushAll h
  refine ⟨hw', fun m => ?_⟩
  rw [hmem, List.mem_filter, bne_iff_ne, NodeSet.mem_toList]

/-- Nodes of the graph can always be queued. -/
lemma exists_enqueue {w : Worklist} {ns : NodeSet} (hw : w.Consistent g.size)
    (hns : ∀ m ∈ ns, m < g.size) : ∃ w', enqueue e g w ns = .ok w' :=
  hw.exists_pushAll fun m hm => hns m (List.mem_filter.mp hm).1

/-! ## The invariant -/

/-- The invariant of the loop. -/
structure Consistent (e : Equation) (g : FlowGraph) (s : SolverState) : Prop where
  /-- Every node has a fact. -/
  size_facts : s.facts.size = g.size
  /-- The marks tell which nodes wait, and none waits twice. -/
  worklist : s.worklist.Consistent g.size
  /-- The boundary does not wait. -/
  boundary_notMem : e.direction.boundary g ∉ s.worklist.toList
  /-- The boundary has its value. -/
  fact_boundary : factAt s.facts (e.direction.boundary g) = .known e.boundary
  /-- The other nodes are settled unless they wait. -/
  settled : ∀ n < g.size, n ≠ e.direction.boundary g → n ∉ s.worklist.toList →
    e.SettledAt g s.facts n

/-- Every round preserves the invariant.

**Proof sketch.** The node `n` that is taken is settled afterwards: it has the value of its
right-hand side, which is the one it had before if `n` is not its own source, and otherwise `n` is
queued again. A node other than `n` that does not wait afterwards did not wait before, and if `n`
flips it does not read `n`, so nothing that its equation reads has changed. -/
lemma Consistent.step (hs : s.Consistent e g) (h : s.step e g = .ok t) : t.Consistent e g := by
  cases step_of_eq_ok h with
  | rest hnil => exact hs
  | @keep n value w hpop heval hold =>
    obtain ⟨hw, hnw⟩ := hs.worklist.pop hpop
    have hlist := Worklist.toList_of_pop hpop
    refine ⟨hs.size_facts, hw, fun hb => ?_, hs.fact_boundary, fun m hm hmb hmw => ?_⟩
    · exact hs.boundary_notMem (Worklist.mem_of_mem_pop hpop hb)
    · by_cases hmn : m = n
      · subst hmn
        exact Or.inl ⟨value, hold, heval⟩
      · refine hs.settled m hm hmb ?_
        rw [hlist, List.mem_cons, not_or]
        exact ⟨hmn, hmw⟩
  | @flip n value w w' readers hpop heval hold hn hreaders hqueue =>
    obtain ⟨hw, hnw⟩ := hs.worklist.pop hpop
    have hlist := Worklist.toList_of_pop hpop
    obtain ⟨hw', hmem⟩ := consistent_enqueue hw hqueue
    obtain ⟨_, hreader⟩ := Direction.readers_eq_ok_iff.mp hreaders
    have hnb : n ≠ e.direction.boundary g := by
      rintro rfl
      exact hs.boundary_notMem (Worklist.mem_of_pop hpop)
    have hfact := factAt_setIfInBounds hn (.known value)
    have hsize : s.facts.size = (s.facts.setIfInBounds n (.known value)).size := by simp
    -- what does not wait any more reads no other facts than before
    have hsource (m : Nat) (hmb : m ≠ e.direction.boundary g) (hmw : m ∉ w'.toList) (k : Nat)
        (hk : e.direction.Source g k m) :
        factAt s.facts k = factAt (s.facts.setIfInBounds n (.known value)) k := by
      have hkn : k ≠ n := by
        rintro rfl
        exact hmw ((hmem m).mpr (Or.inr ⟨(hreader m).mpr hk, hmb⟩))
      rw [hfact, Function.update_of_ne hkn]
    refine ⟨hsize ▸ hs.size_facts, hw', fun hb => ?_, ?_, fun m hm hmb hmw => ?_⟩
    · rcases (hmem _).mp hb with hb | ⟨_, hb⟩
      · exact hs.boundary_notMem (Worklist.mem_of_mem_pop hpop hb)
      · exact hb rfl
    · rw [hfact, Function.update_of_ne hnb.symm, hs.fact_boundary]
    · by_cases hmn : m = n
      · subst hmn
        refine Or.inl ⟨value, by rw [hfact, Function.update_self], ?_⟩
        rwa [← e.evaluate_congr hsize (hsource m hmb hmw)]
      · refine (hs.settled m hm hmb ?_).congr hsize ?_ (hsource m hmb hmw)
        · rw [hlist, List.mem_cons, not_or]
          exact ⟨hmn, fun hm' => hmw ((hmem m).mpr (Or.inl hm'))⟩
        · rw [hfact, Function.update_of_ne hmn]

/-- A round fails only as the evaluation of a node that waits does. -/
lemma Consistent.step_failsOnly {P : OutOfBounds → Prop} (hs : s.Consistent e g)
    (heval : ∀ n ∈ s.worklist.toList, FailsOnly P (e.evaluate g s.facts n)) :
    FailsOnly P (s.step e g) := by
  obtain ⟨p, hp⟩ := hs.worklist.exists_pop
  obtain ⟨facts, worklist, flips, evaluations⟩ := s
  refine (FailsOnly.of_ok hp).bind fun p hpop => ?_
  obtain ⟨next, w⟩ := p
  cases next with
  | none => exact .of_ok rfl
  | some n =>
    have hn : n < g.size := hs.worklist.lt (Worklist.mem_of_pop hpop)
    have hn' : n < facts.size := Nat.lt_of_lt_of_eq hn hs.size_facts.symm
    obtain ⟨readers, hreaders⟩ := Direction.exists_readers (d := e.direction) hn
    refine (FailsOnly.of_ok (fetch_fact hn')).bind fun old _ => ?_
    refine (heval n (Worklist.mem_of_pop hpop)).bind fun value _ => ?_
    split
    · exact .of_ok rfl
    · refine (FailsOnly.of_ok (store_of_lt hn' _)).bind fun _ _ => ?_
      refine (FailsOnly.of_ok hreaders).bind fun readers hreaders => ?_
      obtain ⟨_, hreader⟩ := Direction.readers_eq_ok_iff.mp hreaders
      obtain ⟨w', hqueue⟩ := exists_enqueue (e := e) (hs.worklist.pop hpop).1
        fun m hm => ((hreader m).mp hm).lt.2
      exact (FailsOnly.of_ok hqueue).bind fun _ _ => .of_ok rfl

/-- A total system can always go on by one round. -/
lemma Consistent.exists_step (hs : s.Consistent e g) (he : e.IsTotal g) :
    ∃ t, s.step e g = .ok t :=
  FailsOnly.exists_ok <| hs.step_failsOnly fun n hn => by
    obtain ⟨value, heval⟩ := he.exists_evaluate hs.size_facts (hs.worklist.lt hn)
    exact .of_ok heval

/-! ## The beginning -/

/-- The facts at the beginning. -/
def initialFacts (e : Equation) (g : FlowGraph) (seeding : Seeding) : Nat → Fact :=
  Function.update (factAt (Array.replicate g.size (initialFact e seeding)))
    (e.direction.boundary g) (.known e.boundary)

/-- What the nodes other than the boundary start from. -/
lemma initialFacts_of_ne (hn : n < g.size) (hb : n ≠ e.direction.boundary g) :
    initialFacts e g seeding n = initialFact e seeding := by
  rw [initialFacts, Function.update_of_ne hb, factAt_replicate hn]

/-- The first state, as far as it does not depend on the order of the queue. -/
lemma start_spec (h : start e g seeding = .ok s) :
    s.facts.size = g.size ∧ factAt s.facts = initialFacts e g seeding ∧ s.flips = #[] ∧
      s.worklist.Consistent g.size ∧
      ∃ ns, seeds e g seeding = .ok ns ∧
        ∀ m, m ∈ s.worklist.toList ↔ m ∈ ns ∧ m ≠ e.direction.boundary g := by
  simp only [start, bind_eq_ok_iff, pure_eq_ok_iff, store_eq_ok_iff] at h
  obtain ⟨_, ⟨hb, rfl⟩, ns, hns, w, hqueue, rfl⟩ := h
  obtain ⟨hw, hmem⟩ := consistent_enqueue (Worklist.consistent_empty g.size) hqueue
  refine ⟨by simp, factAt_setIfInBounds hb _, rfl, hw, ns, hns, fun m => ?_⟩
  rw [hmem]
  simp [Worklist.empty, Worklist.toList]

/-- The nodes that are evaluated first, apart from the boundary. -/
lemma mem_seeds {ns : NodeSet} (h : seeds e g seeding = .ok ns) {m : Nat} :
    m ∈ ns ↔ match seeding with
      | .eager => m < g.size
      | .reachableOnly => e.direction.Source g (e.direction.boundary g) m := by
  cases seeding with
  | eager =>
    obtain rfl : g.nodes = ns := by simpa [seeds] using h
    simp [FlowGraph.nodes]
  | reachableOnly => exact (Direction.readers_eq_ok_iff.mp h).2 m

/-- The first state satisfies the invariant: all nodes wait, or nothing is known of any node but
the boundary, whose readers wait. -/
lemma consistent_of_start (h : start e g seeding = .ok s) : s.Consistent e g := by
  obtain ⟨hsize, hfacts, _, hw, ns, hns, hmem⟩ := start_spec h
  refine ⟨hsize, hw, fun hb => ((hmem _).mp hb).2 rfl, ?_, fun n hn hnb hnw => ?_⟩
  · rw [hfacts, initialFacts, Function.update_self]
  · have hnseed : n ∉ ns := fun hmem' => hnw ((hmem n).mpr ⟨hmem', hnb⟩)
    rw [mem_seeds hns] at hnseed
    cases seeding with
    | eager => exact absurd hn hnseed
    | reachableOnly =>
      refine Or.inr ⟨by rw [hfacts, initialFacts_of_ne hn hnb]; rfl, fun m hm => ?_⟩
      have hmb : m ≠ e.direction.boundary g := by
        rintro rfl
        exact hnseed hm
      rw [hfacts, initialFacts_of_ne hm.lt.1 hmb]
      rfl

/-- The loop can always begin. -/
lemma exists_start (e : Equation) (g : FlowGraph) (seeding : Seeding) :
    ∃ s, start e g seeding = .ok s := by
  have hb : e.direction.boundary g < (Array.replicate g.size (initialFact e seeding)).size := by
    simpa using e.direction.boundary_lt g
  obtain ⟨ns, hns⟩ : ∃ ns, seeds e g seeding = .ok ns := by
    cases seeding with
    | eager => exact ⟨_, rfl⟩
    | reachableOnly => exact Direction.exists_readers (e.direction.boundary_lt g)
  have hlt (m : Nat) (hm : m ∈ ns) : m < g.size := by
    rw [mem_seeds hns] at hm
    cases seeding with
    | eager => exact hm
    | reachableOnly => exact hm.lt.2
  obtain ⟨w, hw⟩ := exists_enqueue (e := e) (Worklist.consistent_empty g.size) hlt
  have hfacts := store_of_lt hb (.known e.boundary)
  refine ⟨⟨(Array.replicate g.size (initialFact e seeding)).setIfInBounds
    (e.direction.boundary g) (.known e.boundary), w, #[], 0⟩, ?_⟩
  simp only [start, bind_eq_ok_iff, pure_eq_ok_iff]
  exact ⟨_, hfacts, ns, hns, w, hw, rfl⟩

end SolverState

end PartialRedundancy
