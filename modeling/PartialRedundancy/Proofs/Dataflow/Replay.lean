import PartialRedundancy.Motion.Vector
import PartialRedundancy.Proofs.Dataflow.Rounds

/-!
# The record replays to the facts

Whoever listens to a run is told every flip when it happens and nothing else. That is enough to
follow the facts: the flips so far, applied one after the other to the first facts, give the facts
as they are. No equation has to be monotone for that, and the run need not come to an end.

## Main definitions

* `replay` — facts after some flips.
* `SolverState.startFacts` — the facts before the first round.
* `SolverState.Replays` — the record of a state replays to its facts.

## Main results

* `SolverState.Replays.step` — every round keeps the record faithful.
* `SolverState.flips_prefix_of_step` — every round only adds to the record.
* `replay_flips_eq_facts` — the record of a run, and of its result.

## Design

`SolverState.Recorded` follows the flips of one node at a time, which is what bounds their number.
Here the order between the flips of different nodes matters too: a flip has to find its old fact in
what all flips before it have left.
-/

namespace PartialRedundancy

/-! ## Replaying flips -/

/-- The facts after some flips, one after the other. -/
def replay (facts : Array Fact) (flips : List Flip) : Array Fact :=
  flips.foldl (fun facts f => facts.setIfInBounds f.node (.known f.new)) facts

section replay

variable {facts : Array Fact} {flips : List Flip}

/-- One flip more is applied to what the others have left. -/
lemma replay_append_singleton (facts : Array Fact) (flips : List Flip) (f : Flip) :
    replay facts (flips ++ [f]) =
      (replay facts flips).setIfInBounds f.node (.known f.new) := by
  rw [replay, List.foldl_append]
  rfl

/-- A node that does not flip keeps its fact. -/
lemma getElem?_replay_of_forall_ne {n : Nat} (h : ∀ f ∈ flips, f.node ≠ n) :
    (replay facts flips)[n]? = facts[n]? := by
  induction flips generalizing facts with
  | nil => rfl
  | cons f flips ih =>
    obtain ⟨hf, hflips⟩ := List.forall_mem_cons.mp h
    exact (ih hflips).trans (Array.getElem?_setIfInBounds_ne hf)

end replay

namespace SolverState

variable {e : Equation} {g : FlowGraph} {seeding : Seeding} {s t : SolverState}

/-! ## The invariant -/

/-- The facts before the first round: the same for all nodes but the boundary. -/
def startFacts (e : Equation) (g : FlowGraph) (seeding : Seeding) : Array Fact :=
  (Array.replicate g.size (initialFact e seeding)).setIfInBounds (e.direction.boundary g)
    (.known e.boundary)

/-- The record replays to the facts, and each flip in it changes the fact that its node has at that
point. -/
structure Replays (e : Equation) (g : FlowGraph) (seeding : Seeding) (s : SolverState) : Prop where
  /-- All flips together lead to the facts. -/
  facts_eq : replay (startFacts e g seeding) s.flips.toList = s.facts
  /-- Each flip starts from what those before it have left. -/
  old_eq : ∀ before f after, s.flips.toList = before ++ f :: after →
    (replay (startFacts e g seeding) before)[f.node]? = some f.old
  /-- Each flip is to another value. -/
  old_ne : ∀ f ∈ s.flips.toList, f.old ≠ .known f.new
  /-- The boundary does not flip. -/
  node_ne : ∀ f ∈ s.flips.toList, f.node ≠ e.direction.boundary g

/-- At the beginning nothing is recorded. -/
lemma replays_of_start (h : start e g seeding = .ok s) : s.Replays e g seeding := by
  simp only [start, bind_eq_ok_iff, pure_eq_ok_iff, store_eq_ok_iff] at h
  obtain ⟨_, ⟨_, rfl⟩, _, _, _, _, rfl⟩ := h
  refine ⟨rfl, fun before f after hsplit => ?_, fun f hf => ?_, fun f hf => ?_⟩
  · exact absurd hsplit (by simp)
  · exact absurd hf (by simp)
  · exact absurd hf (by simp)

/-- Every round keeps the record faithful.

**Proof sketch.** Only a flip changes the facts, and it is recorded with the fact that it replaces.
In a record that ends with the new flip, any other flip stands where it stood before. -/
lemma Replays.step (hr : s.Replays e g seeding) (hs : s.Consistent e g)
    (h : s.step e g = .ok t) : t.Replays e g seeding := by
  cases step_of_eq_ok h with
  | rest => exact hr
  | keep => exact ⟨hr.facts_eq, hr.old_eq, hr.old_ne, hr.node_ne⟩
  | @flip n value w w' readers hpop heval hold hn hreaders hqueue =>
    have hnb : n ≠ e.direction.boundary g := by
      rintro rfl
      exact hs.boundary_notMem (Worklist.mem_of_pop hpop)
    refine ⟨?_, fun before f after hsplit => ?_, fun f hf => ?_, fun f hf => ?_⟩
    · rw [Array.toList_push, replay_append_singleton, hr.facts_eq]
    · rw [Array.toList_push] at hsplit
      rcases List.eq_nil_or_concat after with rfl | ⟨after, f', rfl⟩
      · -- it is the new flip
        obtain ⟨rfl, hf⟩ := List.append_inj' hsplit rfl
        obtain rfl := (List.cons.inj hf).1
        rw [hr.facts_eq]
        exact getElem?_eq_some_iff_factAt.mpr ⟨hn, rfl⟩
      · rw [List.concat_eq_append, ← List.cons_append, ← List.append_assoc] at hsplit
        exact hr.old_eq before f after (List.append_inj' hsplit rfl).1
    · rw [Array.toList_push, List.mem_append, List.mem_singleton] at hf
      rcases hf with hf | rfl
      · exact hr.old_ne f hf
      · exact hold
    · rw [Array.toList_push, List.mem_append, List.mem_singleton] at hf
      rcases hf with hf | rfl
      · exact hr.node_ne f hf
      · exact hnb

/-- Every round only adds to the record. -/
lemma flips_prefix_of_step (h : s.step e g = .ok t) : s.flips.toList <+: t.flips.toList := by
  cases step_of_eq_ok h with
  | rest => exact List.prefix_rfl
  | keep => exact List.prefix_rfl
  | flip =>
    rw [Array.toList_push]
    exact List.prefix_append _ _

/-- Rounds after other rounds. -/
lemma iterate_add (rounds more : Nat) (s : SolverState) :
    iterate e g (rounds + more) s = iterate e g rounds s >>= iterate e g more := by
  induction rounds generalizing s with
  | zero =>
    rw [Nat.zero_add]
    rfl
  | succ rounds ih =>
    rw [Nat.succ_add, iterate, iterate, bind_assoc]
    simp only [ih]

end SolverState

/-! ## Runs -/

section Run

variable {e : Equation} {g : FlowGraph} {seeding : Seeding} {s t : SolverState}

/-- The record is faithful after any number of rounds. -/
lemma replays_of_stateAfter {rounds : Nat} (h : stateAfter e g seeding rounds = .ok s) :
    s.Replays e g seeding := by
  obtain ⟨s₀, h₀, hs⟩ := stateAfter_eq_ok_iff.mp h
  -- that the boundary does not flip is known of consistent states, so both are carried along
  exact (SolverState.iterate_preserves (P := fun s => s.Consistent e g ∧ s.Replays e g seeding)
    (fun _ _ hs h => ⟨hs.1.step h, hs.2.step hs.1 h⟩)
    ⟨SolverState.consistent_of_start h₀, SolverState.replays_of_start h₀⟩ hs).2

/-- What is recorded stays recorded. -/
lemma flips_prefix_of_stateAfter {rounds more : Nat}
    (hs : stateAfter e g seeding rounds = .ok s)
    (ht : stateAfter e g seeding (rounds + more) = .ok t) :
    s.flips.toList <+: t.flips.toList := by
  obtain ⟨s₀, h₀, hs⟩ := stateAfter_eq_ok_iff.mp hs
  obtain ⟨s₁, h₁, ht⟩ := stateAfter_eq_ok_iff.mp ht
  obtain rfl := Except.ok.inj (h₀.symm.trans h₁)
  rw [SolverState.iterate_add, hs] at ht
  exact SolverState.iterate_preserves (P := fun t => s.flips.toList <+: t.flips.toList)
    (fun _ _ hprefix h => hprefix.trans (SolverState.flips_prefix_of_step h)) List.prefix_rfl ht

/-- The record of a run that settles replays to its facts. -/
lemma replay_of_settled {limit : Nat} {r : SolverRun}
    (h : solveWithin e g seeding limit = .ok (.settled r)) :
    replay (SolverState.startFacts e g seeding) r.flips = r.facts := by
  obtain ⟨rounds, s, hrounds, _, rfl⟩ := stateAfter_of_settled h
  exact (replays_of_stateAfter hrounds).facts_eq

/-- The updates of an analysis are its own. If its run settles, they replay to its facts as well. -/
lemma replay_updates {a : Analysis} {r : AnalysisRun}
    (h : AnalysisRun.ofEquation a e g seeding = .ok r) :
    (∀ u ∈ r.updates, u.analysis = a) ∧ ∀ run, r.outcome = .settled run →
      replay (SolverState.startFacts e g seeding) (r.updates.map Update.flip) =
        r.vector.facts := by
  obtain ⟨o, ho, h⟩ := bind_eq_ok_iff.mp h
  obtain rfl := pure_eq_ok_iff.mp h
  refine ⟨fun u hu => ?_, ?_⟩
  · obtain ⟨f, _, rfl⟩ := List.mem_map.mp hu
    rfl
  · rintro run rfl
    rw [AnalysisRun.updates, List.map_map]
    change replay _ (run.flips.map id) = _
    rw [List.map_id]
    exact replay_of_settled ho

end Run

/-- **The record of a run replays to its facts.** For arbitrary equations and after any number of
rounds: the flips that are recorded so far, applied in order to the first facts, give the facts as
they are. Each of them starts from the fact that its node has at that point, is to a value other
than that, and is not of the boundary; and what is recorded stays recorded, so that the record is
what a listener has been told. Hence the record of a run that settles is enough to reconstruct its
result, and a node that is not in it still has its first fact; the updates of an analysis are such a
record. The record of a run that is cut off is the beginning of one that the loop makes. Where terms
and applications do not fail, there is a state after every number of rounds. -/
theorem replay_flips_eq_facts (e : Equation) (g : FlowGraph) (seeding : Seeding) :
    (e.IsTotal g → ∀ rounds, ∃ s, stateAfter e g seeding rounds = .ok s) ∧
    (∀ rounds s, stateAfter e g seeding rounds = .ok s →
      replay (SolverState.startFacts e g seeding) s.flips.toList = s.facts ∧
      (∀ before f after, s.flips.toList = before ++ f :: after →
        (replay (SolverState.startFacts e g seeding) before)[f.node]? = some f.old ∧
        f.old ≠ .known f.new ∧ f.node ≠ e.direction.boundary g) ∧
      ∀ more t, stateAfter e g seeding (rounds + more) = .ok t →
        s.flips.toList <+: t.flips.toList) ∧
    (∀ limit r, solveWithin e g seeding limit = .ok (.settled r) →
      replay (SolverState.startFacts e g seeding) r.flips = r.facts ∧
      ∀ n, (∀ f ∈ r.flips, f.node ≠ n) →
        r.facts[n]? = (SolverState.startFacts e g seeding)[n]?) ∧
    (∀ limit flips, solveWithin e g seeding limit = .ok (.cutOff flips) →
      ∃ rounds s, stateAfter e g seeding rounds = .ok s ∧ limit < s.flips.size ∧
        flips = s.flips.toList.take limit) ∧
    ∀ a r, AnalysisRun.ofEquation a e g seeding = .ok r →
      (∀ u ∈ r.updates, u.analysis = a) ∧ ∀ run, r.outcome = .settled run →
        replay (SolverState.startFacts e g seeding) (r.updates.map Update.flip) =
          r.vector.facts := by
  refine ⟨fun he rounds => exists_stateAfter he seeding rounds, fun rounds s hs => ?_,
    fun limit r hr => ?_, fun _ _ => stateAfter_of_cutOff, fun a r hr => replay_updates hr⟩
  · have hreplays := replays_of_stateAfter hs
    refine ⟨hreplays.facts_eq, fun before f after hsplit => ?_,
      fun more t ht => flips_prefix_of_stateAfter hs ht⟩
    have hf : f ∈ s.flips.toList := by simp [hsplit]
    exact ⟨hreplays.old_eq before f after hsplit, hreplays.old_ne f hf, hreplays.node_ne f hf⟩
  · have hfacts := replay_of_settled hr
    refine ⟨hfacts, fun n hn => ?_⟩
    rw [← hfacts]
    exact getElem?_replay_of_forall_ne hn

-- a run that is cut off has a record and no result
example : solveWithin negating oneLoop .eager 2 =
    .ok (.cutOff [⟨1, .known true, false⟩, ⟨1, .known false, true⟩]) := rfl

/-- A node that contradicts itself is told of again and again, each time with the value that it was
told to have before. Without the edge from the node to itself only the exit flips, and the node
still has its first fact. -/
theorem replay_negating :
    (∃ s, stateAfter negating oneLoop .eager 4 = .ok s ∧
      s.flips.toList = [⟨1, .known true, false⟩, ⟨1, .known false, true⟩, ⟨1, .known true, false⟩] ∧
      replay #[.known false, .known true, .known true]
        [⟨1, .known true, false⟩, ⟨1, .known false, true⟩, ⟨1, .known true, false⟩] = s.facts ∧
      (replay #[.known false, .known true, .known true]
        [⟨1, .known true, false⟩, ⟨1, .known false, true⟩])[1]? = some (.known true)) ∧
    ∃ r, solveWithin negating (.bare 1) .eager 2 = .ok (.settled r) ∧
      r.flips = [⟨2, .known true, false⟩] ∧ r.facts[1]? = some (.known true) := by
  obtain ⟨_, hrounds, _⟩ := replay_flips_eq_facts negating oneLoop .eager
  obtain ⟨s, hs, hflips⟩ : ∃ s, stateAfter negating oneLoop .eager 4 = .ok s ∧
      s.flips.toList =
        [⟨1, .known true, false⟩, ⟨1, .known false, true⟩, ⟨1, .known true, false⟩] :=
    ⟨_, rfl, rfl⟩
  obtain ⟨hfacts, hold, _⟩ := hrounds 4 s hs
  obtain ⟨r, hr, hlog⟩ : ∃ r, solveWithin negating (.bare 1) .eager 2 = .ok (.settled r) ∧
      r.flips = [⟨2, .known true, false⟩] := ⟨_, rfl, rfl⟩
  obtain ⟨_, _, hsettled, _⟩ := replay_flips_eq_facts negating (.bare 1) .eager
  obtain ⟨_, hfirst⟩ := hsettled 2 r hr
  rw [hflips] at hfacts hold
  refine ⟨⟨s, hs, hflips, hfacts, (hold [_, _] _ [] rfl).1⟩, r, hr, hlog, ?_⟩
  rw [hfirst 1 (by simp [hlog])]
  rfl

end PartialRedundancy
