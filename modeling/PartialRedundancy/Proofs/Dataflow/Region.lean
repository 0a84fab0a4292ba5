import Mathlib.Logic.Relation
import PartialRedundancy.Proofs.Dataflow.Solver

/-!
# The nodes that a run resolves

Which nodes a run gives a value: all of them if all are queued at the beginning, and those that
values from the boundary reach if only its readers are. At the end every node that has a value
satisfies its equation, with the other nodes left out of the meets.

## Main definitions

* `Direction.Reached` — values from the boundary reach a node.
* `Direction.Region` — the nodes that a run with some seeding resolves.
* `Equation.Satisfies` — an assignment of facts satisfies the equations of all nodes but the
  boundary.
* `SolverState.Confined` — no node outside of the region waits or has a value.

## Main results

* `SolverState.Confined.step` — every round keeps a run confined to its region.
* `SolverState.Confined.known_iff` — once no node waits, the nodes of the region have a value.
* `SolverState.Consistent.satisfies` — once no node waits, the equations are satisfied.
-/

namespace PartialRedundancy

namespace Direction

variable {d : Direction} {g : FlowGraph} {m n : Nat}

/-- Values from the boundary reach node `n`: backwards, some path leads from `n` to the exit;
forwards, some path leads from the entry to `n`. -/
def Reached (d : Direction) (g : FlowGraph) (n : Nat) : Prop :=
  match d with
  | backward => Relation.ReflTransGen g.Edge n g.exit
  | forward => Relation.ReflTransGen g.Edge g.entry n

/-- The boundary is reached. -/
lemma reached_boundary (d : Direction) (g : FlowGraph) : d.Reached g (d.boundary g) := by
  cases d <;> exact .refl

/-- The readers of a reached node are reached. -/
lemma Reached.reader (hm : d.Reached g m) (h : d.Source g m n) : d.Reached g n := by
  cases d with
  | backward => exact Relation.ReflTransGen.head h hm
  | forward => exact Relation.ReflTransGen.tail hm h

/-- What holds of the boundary and passes from nodes to their readers holds of all nodes that are
reached. -/
lemma Reached.induction {P : Nat → Prop} (hn : d.Reached g n) (hboundary : P (d.boundary g))
    (hreader : ∀ m n, d.Source g m n → P m → P n) : P n := by
  cases d with
  | backward =>
    induction hn using Relation.ReflTransGen.head_induction_on with
    | refl => exact hboundary
    | head h _ ih => exact hreader _ _ h ih
  | forward =>
    induction hn with
    | refl => exact hboundary
    | tail _ h ih => exact hreader _ _ h ih

/-- Nodes that are reached are nodes. -/
lemma Reached.lt (hn : d.Reached g n) : n < g.size :=
  hn.induction (d.boundary_lt g) fun _ _ h _ => h.lt.2

/-- The nodes that a run with some seeding resolves, if values travel in direction `d`. -/
def Region (d : Direction) (g : FlowGraph) (seeding : Seeding) (n : Nat) : Prop :=
  match seeding with
  | .eager => n < g.size
  | .reachableOnly => d.Reached g n

/-- Nodes that are resolved are nodes. -/
lemma Region.lt {seeding : Seeding} (h : d.Region g seeding n) : n < g.size := by
  cases seeding with
  | eager => exact h
  | reachableOnly => exact Reached.lt h

/-- The boundary is resolved. -/
lemma region_boundary (d : Direction) (g : FlowGraph) (seeding : Seeding) :
    d.Region g seeding (d.boundary g) := by
  cases seeding with
  | eager => exact d.boundary_lt g
  | reachableOnly => exact d.reached_boundary g

/-- The readers of a resolved node are resolved. -/
lemma Region.reader {seeding : Seeding} (hm : d.Region g seeding m) (h : d.Source g m n) :
    d.Region g seeding n := by
  cases seeding with
  | eager => exact h.lt.2
  | reachableOnly => exact Reached.reader hm h

end Direction

/-- The facts `x` satisfy the equations of all nodes but the boundary that have a value. A node
without a value is left out of every meet. -/
def Equation.Satisfies (e : Equation) (g : FlowGraph) (x : Nat → Fact) : Prop :=
  ∀ n b, n ≠ e.direction.boundary g → x n = .known b → e.RightSide g x n b

namespace SolverState

variable {e : Equation} {g : FlowGraph} {seeding : Seeding} {s t : SolverState} {n : Nat}

/-- No node outside of the region waits or has a value; if all nodes are queued at the beginning,
all nodes have one. -/
structure Confined (e : Equation) (g : FlowGraph) (seeding : Seeding) (s : SolverState) :
    Prop where
  /-- The nodes that wait are in the region. -/
  waiting : ∀ n ∈ s.worklist.toList, e.direction.Region g seeding n
  /-- The nodes that have a value are in the region. -/
  known : ∀ n, factAt s.facts n ≠ .unknown → e.direction.Region g seeding n
  /-- In an eager run all nodes have a value. -/
  eager : seeding = .eager → ∀ n < g.size, factAt s.facts n ≠ .unknown

/-- A run is confined to its region at the beginning. -/
lemma confined_of_start (h : start e g seeding = .ok s) : s.Confined e g seeding := by
  obtain ⟨hsize, hfacts, _, hw, ns, hns, hmem⟩ := start_spec h
  refine ⟨fun n hn => ?_, fun n hn => ?_, ?_⟩
  · have hseed := (mem_seeds hns).mp ((hmem n).mp hn).1
    cases seeding with
    | eager => exact hseed
    | reachableOnly => exact (e.direction.reached_boundary g).reader hseed
  · by_cases hb : n = e.direction.boundary g
    · exact hb ▸ e.direction.region_boundary g seeding
    · have hlt : n < g.size := hsize ▸ lt_of_factAt_ne hn
      rw [hfacts, initialFacts_of_ne hlt hb] at hn
      cases seeding with
      | eager => exact hlt
      | reachableOnly => exact absurd rfl hn
  · rintro rfl n hn
    rw [hfacts]
    by_cases hb : n = e.direction.boundary g
    · simp [initialFacts, hb]
    · simp [initialFacts_of_ne hn hb, initialFact]

/-- Every round keeps a run confined to its region. -/
lemma Confined.step (hc : s.Confined e g seeding) (hs : s.Consistent e g)
    (h : s.step e g = .ok t) : t.Confined e g seeding := by
  cases step_of_eq_ok h with
  | rest hnil => exact hc
  | @keep n value w hpop heval hold =>
    exact ⟨fun m hm => hc.waiting m (Worklist.mem_of_mem_pop hpop hm), hc.known, hc.eager⟩
  | @flip n value w w' readers hpop heval hold hn hreaders hqueue =>
    have hnr : e.direction.Region g seeding n := hc.waiting n (Worklist.mem_of_pop hpop)
    obtain ⟨_, hmem⟩ := consistent_enqueue (hs.worklist.pop hpop).1 hqueue
    obtain ⟨_, hreader⟩ := Direction.readers_eq_ok_iff.mp hreaders
    have hfact := factAt_setIfInBounds hn (.known value)
    refine ⟨fun m hm => ?_, fun m hm => ?_, fun he m hm => ?_⟩
    · rcases (hmem m).mp hm with hm | ⟨hm, _⟩
      · exact hc.waiting m (Worklist.mem_of_mem_pop hpop hm)
      · exact hnr.reader ((hreader m).mp hm)
    · by_cases hmn : m = n
      · exact hmn ▸ hnr
      · rw [hfact, Function.update_of_ne hmn] at hm
        exact hc.known m hm
    · rw [hfact]
      by_cases hmn : m = n
      · subst hmn
        simp
      · rw [Function.update_of_ne hmn]
        exact hc.eager he m hm

/-! ## The end of a run -/

/-- Once no node waits, the nodes that have a value are those of the region.

**Proof sketch.** A node that has no value and does not wait has no source with a value, by the
invariant of the loop. So values pass from the boundary to every node that is reached. -/
lemma Confined.known_iff (hc : s.Confined e g seeding) (hs : s.Consistent e g)
    (hnil : s.worklist.toList = []) :
    factAt s.facts n ≠ .unknown ↔ e.direction.Region g seeding n := by
  refine ⟨hc.known n, fun hr => ?_⟩
  cases seeding with
  | eager => exact hc.eager rfl n hr
  | reachableOnly =>
    have hr : e.direction.Reached g n := hr
    refine hr.induction (P := fun n => factAt s.facts n ≠ .unknown) ?_ fun m n h hm => ?_
    · exact Fact.ne_unknown_iff.mpr ⟨_, hs.fact_boundary⟩
    · by_cases hb : n = e.direction.boundary g
      · exact Fact.ne_unknown_iff.mpr ⟨_, hb ▸ hs.fact_boundary⟩
      · rcases hs.settled n h.lt.2 hb (by simp [hnil]) with ⟨b, hn, _⟩ | ⟨_, hsource⟩
        · exact Fact.ne_unknown_iff.mpr ⟨b, hn⟩
        · exact absurd (hsource m h) hm

/-- Once no node waits, the equations are satisfied. -/
lemma Consistent.satisfies (hs : s.Consistent e g) (hnil : s.worklist.toList = []) :
    e.Satisfies g (factAt s.facts) := by
  intro n b hb hn
  have hne := Fact.ne_unknown_iff.mpr ⟨b, hn⟩
  have hlt : n < g.size := by
    rw [← hs.size_facts]
    exact lt_of_factAt_ne hne
  rcases hs.settled n hlt hb (by simp [hnil]) with ⟨b', hn', heval⟩ | ⟨hu, _⟩
  · obtain rfl : b' = b := Fact.known.inj (hn'.symm.trans hn)
    exact Equation.rightSide_of_evaluate heval
  · exact absurd hu hne

end SolverState

end PartialRedundancy
