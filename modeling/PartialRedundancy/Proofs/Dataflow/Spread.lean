import PartialRedundancy.Proofs.Dataflow.Cause
import PartialRedundancy.Proofs.Dataflow.Path

/-!
# How a value spreads along paths

In many systems a single source is enough to give a node one of the two values: one contribution
spoils a conjunction or settles a disjunction. A run that starts from the other value then gives it
to the nodes to which it spreads, from node to reader, and to no others. So what the run computes
can be read off the paths of the graph.

## Main definitions

* `Spread` — which nodes give a value to their readers, pass it on and take it.
* `Equation.SpreadsBy` — a single source is enough to give a node the value.
* `Direction.Chain` — the nodes to which the value spreads.

## Main results

* `Equation.spreadsBy_of_any`, `Equation.spreadsBy_of_all` — truth spreads through disjunctions, and
  falsehood through conjunctions.
* `SolverState.Ends.factAt_eq_iff_chain` — at the end, these are the nodes that have the value.
* `Direction.chain_forward_iff`, `Direction.chain_backward_iff` — a value that spreads forwards
  comes along a path to the node, and one that spreads backwards along a path from the node.

## Design

The value of the boundary is fixed and no equation changes it. A boundary that has the value is one
more node that gives it, and one that does not have it passes nothing on.
-/

namespace PartialRedundancy

/-- How a value spreads. -/
structure Spread where
  /-- The node gives the value to its readers, whether it has it or not. -/
  gives : Nat → Prop
  /-- The node gives the value to its readers if it has it. -/
  passes : Nat → Prop
  /-- The node takes the value. -/
  takes : Nat → Prop

/-- The spread in which node `m` has the value for good, or lacks it for good. -/
def Spread.pin (σ : Spread) (m : Nat) (has : Prop) : Spread where
  gives n := σ.gives n ∨ (n = m ∧ has ∧ σ.passes n)
  passes n := σ.passes n ∧ (n = m → has)
  takes := σ.takes

namespace Equation

variable {e : Equation} {g : FlowGraph}

/-- The equation of a node gives it the value `b` exactly if the node takes it and some source gives
it, or has it and passes it on. -/
def SpreadsBy (e : Equation) (g : FlowGraph) (b : Bool) (σ : Spread) : Prop :=
  ∀ n < g.size, ∀ x : Nat → Fact, e.RightSide g x n b ↔
    σ.takes n ∧ ∃ m v, e.direction.Source g m n ∧ x m = .known v ∧
      (σ.gives m ∨ (σ.passes m ∧ v = b))

/-- Truth spreads if one contribution is enough for the meet, and no node is true without it. -/
lemma spreadsBy_of_any (hmeet : e.meet = .any) {σ : Spread}
    (hterm : ∀ m < g.size, ∀ v, e.term m v = .ok true ↔ σ.gives m ∨ (σ.passes m ∧ v = true))
    (happly : ∀ n < g.size, ∀ met, e.apply n met = .ok true ↔ σ.takes n ∧ met = true) :
    e.SpreadsBy g true σ := by
  intro n hn x
  constructor
  · rintro ⟨met, hmet, hvalue⟩
    obtain ⟨htakes, rfl⟩ := (happly n hn met).mp hvalue
    obtain ⟨m, v, hm, hxm, ht⟩ := (e.met_any hmeet).mp (hmet.mp rfl)
    exact ⟨htakes, m, v, hm, hxm, (hterm m hm.lt.1 v).mp ht⟩
  · rintro ⟨htakes, m, v, hm, hxm, hgives⟩
    have hmet : e.Met x fun m => e.direction.Source g m n :=
      (e.met_any hmeet).mpr ⟨m, v, hm, hxm, (hterm m hm.lt.1 v).mpr hgives⟩
    exact ⟨true, iff_of_true rfl hmet, (happly n hn true).mpr ⟨htakes, rfl⟩⟩

/-- Falsehood spreads if one contribution spoils the meet, and no node is false without it. -/
lemma spreadsBy_of_all (hmeet : e.meet = .all) {σ : Spread}
    (hterm : ∀ m < g.size, ∀ v, ¬ e.term m v = .ok true ↔ σ.gives m ∨ (σ.passes m ∧ v = false))
    (happly : ∀ n < g.size, ∀ met, e.apply n met = .ok false ↔ σ.takes n ∧ met = false) :
    e.SpreadsBy g false σ := by
  intro n hn x
  constructor
  · rintro ⟨met, hmet, hvalue⟩
    obtain ⟨htakes, rfl⟩ := (happly n hn met).mp hvalue
    have hspoilt := mt hmet.mpr Bool.false_ne_true
    rw [e.met_all hmeet] at hspoilt
    push Not at hspoilt
    obtain ⟨m, v, hm, hxm, ht⟩ := hspoilt
    exact ⟨htakes, m, v, hm, hxm, (hterm m hm.lt.1 v).mp ht⟩
  · rintro ⟨htakes, m, v, hm, hxm, hgives⟩
    refine ⟨false, iff_of_false Bool.false_ne_true fun hmet => ?_,
      (happly n hn false).mpr ⟨htakes, rfl⟩⟩
    exact (hterm m hm.lt.1 v).mpr hgives ((e.met_all hmeet).mp hmet m v hm hxm)

end Equation

/-! ## Chains -/

/-- The value spreads to node `n`, from a resolved node that gives it, through readers that pass it
on. -/
inductive Direction.Chain (d : Direction) (g : FlowGraph) (seeding : Seeding) (σ : Spread) :
    Nat → Prop
  /-- A reader of a node that gives the value. -/
  | give {m n : Nat} (hr : d.Region g seeding m) (hm : σ.gives m) (h : d.Source g m n)
      (hn : σ.takes n) : Chain d g seeding σ n
  /-- A reader of a node that passes the value on. -/
  | pass {m n : Nat} (hc : Chain d g seeding σ m) (hm : σ.passes m) (h : d.Source g m n)
      (hn : σ.takes n) : Chain d g seeding σ n

/-- A value only spreads to resolved nodes. -/
lemma Direction.Chain.region {d : Direction} {g : FlowGraph} {seeding : Seeding} {σ : Spread}
    {n : Nat} (h : d.Chain g seeding σ n) : d.Region g seeding n := by
  induction h with
  | give hr _ h _ => exact hr.reader h
  | pass _ _ h _ ih => exact ih.reader h

namespace SolverState

variable {e : Equation} {g : FlowGraph} {seeding : Seeding} {s : SolverState} {σ : Spread} {n : Nat}

/-- A node to which the value spreads has it at the end.

**Proof sketch.** Induction along the chain. Some source gives the value, or has it and passes it
on, so the right-hand side is the value, and at the end the equation is satisfied. -/
lemma Ends.factAt_of_chain (h : s.Ends e g seeding) {b : Bool} (hσ : e.SpreadsBy g b σ)
    (hn : e.direction.Chain g seeding (σ.pin (e.direction.boundary g) (e.boundary = b)) n)
    (hb : n ≠ e.direction.boundary g) : factAt s.facts n = .known b := by
  have hboundary := h.invariants.1.fact_boundary
  -- what the equation of a resolved node gives is the value of the node
  have hvalue {n : Nat} (hr : e.direction.Region g seeding n) (hb : n ≠ e.direction.boundary g)
      (hright : e.RightSide g (factAt s.facts) n b) : factAt s.facts n = .known b := by
    obtain ⟨c, hc⟩ := Fact.ne_unknown_iff.mp (h.known_iff.mpr hr)
    rw [hc, (h.satisfies n c hb hc).unique hright]
  induction hn with
  | @give m n hr hm hs htakes =>
    refine hvalue (hr.reader hs) hb ((hσ n hs.lt.2 _).mpr ⟨htakes, m, ?_⟩)
    rcases hm with hm | ⟨rfl, hhas, hm⟩
    · obtain ⟨v, hv⟩ := Fact.ne_unknown_iff.mp (h.known_iff.mpr hr)
      exact ⟨v, hs, hv, Or.inl hm⟩
    · exact ⟨e.boundary, hs, hboundary, Or.inr ⟨hm, hhas⟩⟩
  | @pass m n hc hm hs htakes ih =>
    obtain ⟨hm, hhas⟩ := hm
    refine hvalue (hc.region.reader hs) hb ((hσ n hs.lt.2 _).mpr ⟨htakes, m, b, hs, ?_,
      Or.inr ⟨hm, rfl⟩⟩)
    by_cases hmb : m = e.direction.boundary g
    · rw [hmb, hboundary, hhas hmb]
    · exact ih hmb

/-- At the end of a run that starts from the other value, the nodes that have the value are those to
which it spreads.

**Proof sketch.** A node has the value only for a cause. Its equation names a source that gives the
value, and then a chain begins there, or that has it and passes it on: then the source is the
boundary, or a chain ends there. -/
lemma Ends.factAt_eq_iff_chain (h : s.Ends e g seeding) (he : e.IsMonotone g) {b : Bool}
    (ho : (!(e.origin seeding).start) = b) (hσ : e.SpreadsBy g b σ)
    (hb : n ≠ e.direction.boundary g) : factAt s.facts n = .known b ↔
      e.direction.Chain g seeding (σ.pin (e.direction.boundary g) (e.boundary = b)) n := by
  subst ho
  refine ⟨fun hn => ?_, fun hn => h.factAt_of_chain hσ hn hb⟩
  have hcause := h.induction_other he
    (P := fun m => if m = e.direction.boundary g then e.boundary = !(e.origin seeding).start
      else e.direction.Chain g seeding
        (σ.pin (e.direction.boundary g) (e.boundary = !(e.origin seeding).start)) m)
    (fun hhas => by rwa [if_pos rfl]) ?_ hn
  · rwa [if_neg hb] at hcause
  · intro n hr hnb x hx hright
    rw [if_neg hnb]
    obtain ⟨htakes, m, v, hs, hxm, hm⟩ := (hσ n hr.lt x).mp hright
    obtain ⟨hmr, hmP⟩ := hx m v hxm
    rcases hm with hm | ⟨hm, rfl⟩
    · exact .give hmr (Or.inl hm) hs htakes
    · have hmP := hmP rfl
      by_cases hmb : m = e.direction.boundary g
      · rw [if_pos hmb] at hmP
        exact .give hmr (Or.inr ⟨hmb, hmP, hm⟩) hs htakes
      · rw [if_neg hmb] at hmP
        exact .pass hmP ⟨hm, fun h => absurd h hmb⟩ hs htakes

end SolverState

/-! ## Chains as paths -/

namespace Direction

variable {g : FlowGraph} {seeding : Seeding} {σ : Spread} {n k : Nat} {p : Nat → Nat}

/-- On a path from a node that gives the value, through nodes that pass it on, the value spreads
forwards to all nodes behind the first. -/
lemma chain_forward_of_path (hp : g.Path p k) (hr : forward.Region g seeding (p 0))
    (hgives : σ.gives (p 0)) (hpasses : ∀ i, 0 < i → i < k → σ.passes (p i))
    (htakes : ∀ i, 0 < i → i ≤ k → σ.takes (p i)) {i : Nat} (hi : i < k) :
    forward.Chain g seeding σ (p (i + 1)) := by
  induction i with
  | zero => exact .give hr hgives (hp 0 hi) (htakes 1 one_pos hi)
  | succ i ih =>
    exact .pass (ih (by omega)) (hpasses (i + 1) (Nat.succ_pos i) hi) (hp (i + 1) hi)
      (htakes (i + 2) (Nat.succ_pos _) hi)

/-- On a path to a node that gives the value, through nodes that pass it on, the value spreads
backwards to all nodes before the last. -/
lemma chain_backward_of_path (hp : g.Path p k) (hr : backward.Region g seeding (p k))
    (hgives : σ.gives (p k)) (hpasses : ∀ i, 0 < i → i < k → σ.passes (p i))
    (htakes : ∀ i < k, σ.takes (p i)) {i : Nat} (hi : i < k) :
    backward.Chain g seeding σ (p i) := by
  -- induction on the distance from the end
  induction hd : k - i generalizing i with
  | zero => omega
  | succ d ih =>
    by_cases hlast : i + 1 = k
    · exact .give (hlast ▸ hr) (hlast ▸ hgives) (hp i hi) (htakes i hi)
    · exact .pass (ih (by omega) (by omega)) (hpasses (i + 1) (Nat.succ_pos i) (by omega)) (hp i hi)
        (htakes i hi)

/-- A value that spreads forwards to a node comes along a path that ends there. -/
lemma chain_forward_iff : forward.Chain g seeding σ n ↔ ∃ (p : Nat → Nat) (k : Nat), 0 < k ∧
    g.Path p k ∧ p k = n ∧ forward.Region g seeding (p 0) ∧ σ.gives (p 0) ∧
      (∀ i, 0 < i → i < k → σ.passes (p i)) ∧ ∀ i, 0 < i → i ≤ k → σ.takes (p i) := by
  constructor
  · intro h
    induction h with
    | @give m n hr hm hs htakes =>
      refine ⟨prepend m fun _ => n, 1, one_pos, FlowGraph.path_of_edge hs, rfl, hr, hm,
        fun i hi hi' => by omega, fun i hi hi' => ?_⟩
      obtain rfl : i = 1 := by omega
      exact htakes
    | @pass m n _ hm hs hn ih =>
      obtain ⟨p, k, hk, hp, rfl, hr, hgives, hpasses, htakes⟩ := ih
      have hold (i : Nat) (hi : i ≤ k) : Function.update p (k + 1) n i = p i :=
        Function.update_of_ne (by omega) _ _
      refine ⟨Function.update p (k + 1) n, k + 1, Nat.succ_pos k, hp.extend hs,
        Function.update_self .., ?_, ?_, fun i hi hi' => ?_, fun i hi hi' => ?_⟩
      · rwa [hold 0 (Nat.zero_le k)]
      · rwa [hold 0 (Nat.zero_le k)]
      · rw [hold i (Nat.le_of_lt_succ hi')]
        rcases Nat.lt_succ_iff_lt_or_eq.mp hi' with hi' | rfl
        · exact hpasses i hi hi'
        · exact hm
      · rcases Nat.le_succ_iff.mp hi' with hi' | rfl
        · rw [hold i hi']
          exact htakes i hi hi'
        · rwa [Function.update_self]
  · rintro ⟨p, k, hk, hp, rfl, hr, hgives, hpasses, htakes⟩
    obtain ⟨k, rfl⟩ := Nat.exists_eq_add_one.mpr hk
    exact chain_forward_of_path hp hr hgives hpasses htakes (Nat.lt_succ_self k)

/-- A value that spreads backwards to a node comes along a path that starts there. -/
lemma chain_backward_iff : backward.Chain g seeding σ n ↔ ∃ (p : Nat → Nat) (k : Nat), 0 < k ∧
    g.Path p k ∧ p 0 = n ∧ backward.Region g seeding (p k) ∧ σ.gives (p k) ∧
      (∀ i, 0 < i → i < k → σ.passes (p i)) ∧ ∀ i < k, σ.takes (p i) := by
  constructor
  · intro h
    induction h with
    | @give m n hr hm hs htakes =>
      refine ⟨prepend n fun _ => m, 1, one_pos, FlowGraph.path_of_edge hs, rfl, hr, hm,
        fun i hi hi' => by omega, fun i hi => ?_⟩
      obtain rfl : i = 0 := Nat.lt_one_iff.mp hi
      exact htakes
    | @pass m n _ hm hs hn ih =>
      obtain ⟨p, k, hk, hp, rfl, hr, hgives, hpasses, htakes⟩ := ih
      refine ⟨prepend n p, k + 1, Nat.succ_pos k, hp.prepend hs, rfl, hr, hgives, ?_, ?_⟩
      · rintro (_ | _ | i) hi hi'
        · omega
        · exact hm
        · exact hpasses (i + 1) (Nat.succ_pos i) (by omega)
      · rintro (_ | i) hi
        · exact hn
        · exact htakes i (by omega)
  · rintro ⟨p, k, hk, hp, rfl, hr, hgives, hpasses, htakes⟩
    exact chain_backward_of_path hp hr hgives hpasses htakes hk

end Direction

end PartialRedundancy
