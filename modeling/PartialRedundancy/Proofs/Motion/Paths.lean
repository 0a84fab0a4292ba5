import PartialRedundancy.Graph.Declaration
import PartialRedundancy.Proofs.Dataflow.Cause
import PartialRedundancy.Proofs.Dataflow.Path
import PartialRedundancy.Proofs.Motion.Equations

/-!
# Down-safety in terms of paths

What the vector of down-safety says of a node, said of the paths that start there.

## Main definitions

* `FlowGraph.Loses` — a path on which a value computed at its start is of no use.
* `FlowGraph.LosesFrom` — such a path leads from a node to one that the run resolves.

## Main results

* `DownSafety.not_holds_of_loses`, `DownSafety.exists_loses` — the nodes from which such a path
  leads are those that are known not to be down-safe.
* `analyze_downSafety_eq_false_iff` — the whole vector of down-safety.

## Design

An analysis that makes a conjunction starts from truth and gives up what it has to. A path that
loses the value is the reason for giving up its start; on a cycle that no such path leaves there is
none, and the nodes of the cycle stay down-safe.
-/

namespace PartialRedundancy

variable {g : FlowGraph} {seeding : Seeding} {v : FactVector} {n k : Nat} {p : Nat → Nat}

/-! ## Down-safety -/

/-- A value computed at the start of the path is of no use at its end, and of none before: the path
ends at the exit, or at a node that changes an operand and does not use the expression before, and
the nodes on the way neither use the expression nor are the exit. -/
def FlowGraph.Loses (g : FlowGraph) (p : Nat → Nat) (k : Nat) : Prop :=
  (∀ i < k, p i ∉ g.usedNodes ∧ p i ≠ g.exit) ∧
    (p k = g.exit ∨ (p k ∈ g.killedNodes ∧ p k ∉ g.usedNodes))

/-- A path from node `n` to a node that a backward run resolves loses the value. -/
def FlowGraph.LosesFrom (g : FlowGraph) (seeding : Seeding) (n : Nat) : Prop :=
  ∃ (p : Nat → Nat) (k : Nat), g.Path p k ∧ p 0 = n ∧
    Direction.backward.Region g seeding (p k) ∧ g.Loses p k

namespace DownSafety

/-- A path that loses the value starts at a node that is not down-safe.

**Proof sketch.** Neither is its end, and a node without a use is only down-safe if all its resolved
successors are. -/
lemma not_holds_of_loses (h : v.Solves (equation g) g seeding) (hp : g.Path p k)
    (hk : Direction.backward.Region g seeding (p k)) (hl : g.Loses p k) : ¬ v.Holds (p 0) := by
  obtain ⟨hway, hend⟩ := hl
  have hnot (i : Nat) (hi : i ≤ k) : ¬ v.Holds (p i) := by
    induction hd : k - i generalizing i with
    | zero =>
      obtain rfl : i = k := by omega
      by_cases hexit : p i = g.exit
      · rw [hexit]
        exact not_holds_exit h
      · obtain ⟨hkill, hu⟩ := hend.resolve_left hexit
        rw [holds_iff h hk hexit, not_or]
        exact ⟨hu, fun hsafe => hsafe.1 hkill⟩
    | succ d ih =>
      have hi' : i < k := by omega
      obtain ⟨hu, hexit⟩ := hway i hi'
      rw [holds_iff h (hp.region_backward hk hi) hexit, not_or]
      exact ⟨hu, fun hsafe =>
        ih (i + 1) hi' (by omega) (hsafe.2 _ (hp i hi') (hp.region_backward hk hi'))⟩
  exact hnot 0 (Nat.zero_le k)

/-- The exit loses the value, and so does a node that changes an operand without a use before. -/
lemma losesFrom_of_end (hr : Direction.backward.Region g seeding n)
    (hend : n = g.exit ∨ (n ∈ g.killedNodes ∧ n ∉ g.usedNodes)) : g.LosesFrom seeding n :=
  ⟨fun _ => n, 0, fun _ hi => absurd hi (Nat.not_lt_zero _), rfl, hr,
    fun _ hi => absurd hi (Nat.not_lt_zero _), hend⟩

/-- A node without a use loses the value if some successor does. -/
lemma losesFrom_of_edge {m : Nat} (hnm : g.Edge n m) (hu : n ∉ g.usedNodes) (hexit : n ≠ g.exit)
    (hm : g.LosesFrom seeding m) : g.LosesFrom seeding n := by
  obtain ⟨p, k, hp, rfl, hk, hway, hend⟩ := hm
  refine ⟨prepend n p, k + 1, hp.prepend hnm, rfl, hk, ?_, hend⟩
  rintro (_ | i) hi
  · exact ⟨hu, hexit⟩
  · exact hway i (by omega)

/-- From a node that is known not to be down-safe, a path loses the value.

**Proof sketch.** The exit loses the value. The equation of another node is false only if the node
does not use the expression, and it changes an operand, or some successor is not down-safe, and
loses the value by induction. -/
lemma exists_loses {r : AnalysisRun} (h : analyze g seeding = .ok r)
    (hn : factAt r.vector.facts n = .known false) : g.LosesFrom seeding n := by
  obtain ⟨s, hends, hv⟩ := AnalysisRun.exists_ends (isMonotone g) ⟨r, h, rfl⟩
  have horigin : (equation g).origin seeding = .greatest := by cases seeding <;> rfl
  rw [hv] at hn
  refine hends.induction_other (isMonotone g) (fun _ => ?_) (fun n hr hexit x hx hright => ?_)
    (by rw [horigin]; exact hn)
  · exact losesFrom_of_end (Direction.backward.region_boundary g seeding) (Or.inl rfl)
  · rw [horigin] at hx hright
    obtain ⟨met, hmet, happly⟩ := hright
    rw [apply_eq hr.lt, Except.ok.injEq] at happly
    obtain ⟨hmeet, hu⟩ := not_or.mp (of_decide_eq_false happly)
    by_cases hkill : n ∈ g.killedNodes
    · exact losesFrom_of_end hr (Or.inr ⟨hkill, hu⟩)
    · -- the meet is false, so some successor has a value that is
      rw [hmet, Equation.met_all rfl] at hmeet
      push Not at hmeet
      obtain ⟨m, b, hm, hxm, hterm⟩ := hmeet hkill
      have hb : b = false := by
        cases b with
        | false => rfl
        | true => exact absurd rfl hterm
      exact losesFrom_of_edge hm hu hexit ((hx m b hxm).2 hb)

end DownSafety

/-- **What down-safety says of paths.** The analysis succeeds, with a fact for every node. The exit
is not down-safe. Unknown are the nodes that a backward run with the seeding leaves out: none in an
eager run, and otherwise those without a path to the exit. Any other node is known not to be
down-safe if a path leads from it, past nodes that do not use the expression and are not the exit,
to a resolved node that is the exit, or that changes an operand and does not use the expression
before. It is known to be down-safe if no path does. -/
theorem analyze_downSafety_eq_false_iff (g : FlowGraph) (seeding : Seeding) :
    ∃ r, DownSafety.analyze g seeding = .ok r ∧ r.vector.size = g.size ∧
      r.vector.get? g.exit = some (.known false) ∧
      (∀ n < g.size, r.vector.get? n = some .unknown ↔ ¬ Direction.backward.Region g seeding n) ∧
      ∀ n, Direction.backward.Region g seeding n → n ≠ g.exit →
        (r.vector.get? n = some (.known false) ↔ g.LosesFrom seeding n) ∧
        (r.vector.get? n = some (.known true) ↔ ¬ g.LosesFrom seeding n) := by
  obtain ⟨r, hr, hsolves⟩ :=
    AnalysisRun.exists_ofEquation (DownSafety.isMonotone g) .downSafety seeding
  refine ⟨r, hr, hsolves.size_eq, hsolves.get?_boundary, fun n hn => hsolves.get?_eq_unknown_iff hn,
    fun n hregion _ => ?_⟩
  have hfalse : r.vector.get? n = some (.known false) ↔ g.LosesFrom seeding n := by
    rw [hsolves.get?_eq_some_iff hregion.lt]
    refine ⟨DownSafety.exists_loses hr, ?_⟩
    rintro ⟨p, k, hp, rfl, hk, hl⟩
    rw [hsolves.factAt_eq hregion, decide_eq_false (DownSafety.not_holds_of_loses hsolves hp hk hl)]
  refine ⟨hfalse, ?_⟩
  rw [← hfalse]
  exact hsolves.get?_eq_not_iff hregion false

/-- A branch with a use in one arm; the other arm changes an operand and comes to a dead end. -/
def besideDeadEnd : FlowGraph :=
  [Declaration.edge 1 2, .edge 1 3, .killed 2, .used 3].foldl FlowGraph.attempt (.bare 3)

/-- The path into the dead end loses the value, but a run from the exit does not know of it. -/
theorem losesFrom_besideDeadEnd :
    besideDeadEnd.LosesFrom .eager 1 ∧ ¬ besideDeadEnd.LosesFrom .reachableOnly 1 := by
  have hrun (seeding : Seeding) {r : AnalysisRun}
      (h : DownSafety.analyze besideDeadEnd seeding = .ok r) : r.vector.get? 1 =
        some (.known (match seeding with | .eager => false | .reachableOnly => true)) := by
    have hvalue : (DownSafety.analyze besideDeadEnd seeding).map (fun r => r.vector.get? 1) =
        .ok (some (.known (match seeding with | .eager => false | .reachableOnly => true))) := by
      cases seeding <;> rfl
    rw [h] at hvalue
    exact Except.ok.inj hvalue
  have hreached : Direction.backward.Reached besideDeadEnd 1 :=
    .head (show besideDeadEnd.Edge 1 3 by decide) (.single (show besideDeadEnd.Edge 3 4 by decide))
  obtain ⟨r, hr, _, _, _, hpath⟩ := analyze_downSafety_eq_false_iff besideDeadEnd .eager
  obtain ⟨r', hr', _, _, _, hpath'⟩ := analyze_downSafety_eq_false_iff besideDeadEnd .reachableOnly
  exact ⟨(hpath 1 (show 1 < besideDeadEnd.size by decide) (by decide)).1.mp (hrun .eager hr),
    (hpath' 1 hreached (by decide)).2.mp (hrun .reachableOnly hr')⟩

end PartialRedundancy
