import PartialRedundancy.Proofs.Dataflow.Spread
import PartialRedundancy.Proofs.Motion.Paths

/-!
# Earliestness, delayability and isolation in terms of paths

In the equations of these three analyses one source is enough to give a node the value that the run
does not start from. So each vector tells where certain paths lead, whatever vectors of earlier
analyses it reads.

## Main definitions

* `FlowGraph.BlockedAt` — a path on which an insertion cannot move up leads to a node.
* `FlowGraph.SpentAt` — a path on which there is nothing to be put off leads to a node.
* `FlowGraph.ReadFrom` — a path on which a value is read at the end leads from a node.

## Main results

* `Earliest.spreadsBy`, `Delay.spreadsBy`, `Isolated.spreadsBy` — how truth spreads in the equations
  of earliestness, and falsehood in the other two.
* `analyze_earliest_eq_true_iff`, `analyze_delay_eq_false_iff`, `analyze_isolated_eq_false_iff` —
  the whole vectors.
-/

namespace PartialRedundancy

variable {g : FlowGraph} {seeding : Seeding} {n : Nat}

/-- The analysis of a monotone system in which a value spreads succeeds. The boundary has its value,
nothing is known of the nodes that are not resolved, and of the others those have the value to which
it spreads. -/
lemma AnalysisRun.exists_of_spreadsBy {e : Equation} (he : e.IsMonotone g) (analysis : Analysis)
    {b : Bool} (ho : (!(e.origin seeding).start) = b) {σ : Spread} (hσ : e.SpreadsBy g b σ)
    {P : Nat → Prop} (hP : ∀ n, P n ↔
      e.direction.Chain g seeding (σ.pin (e.direction.boundary g) (e.boundary = b)) n) :
    ∃ r, ofEquation analysis e g seeding = .ok r ∧ r.vector.size = g.size ∧
      r.vector.get? (e.direction.boundary g) = some (.known e.boundary) ∧
      (∀ n < g.size, r.vector.get? n = some .unknown ↔ ¬ e.direction.Region g seeding n) ∧
      ∀ n, e.direction.Region g seeding n → n ≠ e.direction.boundary g →
        (r.vector.get? n = some (.known b) ↔ P n) ∧
        (r.vector.get? n = some (.known !b) ↔ ¬ P n) := by
  obtain ⟨r, hr, hsolves⟩ := exists_ofEquation he analysis seeding
  obtain ⟨s, hends, hvector⟩ := exists_ends he ⟨r, hr, rfl⟩
  refine ⟨r, hr, hsolves.size_eq, hsolves.get?_boundary, fun n hn => hsolves.get?_eq_unknown_iff hn,
    fun n hregion hb => ?_⟩
  have hvalue : r.vector.get? n = some (.known b) ↔ P n := by
    rw [hsolves.get?_eq_some_iff hregion.lt, hvector, hends.factAt_eq_iff_chain he ho hσ hb, hP]
  refine ⟨hvalue, ?_⟩
  rw [← hvalue]
  exact hsolves.get?_eq_not_iff hregion b

/-! ## Earliestness -/

/-- An insertion at the end of the path cannot move up past the start of the path, and it would not
be down-safe on the way: the start changes an operand, or it is the entry and not down-safe, and no
node between the start and the end is down-safe. -/
def FlowGraph.Blocks (g : FlowGraph) (safe : FactVector) (p : Nat → Nat) (k : Nat) : Prop :=
  (p 0 ∈ g.killedNodes ∨ (p 0 = g.entry ∧ ¬ safe.Holds (p 0))) ∧
    ∀ i, 0 < i → i < k → ¬ safe.Holds (p i)

/-- A path of this kind leads to node `n`, from a node that a forward run resolves. -/
def FlowGraph.BlockedAt (g : FlowGraph) (seeding : Seeding) (safe : FactVector) (n : Nat) : Prop :=
  ∃ (p : Nat → Nat) (k : Nat), 0 < k ∧ g.Path p k ∧ p k = n ∧
    Direction.forward.Region g seeding (p 0) ∧ g.Blocks safe p k

namespace Earliest

variable {safe : FactVector}

/-- How truth spreads in the equations of earliestness. -/
def spread (g : FlowGraph) (safe : FactVector) : Spread where
  gives m := m ∈ g.killedNodes
  passes m := ¬ safe.Holds m
  takes _ := True

/-- A node is earliest for the sake of a single predecessor. -/
lemma spreadsBy (hsize : g.size ≤ safe.size) :
    (equation g safe).SpreadsBy g true (spread g safe) := by
  refine Equation.spreadsBy_of_any rfl (fun m hm v => ?_) fun n _ met => ?_
  · rw [term_eq hsize hm, Except.ok.injEq, decide_eq_true_iff, or_comm]
    rfl
  · simp [equation, spread, pure, Except.pure]

/-- Truth spreads to the nodes to which a path leads on which an insertion cannot move up. -/
lemma blockedAt_iff : g.BlockedAt seeding safe n ↔
    Direction.forward.Chain g seeding ((spread g safe).pin g.entry (true = true)) n := by
  rw [Direction.chain_forward_iff]
  simp [FlowGraph.BlockedAt, FlowGraph.Blocks, Spread.pin, spread]

end Earliest

/-- **What earliestness says of paths.** If the vector of down-safety has a fact for every node, the
analysis succeeds, with a fact for every node. The entry is earliest. Unknown are the nodes that a
forward run with the seeding leaves out: none in an eager run, and otherwise those to which no path
leads from the entry. Any other node is known to be earliest if a path of at least one edge leads to
it from a resolved node that changes an operand, or from the entry if this is not down-safe, and no
node between its ends is down-safe. It is known not to be earliest if no path does. -/
theorem analyze_earliest_eq_true_iff (g : FlowGraph) (seeding : Seeding) (safe : FactVector)
    (hsize : g.size ≤ safe.size) :
    ∃ r, Earliest.analyze g safe seeding = .ok r ∧ r.vector.size = g.size ∧
      r.vector.get? g.entry = some (.known true) ∧
      (∀ n < g.size, r.vector.get? n = some .unknown ↔ ¬ Direction.forward.Region g seeding n) ∧
      ∀ n, Direction.forward.Region g seeding n → n ≠ g.entry →
        (r.vector.get? n = some (.known true) ↔ g.BlockedAt seeding safe n) ∧
        (r.vector.get? n = some (.known false) ↔ ¬ g.BlockedAt seeding safe n) :=
  AnalysisRun.exists_of_spreadsBy (Earliest.isMonotone hsize) .earliest (by cases seeding <;> rfl)
    (Earliest.spreadsBy hsize) fun _ => Earliest.blockedAt_iff

/-- Nodes 1 and 2 lead to node 3. Node 2 uses the expression and changes an operand, and no path
leads to it. -/
def besideUnreached : FlowGraph :=
  [Declaration.edge 1 3, .edge 2 3, .used 2, .killed 2].foldl FlowGraph.attempt (.bare 3)

/-- The entry and the first node, as the facts of an analysis. -/
def firstTwo (analysis : Analysis) : FactVector :=
  ⟨analysis, #[.known true, .known true, .known false, .known false, .known false]⟩

/-- The node that is not reached makes node 3 earliest, but a run from the entry does not know of
it. -/
theorem blockedAt_besideUnreached : besideUnreached.BlockedAt .eager (firstTwo .downSafety) 3 ∧
    ¬ besideUnreached.BlockedAt .reachableOnly (firstTwo .downSafety) 3 := by
  have hreached : Direction.forward.Reached besideUnreached 3 :=
    .tail (.single (show besideUnreached.Edge 0 1 by decide))
      (show besideUnreached.Edge 1 3 by decide)
  obtain ⟨r, hr, _, _, _, hpath⟩ := analyze_earliest_eq_true_iff besideUnreached .eager
    (firstTwo .downSafety) (by decide)
  obtain ⟨r', hr', _, _, _, hpath'⟩ := analyze_earliest_eq_true_iff besideUnreached .reachableOnly
    (firstTwo .downSafety) (by decide)
  have hregion : 3 < besideUnreached.size := by decide
  exact ⟨(hpath 3 hregion (by decide)).1.mp (AnalysisRun.get?_of_map hr rfl),
    (hpath' 3 hreached (by decide)).2.mp (AnalysisRun.get?_of_map hr' rfl)⟩

/-! ## Delayability -/

/-- There is nothing that could be put off to the end of the path: it starts at the entry or at a
use, and no later node is one at which busy code motion inserts. -/
def FlowGraph.Spends (g : FlowGraph) (safe earliest : FactVector) (p : Nat → Nat) (k : Nat) :
    Prop :=
  (p 0 = g.entry ∨ p 0 ∈ g.usedNodes) ∧
    ∀ i, 0 < i → i ≤ k → ¬ (safe.Holds (p i) ∧ earliest.Holds (p i))

/-- A path of this kind leads to node `n`, from a node that a forward run resolves. -/
def FlowGraph.SpentAt (g : FlowGraph) (seeding : Seeding) (safe earliest : FactVector) (n : Nat) :
    Prop :=
  ∃ (p : Nat → Nat) (k : Nat), 0 < k ∧ g.Path p k ∧ p k = n ∧
    Direction.forward.Region g seeding (p 0) ∧ g.Spends safe earliest p k

namespace Delay

variable {safe earliest : FactVector}

/-- How falsehood spreads in the equations of delayability. -/
def spread (g : FlowGraph) (safe earliest : FactVector) : Spread where
  gives m := m ∈ g.usedNodes
  passes _ := True
  takes n := ¬ (safe.Holds n ∧ earliest.Holds n)

/-- An insertion cannot be put off to a node for the sake of a single predecessor. -/
lemma spreadsBy (hsafe : g.size ≤ safe.size) (hearliest : g.size ≤ earliest.size) :
    (equation g safe earliest).SpreadsBy g false (spread g safe earliest) := by
  refine Equation.spreadsBy_of_all rfl (fun m hm v => ?_) fun n hn met => ?_
  · rw [term_eq hm, Except.ok.injEq, decide_eq_true_iff]
    cases v <;> simp [spread]
  · rw [apply_eq hsafe hearliest hn, Except.ok.injEq, decide_eq_false_iff_not, not_or, and_comm,
      Bool.not_eq_true]
    rfl

/-- Falsehood spreads to the nodes to which a path leads on which there is nothing to be put off. -/
lemma spentAt_iff : g.SpentAt seeding safe earliest n ↔
    Direction.forward.Chain g seeding ((spread g safe earliest).pin g.entry (false = false)) n := by
  rw [Direction.chain_forward_iff]
  simp [FlowGraph.SpentAt, FlowGraph.Spends, Spread.pin, spread, or_comm]

end Delay

/-- **What delayability says of paths.** If the vectors of down-safety and earliestness have a fact
for every node, the analysis succeeds, with a fact for every node. No insertion can be put off to
the entry. Unknown are the nodes that a forward run with the seeding leaves out: none in an eager
run, and otherwise those to which no path leads from the entry. For any other node it is known that
no insertion can be put off to it if a path of at least one edge leads to it from the entry, or from
a resolved node that uses the expression, on which no node behind the first is down-safe and
earliest. It is known that one can be put off to it if no path does. -/
theorem analyze_delay_eq_false_iff (g : FlowGraph) (seeding : Seeding) (safe earliest : FactVector)
    (hsafe : g.size ≤ safe.size) (hearliest : g.size ≤ earliest.size) :
    ∃ r, Delay.analyze g safe earliest seeding = .ok r ∧ r.vector.size = g.size ∧
      r.vector.get? g.entry = some (.known false) ∧
      (∀ n < g.size, r.vector.get? n = some .unknown ↔ ¬ Direction.forward.Region g seeding n) ∧
      ∀ n, Direction.forward.Region g seeding n → n ≠ g.entry →
        (r.vector.get? n = some (.known false) ↔ g.SpentAt seeding safe earliest n) ∧
        (r.vector.get? n = some (.known true) ↔ ¬ g.SpentAt seeding safe earliest n) :=
  AnalysisRun.exists_of_spreadsBy (Delay.isMonotone hsafe hearliest) .delay
    (by cases seeding <;> rfl) (Delay.spreadsBy hsafe hearliest) fun _ => Delay.spentAt_iff

/-- The insertion at the first node can be put off to node 3, unless the use at the node that is not
reached counts. -/
theorem spentAt_besideUnreached :
    besideUnreached.SpentAt .eager (firstTwo .downSafety) (firstTwo .earliest) 3 ∧
      ¬ besideUnreached.SpentAt .reachableOnly (firstTwo .downSafety) (firstTwo .earliest) 3 := by
  have hreached : Direction.forward.Reached besideUnreached 3 :=
    .tail (.single (show besideUnreached.Edge 0 1 by decide))
      (show besideUnreached.Edge 1 3 by decide)
  obtain ⟨r, hr, _, _, _, hpath⟩ := analyze_delay_eq_false_iff besideUnreached .eager
    (firstTwo .downSafety) (firstTwo .earliest) (by decide) (by decide)
  obtain ⟨r', hr', _, _, _, hpath'⟩ := analyze_delay_eq_false_iff besideUnreached .reachableOnly
    (firstTwo .downSafety) (firstTwo .earliest) (by decide) (by decide)
  have hregion : 3 < besideUnreached.size := by decide
  exact ⟨(hpath 3 hregion (by decide)).1.mp (AnalysisRun.get?_of_map hr rfl),
    (hpath' 3 hreached (by decide)).2.mp (AnalysisRun.get?_of_map hr' rfl)⟩

/-! ## Isolation -/

/-- A value computed at the start of the path is read at its end: the end uses the expression, no
node behind the start is latest, and the path does not pass the exit on the way. -/
def FlowGraph.Reads (g : FlowGraph) (latest : FactVector) (p : Nat → Nat) (k : Nat) : Prop :=
  p k ∈ g.usedNodes ∧ (∀ i, 0 < i → i ≤ k → ¬ latest.Holds (p i)) ∧
    ∀ i, 0 < i → i < k → p i ≠ g.exit

/-- A path of this kind leads from node `n`, to a node that a backward run resolves. -/
def FlowGraph.ReadFrom (g : FlowGraph) (seeding : Seeding) (latest : FactVector) (n : Nat) : Prop :=
  ∃ (p : Nat → Nat) (k : Nat), 0 < k ∧ g.Path p k ∧ p 0 = n ∧
    Direction.backward.Region g seeding (p k) ∧ g.Reads latest p k

namespace Isolated

variable {latest : FactVector}

/-- How falsehood spreads in the equations of isolation. -/
def spread (g : FlowGraph) (latest : FactVector) : Spread where
  gives m := m ∈ g.usedNodes ∧ ¬ latest.Holds m
  passes m := ¬ latest.Holds m
  takes _ := True

/-- A node is not isolated for the sake of a single successor. -/
lemma spreadsBy (hsize : g.size ≤ latest.size) :
    (equation g latest).SpreadsBy g false (spread g latest) := by
  refine Equation.spreadsBy_of_all rfl (fun m hm v => ?_) fun n _ met => ?_
  · rw [term_eq hsize hm, Except.ok.injEq, decide_eq_true_iff]
    cases v with
    | true => simp [spread, and_comm]
    | false => simp [spread]
  · simp [equation, spread, pure, Except.pure]

/-- Falsehood spreads to the nodes from which a path leads to a read. -/
lemma readFrom_iff : g.ReadFrom seeding latest n ↔
    Direction.backward.Chain g seeding ((spread g latest).pin g.exit (true = false)) n := by
  rw [Direction.chain_backward_iff]
  refine exists_congr fun p => exists_congr fun k => and_congr_right fun hk =>
    and_congr_right fun _ => and_congr_right fun _ => and_congr_right fun _ => ?_
  simp only [FlowGraph.Reads, Spread.pin, spread]
  constructor
  · rintro ⟨hu, hlatest, hexit⟩
    refine ⟨Or.inl ⟨hu, hlatest k hk le_rfl⟩, fun i hi hi' => ⟨hlatest i hi hi'.le, ?_⟩, ?_⟩
    · exact fun h => absurd h (hexit i hi hi')
    · exact fun _ _ => trivial
  · rintro ⟨hu | ⟨_, hfalse, _⟩, hway, _⟩
    · refine ⟨hu.1, fun i hi hi' => ?_, fun i hi hi' h => ?_⟩
      · rcases hi'.lt_or_eq with hi' | rfl
        · exact (hway i hi hi').1
        · exact hu.2
      · exact Bool.false_ne_true ((hway i hi hi').2 h).symm
    · exact absurd hfalse.symm Bool.false_ne_true

end Isolated

/-- **What isolation says of paths.** If the vector of latestness has a fact for every node, the
analysis succeeds, with a fact for every node. The exit is isolated. Unknown are the nodes that a
backward run with the seeding leaves out: none in an eager run, and otherwise those without a path
to the exit. Any other node is known not to be isolated if a path of at least one edge leads from it
to a resolved node that uses the expression, on which no node behind the first is latest and the
exit does not come between the ends. It is known to be isolated if no path does. -/
theorem analyze_isolated_eq_false_iff (g : FlowGraph) (seeding : Seeding) (latest : FactVector)
    (hsize : g.size ≤ latest.size) :
    ∃ r, Isolated.analyze g latest seeding = .ok r ∧ r.vector.size = g.size ∧
      r.vector.get? g.exit = some (.known true) ∧
      (∀ n < g.size, r.vector.get? n = some .unknown ↔ ¬ Direction.backward.Region g seeding n) ∧
      ∀ n, Direction.backward.Region g seeding n → n ≠ g.exit →
        (r.vector.get? n = some (.known false) ↔ g.ReadFrom seeding latest n) ∧
        (r.vector.get? n = some (.known true) ↔ ¬ g.ReadFrom seeding latest n) :=
  AnalysisRun.exists_of_spreadsBy (Isolated.isMonotone hsize) .isolated (by cases seeding <;> rfl)
    (Isolated.spreadsBy hsize) fun _ => Isolated.readFrom_iff

/-- A branch that leads to the exit in one arm, and to a use in a dead end in the other. -/
def useInDeadEnd : FlowGraph :=
  [Declaration.edge 1 2, .edge 1 3, .used 2].foldl FlowGraph.attempt (.bare 3)

/-- No node is latest. -/
def noneLatest : FactVector := ⟨.latest, Array.replicate 5 (.known false)⟩

/-- The use in the dead end reads the value, but a run from the exit does not know of it. -/
theorem readFrom_useInDeadEnd : useInDeadEnd.ReadFrom .eager noneLatest 1 ∧
    ¬ useInDeadEnd.ReadFrom .reachableOnly noneLatest 1 := by
  have hreached : Direction.backward.Reached useInDeadEnd 1 :=
    .head (show useInDeadEnd.Edge 1 3 by decide) (.single (show useInDeadEnd.Edge 3 4 by decide))
  obtain ⟨r, hr, _, _, _, hpath⟩ := analyze_isolated_eq_false_iff useInDeadEnd .eager noneLatest
    (by decide)
  obtain ⟨r', hr', _, _, _, hpath'⟩ := analyze_isolated_eq_false_iff useInDeadEnd .reachableOnly
    noneLatest (by decide)
  have hregion : 1 < useInDeadEnd.size := by decide
  exact ⟨(hpath 1 hregion (by decide)).1.mp (AnalysisRun.get?_of_map hr rfl),
    (hpath' 1 hreached (by decide)).2.mp (AnalysisRun.get?_of_map hr' rfl)⟩

end PartialRedundancy
