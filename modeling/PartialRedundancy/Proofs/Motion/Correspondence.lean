import PartialRedundancy.Proofs.Dataflow.Simulation
import PartialRedundancy.Proofs.Motion.Coherence

/-!
# Corresponding graphs

Two graphs correspond along a relation between their nodes if related nodes do the same and are
joined to related nodes. Then all five analyses and the placement say the same of related nodes:
what code motion decides of a node depends on nothing but the part of the graph that values reach.

## Main definitions

* `FlowGraph.Corresponds` — related nodes cannot be told apart.
* `SameAt` — two full runs agree on a node of each.

## Main results

* `FlowGraph.Corresponds.region_iff` — a run resolves both of two related nodes or neither of them.
* `FlowGraph.Corresponds.factAt_eq` — the analyses of systems that are alike give related nodes the
  same facts.
* `Vectors.Computed.factAt_eq` — in particular the five analyses of code motion do.
* `FlowGraph.Corresponds.sameAt` — full runs agree on related nodes.

## Design

Values travel forwards through the predecessors of a node and backwards through its successors. All
successors count, since latestness looks at all of them. Of the predecessors only those count that a
forward run resolves.
-/

namespace PartialRedundancy

variable {g g' : FlowGraph} {seeding seeding' : Seeding} {rel : Nat → Nat → Prop} {n n' : Nat}

/-- Along the relation `rel`, no run with the seeding can tell the nodes of `g` and `g'` apart. -/
structure FlowGraph.Corresponds (g g' : FlowGraph) (seeding : Seeding) (rel : Nat → Nat → Prop) :
    Prop where
  /-- Nodes are related. -/
  lt : ∀ {n n'}, rel n n' → n < g.size ∧ n' < g'.size
  /-- The entry is related to the entry only. -/
  entry_iff : ∀ {n n'}, rel n n' → (n = g.entry ↔ n' = g'.entry)
  /-- The exit is related to the exit only. -/
  exit_iff : ∀ {n n'}, rel n n' → (n = g.exit ↔ n' = g'.exit)
  /-- Related nodes use the expression or both do not. -/
  used_iff : ∀ {n n'}, rel n n' → (n ∈ g.usedNodes ↔ n' ∈ g'.usedNodes)
  /-- Related nodes change an operand or both do not. -/
  killed_iff : ∀ {n n'}, rel n n' → (n ∈ g.killedNodes ↔ n' ∈ g'.killedNodes)
  /-- Every successor has a related successor. -/
  succ_forth : ∀ {n n' m}, rel n n' → g.Edge n m → ∃ m', rel m m' ∧ g'.Edge n' m'
  /-- Every successor is a related successor. -/
  succ_back : ∀ {n n' m'}, rel n n' → g'.Edge n' m' → ∃ m, rel m m' ∧ g.Edge n m
  /-- Every resolved predecessor has a related predecessor. -/
  pred_forth : ∀ {n n' m}, rel n n' → g.Edge m n → Direction.forward.Region g seeding m →
    ∃ m', rel m m' ∧ g'.Edge m' n'
  /-- Every resolved predecessor is a related predecessor. -/
  pred_back : ∀ {n n' m'}, rel n n' → g'.Edge m' n' → Direction.forward.Region g' seeding m' →
    ∃ m, rel m m' ∧ g.Edge m n

namespace FlowGraph.Corresponds

lemma symm (h : g.Corresponds g' seeding rel) : g'.Corresponds g seeding fun n' n => rel n n' where
  lt hrel := (h.lt hrel).symm
  entry_iff hrel := (h.entry_iff hrel).symm
  exit_iff hrel := (h.exit_iff hrel).symm
  used_iff hrel := (h.used_iff hrel).symm
  killed_iff hrel := (h.killed_iff hrel).symm
  succ_forth := h.succ_back
  succ_back := h.succ_forth
  pred_forth := h.pred_back
  pred_back := h.pred_forth

/-! ## Regions -/

lemma boundary_iff (h : g.Corresponds g' seeding rel) (d : Direction) (hrel : rel n n') :
    n = d.boundary g ↔ n' = d.boundary g' := by
  cases d with
  | backward => exact h.exit_iff hrel
  | forward => exact h.entry_iff hrel

/-- Every resolved source of a node has a counterpart. -/
lemma source (h : g.Corresponds g' seeding rel) (d : Direction) {m : Nat} (hrel : rel n n')
    (hm : d.Source g m n) (hr : d.Region g seeding m) : ∃ m', rel m m' ∧ d.Source g' m' n' := by
  cases d with
  | backward => exact h.succ_forth hrel hm
  | forward => exact h.pred_forth hrel hm hr

/-- A node related to one that values reach is reached: the values come the same way. -/
lemma reached (h : g.Corresponds g' .reachableOnly rel) (d : Direction) (hrel : rel n n')
    (hn : d.Reached g n) : d.Reached g' n' := by
  cases d with
  | backward =>
    induction hn using Relation.ReflTransGen.head_induction_on generalizing n' with
    | refl =>
      obtain rfl := (h.exit_iff hrel).mp rfl
      exact Direction.backward.reached_boundary g'
    | head hedge _ ih =>
      obtain ⟨m', hm, hedge'⟩ := h.succ_forth hrel hedge
      exact Relation.ReflTransGen.head hedge' (ih hm)
  | forward =>
    induction hn generalizing n' with
    | refl =>
      obtain rfl := (h.entry_iff hrel).mp rfl
      exact Direction.forward.reached_boundary g'
    | tail hpath hedge ih =>
      obtain ⟨m', hm, hedge'⟩ := h.pred_forth hrel hedge hpath
      exact Relation.ReflTransGen.tail (ih hm) hedge'

/-- A run resolves both of two related nodes or neither of them. -/
lemma region_iff (h : g.Corresponds g' seeding rel) (d : Direction) (hrel : rel n n') :
    d.Region g seeding n ↔ d.Region g' seeding n' := by
  cases seeding with
  | eager => exact iff_of_true (h.lt hrel).1 (h.lt hrel).2
  | reachableOnly => exact ⟨h.reached d hrel, h.symm.reached d hrel⟩

/-! ## Runs -/

lemma dominates (h : g.Corresponds g' seeding rel) {e e' : Equation} (he : e.Alike e' rel) :
    e.Dominates g seeding e' g' seeding rel :=
  he.dominates (fun hrel => (h.region_iff _ hrel).mp) (h.boundary_iff _) (h.source _)

/-- The analyses of systems that are alike give related nodes the same facts. -/
lemma factAt_eq (h : g.Corresponds g' seeding rel) {e e' : Equation} (halike : e.Alike e' rel)
    (ho : e.Aligned) (he : e.IsMonotone g) (he' : e'.IsMonotone g') {analysis : Analysis}
    {v v' : FactVector}
    (hv : ∃ r, AnalysisRun.ofEquation analysis e g seeding = .ok r ∧ r.vector = v)
    (hv' : ∃ r, AnalysisRun.ofEquation analysis e' g' seeding = .ok r ∧ r.vector = v')
    (hrel : rel n n') : factAt v.facts n = factAt v'.facts n' := by
  have ho' : e'.Aligned := by
    rw [Equation.Aligned, halike.extreme_eq, halike.meet_eq]
    exact ho
  obtain ⟨s, hends, rfl⟩ := AnalysisRun.exists_ends he hv
  obtain ⟨s', hends', rfl⟩ := AnalysisRun.exists_ends he' hv'
  exact hends.factAt_eq_of_dominates he (ho.origin_eq seeding) hends' he' (ho'.origin_eq seeding)
    (h.dominates halike) (h.symm.dominates halike.symm) hrel

end FlowGraph.Corresponds

/-! ## The analyses of code motion -/

section Alike

variable (h : g.Corresponds g' seeding rel)
include h

lemma DownSafety.alike : (equation g).Alike (equation g') rel where
  direction_eq := rfl
  extreme_eq := rfl
  meet_eq := rfl
  boundary_eq := rfl
  term_eq _ _ := rfl
  apply_eq hrel met := by
    rw [apply_eq (h.lt hrel).1, apply_eq (h.lt hrel).2]
    simp only [h.used_iff hrel, h.killed_iff hrel]

lemma Earliest.alike {safe safe' : FactVector} (hsize : g.size ≤ safe.size)
    (hsize' : g'.size ≤ safe'.size) (hsafe : ∀ n n', rel n n' → (safe.Holds n ↔ safe'.Holds n')) :
    (equation g safe).Alike (equation g' safe') rel where
  direction_eq := rfl
  extreme_eq := rfl
  meet_eq := rfl
  boundary_eq := rfl
  term_eq hrel v := by
    rw [term_eq hsize (h.lt hrel).1, term_eq hsize' (h.lt hrel).2]
    simp only [hsafe _ _ hrel, h.killed_iff hrel]
  apply_eq _ _ := rfl

lemma Delay.alike {safe safe' earliest earliest' : FactVector} (hsafe_size : g.size ≤ safe.size)
    (hsafe_size' : g'.size ≤ safe'.size) (hearliest_size : g.size ≤ earliest.size)
    (hearliest_size' : g'.size ≤ earliest'.size)
    (hsafe : ∀ n n', rel n n' → (safe.Holds n ↔ safe'.Holds n'))
    (hearliest : ∀ n n', rel n n' → (earliest.Holds n ↔ earliest'.Holds n')) :
    (equation g safe earliest).Alike (equation g' safe' earliest') rel where
  direction_eq := rfl
  extreme_eq := rfl
  meet_eq := rfl
  boundary_eq := rfl
  term_eq hrel v := by
    rw [term_eq (h.lt hrel).1, term_eq (h.lt hrel).2]
    simp only [h.used_iff hrel]
  apply_eq hrel met := by
    rw [apply_eq hsafe_size hearliest_size (h.lt hrel).1,
      apply_eq hsafe_size' hearliest_size' (h.lt hrel).2]
    simp only [hsafe _ _ hrel, hearliest _ _ hrel]

lemma Isolated.alike {latest latest' : FactVector} (hsize : g.size ≤ latest.size)
    (hsize' : g'.size ≤ latest'.size)
    (hlatest : ∀ n n', rel n n' → (latest.Holds n ↔ latest'.Holds n')) :
    (equation g latest).Alike (equation g' latest') rel where
  direction_eq := rfl
  extreme_eq := rfl
  meet_eq := rfl
  boundary_eq := rfl
  term_eq hrel v := by
    rw [term_eq hsize (h.lt hrel).1, term_eq hsize' (h.lt hrel).2]
    simp only [hlatest _ _ hrel, h.used_iff hrel]
  apply_eq _ _ := rfl

end Alike

lemma FactVector.holds_congr {v v' : FactVector} (h : factAt v.facts n = factAt v'.facts n') :
    v.Holds n ↔ v'.Holds n' := by
  rw [holds_iff_factAt, holds_iff_factAt, h]

namespace Vectors.Computed

variable {V V' : Vectors}

section FactAt

variable (hV : V.Computed g seeding) (hV' : V'.Computed g' seeding)
  (h : g.Corresponds g' seeding rel)
include hV hV' h

lemma downSafety_eq (hrel : rel n n') :
    factAt V.downSafety.facts n = factAt V'.downSafety.facts n' :=
  h.factAt_eq (DownSafety.alike h) rfl (DownSafety.isMonotone g) (DownSafety.isMonotone g')
    hV.downSafety hV'.downSafety hrel

lemma earliest_eq (hrel : rel n n') :
    factAt V.earliest.facts n = factAt V'.earliest.facts n' := by
  have hsize := hV.solves_downSafety.size_eq.ge
  have hsize' := hV'.solves_downSafety.size_eq.ge
  have halike := Earliest.alike h hsize hsize' fun m m' hmm' =>
    FactVector.holds_congr (downSafety_eq hV hV' h hmm')
  exact h.factAt_eq halike rfl (Earliest.isMonotone hsize) (Earliest.isMonotone hsize')
    hV.earliest hV'.earliest hrel

lemma delay_eq (hrel : rel n n') : factAt V.delay.facts n = factAt V'.delay.facts n' := by
  have hsafe := hV.solves_downSafety.size_eq.ge
  have hsafe' := hV'.solves_downSafety.size_eq.ge
  have hearliest := hV.solves_earliest.size_eq.ge
  have hearliest' := hV'.solves_earliest.size_eq.ge
  have halike := Delay.alike h hsafe hsafe' hearliest hearliest'
    (fun m m' hmm' => FactVector.holds_congr (downSafety_eq hV hV' h hmm'))
    fun m m' hmm' => FactVector.holds_congr (earliest_eq hV hV' h hmm')
  exact h.factAt_eq halike rfl (Delay.isMonotone hsafe hearliest)
    (Delay.isMonotone hsafe' hearliest') hV.delay hV'.delay hrel

/-- A node that is latest has a related node that is: the edge that the insertion cannot be put off
along has a counterpart. -/
lemma latest_imp (hrel : rel n n') (hn : V.latest.Holds n) : V'.latest.Holds n' := by
  have hdelay {m m' : Nat} (hmm' : rel m m') : V.delay.Holds m ↔ V'.delay.Holds m' :=
    FactVector.holds_congr (delay_eq hV hV' h hmm')
  rw [hV.holds_latest, FlowGraph.isReal_iff (h.lt hrel).1, ne_eq, ne_eq, h.entry_iff hrel,
    h.exit_iff hrel, hdelay hrel, h.used_iff hrel] at hn
  rw [hV'.holds_latest, FlowGraph.isReal_iff (h.lt hrel).2]
  refine hn.imp_right (And.imp_right (Or.imp_right ?_))
  rintro ⟨m, hedge, hm⟩
  obtain ⟨m', hmm', hedge'⟩ := h.succ_forth hrel hedge
  exact ⟨m', hedge', (hdelay hmm').not.mp hm⟩

lemma latest_eq (hrel : rel n n') : factAt V.latest.facts n = factAt V'.latest.facts n' := by
  rw [hV.factAt_latest (h.lt hrel).1, hV'.factAt_latest (h.lt hrel).2, Fact.known.injEq,
    decide_eq_decide]
  exact ⟨latest_imp hV hV' h hrel, latest_imp hV' hV h.symm hrel⟩

lemma isolated_eq (hrel : rel n n') :
    factAt V.isolated.facts n = factAt V'.isolated.facts n' := by
  have hsize := hV.size_latest.ge
  have hsize' := hV'.size_latest.ge
  have halike := Isolated.alike h hsize hsize' fun m m' hmm' =>
    FactVector.holds_congr (latest_eq hV hV' h hmm')
  exact h.factAt_eq halike rfl (Isolated.isMonotone hsize) (Isolated.isMonotone hsize')
    hV.isolated hV'.isolated hrel

/-- All five analyses give related nodes the same facts. -/
lemma factAt_eq (a : Analysis) (hrel : rel n n') :
    factAt (V.vector a).facts n = factAt (V'.vector a).facts n' := by
  cases a with
  | downSafety => exact downSafety_eq hV hV' h hrel
  | earliest => exact earliest_eq hV hV' h hrel
  | delay => exact delay_eq hV hV' h hrel
  | latest => exact latest_eq hV hV' h hrel
  | isolated => exact isolated_eq hV hV' h hrel

end FactAt

end Vectors.Computed

/-! ## Full runs -/

/-- The vectors and the placement of one run say of node `n` what those of another run say of node
`n'`. -/
structure SameAt (V : Vectors) (P : Placement) (n : Nat)
    (V' : Vectors) (P' : Placement) (n' : Nat) : Prop where
  /-- The nodes have the same fact in each vector. -/
  fact_eq : ∀ a, ∃ f, (V.vector a).fact n = .ok f ∧ (V'.vector a).fact n' = .ok f
  /-- Busy code motion inserts at both or at neither. -/
  busy_iff : n ∈ P.busy ↔ n' ∈ P'.busy
  /-- Lazy code motion sets the temporary at both or at neither. -/
  optimal_iff : n ∈ P.optimal ↔ n' ∈ P'.optimal
  /-- Lazy code motion computes in place at both or at neither. -/
  isolated_iff : n ∈ P.isolated ↔ n' ∈ P'.isolated
  /-- The use at both or at neither becomes a read of the temporary. -/
  redundant_iff : n ∈ P.redundant ↔ n' ∈ P'.redundant

/-- The full runs of corresponding graphs agree on related nodes. -/
lemma FlowGraph.Corresponds.sameAt (h : g.Corresponds g' seeding rel) {V V' : Vectors}
    {P P' : Placement} (hV : V.Computed g seeding) (hV' : V'.Computed g' seeding)
    (hP : Placement.classify g V = .ok P) (hP' : Placement.classify g' V' = .ok P')
    (hrel : rel n n') : SameAt V P n V' P' n' := by
  obtain ⟨hlt, hlt'⟩ := h.lt hrel
  have hholds (a : Analysis) : (V.vector a).Holds n ↔ (V'.vector a).Holds n' :=
    FactVector.holds_congr (hV.factAt_eq hV' h a hrel)
  have hsafe : V.downSafety.Holds n ↔ V'.downSafety.Holds n' := hholds .downSafety
  have hearliest : V.earliest.Holds n ↔ V'.earliest.Holds n' := hholds .earliest
  have hlatest : V.latest.Holds n ↔ V'.latest.Holds n' := hholds .latest
  have hisolated : V.isolated.Holds n ↔ V'.isolated.Holds n' := hholds .isolated
  have hreal : g.isReal n = true ↔ g'.isReal n' = true := by
    rw [isReal_iff hlt, isReal_iff hlt', ne_eq, ne_eq, h.entry_iff hrel, h.exit_iff hrel]
  obtain ⟨hbusy, hoptimal, hinplace, hredundant⟩ := Placement.mem_of_classify (n := n) hV hP
  obtain ⟨hbusy', hoptimal', hinplace', hredundant'⟩ := Placement.mem_of_classify (n := n') hV' hP'
  refine ⟨fun a => ⟨factAt (V.vector a).facts n, ?_, ?_⟩, ?_, ?_, ?_, ?_⟩
  · exact fetch_fact (hlt.trans_eq (hV.size_vector a).symm)
  · rw [hV.factAt_eq hV' h a hrel]
    exact fetch_fact (hlt'.trans_eq (hV'.size_vector a).symm)
  · rw [hbusy, hbusy', hreal, hsafe, hearliest]
  · rw [hoptimal, hoptimal', hlatest, hisolated]
  · rw [hinplace, hinplace', hlatest, hisolated]
  · rw [hredundant, hredundant', hreal, h.used_iff hrel, hlatest, hisolated]

end PartialRedundancy
