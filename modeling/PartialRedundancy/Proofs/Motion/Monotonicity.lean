import PartialRedundancy.Graph.Declaration
import PartialRedundancy.Proofs.Dataflow.Simulation
import PartialRedundancy.Proofs.Motion.Equations

/-!
# How the analyses depend on what they read

Each of the four analyses that solve equations is monotone in the uses, the changes of operands and
the edges of the graph, and in the vectors that it reads. The direction differs: a use makes more
nodes down-safe, but fewer of them nodes that an insertion can be put off to; a further edge only
ever makes more nodes earliest.

## Main definitions

* `FlowGraph.EdgesWithin` — all edges of one graph are edges of another one.
* `FactVector.HoldsWithin` — where one vector holds at the nodes of a graph, so does another one.

## Main results

* `Equation.Dominates.of_edgesWithin` — fewer edges and more generous equations.
* `AnalysisRun.exists_of_dominates` — the analysis of more generous equations holds at more nodes.
* `DownSafety.dominates`, `Earliest.dominates`, `Delay.dominates`, `Isolated.dominates` — what makes
  the equations of each analysis more generous.
* `analyze_mono` — the four analyses are monotone in all that they read.

## Design

Two eager runs are compared through `Equation.Dominates`, along equality of nodes. There the system
with fewer edges is the more generous one, in the order of the meet. For the conjunctions of three
of the analyses this means that it holds at more nodes, and for the disjunctions of earliestness
that it holds at fewer.
-/

namespace PartialRedundancy

variable {g g' : FlowGraph} {e e' : Equation}

/-- Every edge of `g` is an edge of `g'`. -/
def FlowGraph.EdgesWithin (g g' : FlowGraph) : Prop := ∀ u v, g.Edge u v → g'.Edge u v

/-- Where the vector `v` holds at a node of the graph, so does `v'`. -/
def FactVector.HoldsWithin (v v' : FactVector) (g : FlowGraph) : Prop :=
  ∀ n < g.size, v.Holds n → v'.Holds n

/-! ## Values that decide propositions -/

namespace Extreme

variable {o : Extreme} {p q : Prop} [Decidable p] [Decidable q] {x y : Except OutOfBounds Bool}

/-- Truth values are ordered as the propositions that they decide. -/
lemma le_decide_iff : o.Le (decide p) (decide q) ↔ match o with
    | .greatest => p → q
    | .least => q → p := by
  cases o <;> simp [Le]

/-- Results that decide propositions are ordered as these. -/
lemma le_of_eq_decide (hx : x = .ok (decide p)) (hy : y = .ok (decide q))
    (h : match o with
      | .greatest => q → p
      | .least => p → q) (a b : Bool) (ha : x = .ok a) (hb : y = .ok b) : o.Le b a := by
  rw [hx, Except.ok.injEq] at ha
  rw [hy, Except.ok.injEq] at hb
  subst ha hb
  exact le_decide_iff.mpr h

/-- A result bounds itself. -/
lemma le_of_ok (a b : Bool) (ha : x = .ok a) (hb : x = .ok b) : o.Le b a := by
  rw [ha, Except.ok.injEq] at hb
  rw [hb]
  exact .refl _ _

end Extreme

/-! ## Eager runs on graphs with the same nodes -/

/-- Of two systems on graphs with the same nodes, one dominates the other if its graph has fewer
edges and its contributions and applications are at least as great. -/
lemma Equation.Dominates.of_edgesWithin (hcount : g'.realCount = g.realCount)
    (hedges : g.EdgesWithin g') (hdirection : e'.direction = e.direction) (hmeet : e'.meet = e.meet)
    (hboundary : e'.boundary = e.boundary)
    (hterm : ∀ m < g.size, ∀ v t t', e.term m v = .ok t → e'.term m v = .ok t' →
      e.meet.extreme.Le t' t)
    (happly : ∀ n < g.size, ∀ met b b', e.apply n met = .ok b → e'.apply n met = .ok b' →
      e.meet.extreme.Le b' b) : e.Dominates g .eager e' g' .eager Eq where
  meet_eq := hmeet
  region := by
    rintro n _ rfl hn
    exact hn.lt.trans_eq (congrArg (· + 2) hcount.symm)
  boundary_iff := by
    rintro n _ rfl
    have hsame : e'.direction.boundary g' = e.direction.boundary g := by
      rw [hdirection]
      cases e.direction with
      | backward => exact congrArg (· + 1) hcount
      | forward => rfl
    rw [hsame]
  boundary_le := by
    rw [hboundary]
    exact .refl _ _
  source := by
    rintro m n _ rfl hm _
    refine ⟨m, rfl, ?_⟩
    rw [hdirection]
    cases hd : e.direction with
    | backward =>
      rw [hd] at hm
      exact hedges n m hm
    | forward =>
      rw [hd] at hm
      exact hedges m n hm
  term_le := by
    rintro m _ rfl hm
    exact hterm m hm.lt
  apply_le := by
    rintro n _ rfl hn
    exact happly n hn.lt

/-- Of two systems on graphs with the same nodes, of which one dominates the other, the eager
analyses succeed. The dominating one ends with the greater values, in the order of the meet.

**Proof sketch.** The facts at the end of the two loops are comparable, and an eager run ends with a
value for every node. -/
lemma AnalysisRun.exists_of_dominates (hcount : g'.realCount = g.realCount) (he : e.IsMonotone g)
    (he' : e'.IsMonotone g') (ho : e.Aligned) (hdom : e.Dominates g .eager e' g' .eager Eq)
    (analysis : Analysis) :
    ∃ r r', ofEquation analysis e g .eager = .ok r ∧ ofEquation analysis e' g' .eager = .ok r' ∧
      match e.extreme with
        | .greatest => r'.vector.HoldsWithin r.vector g
        | .least => r.vector.HoldsWithin r'.vector g := by
  obtain ⟨r, hr, hv⟩ := exists_ofEquation he analysis .eager
  obtain ⟨r', hr', hv'⟩ := exists_ofEquation he' analysis .eager
  have hle (n : Nat) (hn : n < g.size) :
      e.extreme.Le (decide (r'.vector.Holds n)) (decide (r.vector.Holds n)) := by
    obtain ⟨s, hends, hs⟩ := exists_ends he ⟨r, hr, rfl⟩
    obtain ⟨s', hends', hs'⟩ := exists_ends he' ⟨r', hr', rfl⟩
    have hfacts : (factAt r'.vector.facts n).Le e.meet.extreme (factAt r.vector.facts n) := by
      rw [hs, hs']
      exact hends.le_of_dominates he (ho.origin_eq .eager) hends' he'.isTotal hdom rfl
    have hn' : n < g'.size := hn.trans_eq (congrArg (· + 2) hcount.symm)
    rwa [hv.factAt_eq hn, hv'.factAt_eq hn', ← ho] at hfacts
  refine ⟨r, r', hr, hr', ?_⟩
  cases ho' : e.extreme <;> rw [ho'] at hle <;>
    exact fun n hn => Extreme.le_decide_iff.mp (hle n hn)

/-! ## What makes the equations more generous -/

section Dominates

variable (hcount : g'.realCount = g.realCount) (hedges : g.EdgesWithin g')
include hcount hedges

/-- More uses and fewer changes of operands make more nodes down-safe. -/
lemma DownSafety.dominates (hused : g'.usedNodes ⊆ g.usedNodes)
    (hkilled : g.killedNodes ⊆ g'.killedNodes) :
    (equation g).Dominates g .eager (equation g') g' .eager Eq := by
  have hsize : g'.size = g.size := congrArg (· + 2) hcount
  refine .of_edgesWithin hcount hedges rfl rfl rfl (fun m _ v => Extreme.le_of_ok) fun n hn met =>
    Extreme.le_of_eq_decide (apply_eq hn met) (apply_eq (hsize ▸ hn) met) ?_
  rintro (⟨hk, hmet⟩ | hu)
  · exact Or.inl ⟨fun h => hk (hkilled n h), hmet⟩
  · exact Or.inr (hused n hu)

/-- More changes of operands and fewer down-safe nodes make more nodes earliest. -/
lemma Earliest.dominates {safe safe' : FactVector} (h : g.size ≤ safe.size)
    (h' : g'.size ≤ safe'.size) (hkilled : g.killedNodes ⊆ g'.killedNodes)
    (hsafe : safe'.HoldsWithin safe g) :
    (equation g safe).Dominates g .eager (equation g' safe') g' .eager Eq := by
  have hsize : g'.size = g.size := congrArg (· + 2) hcount
  refine .of_edgesWithin hcount hedges rfl rfl rfl (fun m hm v =>
    Extreme.le_of_eq_decide (term_eq h hm v) (term_eq h' (hsize ▸ hm) v) ?_) fun n _ met =>
    Extreme.le_of_ok
  rintro (⟨hs, hv⟩ | hk)
  · exact Or.inl ⟨fun h => hs (hsafe m hm h), hv⟩
  · exact Or.inr (hkilled m hk)

/-- Fewer uses, and more nodes that are down-safe and earliest, make more nodes that an insertion
can be put off to. -/
lemma Delay.dominates {safe safe' earliest earliest' : FactVector} (hs : g.size ≤ safe.size)
    (hs' : g'.size ≤ safe'.size) (he : g.size ≤ earliest.size) (he' : g'.size ≤ earliest'.size)
    (hused : g.usedNodes ⊆ g'.usedNodes) (hsafe : safe'.HoldsWithin safe g)
    (hearliest : earliest'.HoldsWithin earliest g) :
    (equation g safe earliest).Dominates g .eager (equation g' safe' earliest') g' .eager Eq := by
  have hsize : g'.size = g.size := congrArg (· + 2) hcount
  refine .of_edgesWithin hcount hedges rfl rfl rfl (fun m hm v =>
    Extreme.le_of_eq_decide (term_eq hm v) (term_eq (hsize ▸ hm) v) ?_) fun n hn met =>
    Extreme.le_of_eq_decide (apply_eq hs he hn met) (apply_eq hs' he' (hsize ▸ hn) met) ?_
  · rintro ⟨hu, hv⟩
    exact ⟨fun h => hu (hused m h), hv⟩
  · rintro (hmet | ⟨hsafe_n, hearliest_n⟩)
    · exact Or.inl hmet
    · exact Or.inr ⟨hsafe n hn hsafe_n, hearliest n hn hearliest_n⟩

/-- Fewer uses and more latest nodes make more nodes isolated. -/
lemma Isolated.dominates {latest latest' : FactVector} (h : g.size ≤ latest.size)
    (h' : g'.size ≤ latest'.size) (hused : g.usedNodes ⊆ g'.usedNodes)
    (hlatest : latest'.HoldsWithin latest g) :
    (equation g latest).Dominates g .eager (equation g' latest') g' .eager Eq := by
  have hsize : g'.size = g.size := congrArg (· + 2) hcount
  refine .of_edgesWithin hcount hedges rfl rfl rfl (fun m hm v =>
    Extreme.le_of_eq_decide (term_eq h hm v) (term_eq h' (hsize ▸ hm) v) ?_) fun n _ met =>
    Extreme.le_of_ok
  rintro (hl | ⟨hu, hv⟩)
  · exact Or.inl (hlatest m hm hl)
  · exact Or.inr ⟨fun h => hu (hused m h), hv⟩

end Dominates

/-! ## The four analyses -/

/-- **The analyses are monotone in all that they read.** Take two graphs with as many nodes, where
`g` has no edges but those of `g'`, and eager runs on both. If `g` has the uses of `g'` and no
changes of operands but those of `g'`, then more nodes of `g` are down-safe. If `g` has no changes
of operands but those of `g'` and more nodes that count as down-safe, then fewer nodes of `g` are
earliest. If `g` has no uses but those of `g'` and more nodes that count as down-safe and as
earliest, then an insertion can be put off to more nodes of `g`. If `g` has no uses but those of
`g'` and more nodes that count as latest, then more nodes of `g` are isolated. All vectors that are
read are arbitrary vectors with a fact for every node, and all runs succeed. -/
theorem analyze_mono (g g' : FlowGraph) (hcount : g'.realCount = g.realCount)
    (hedges : g.EdgesWithin g') :
    (g'.usedNodes ⊆ g.usedNodes → g.killedNodes ⊆ g'.killedNodes →
      ∃ r r', DownSafety.analyze g .eager = .ok r ∧ DownSafety.analyze g' .eager = .ok r' ∧
        r'.vector.HoldsWithin r.vector g) ∧
    (∀ safe safe' : FactVector, g.size ≤ safe.size → g.size ≤ safe'.size →
      g.killedNodes ⊆ g'.killedNodes → safe'.HoldsWithin safe g →
      ∃ r r', Earliest.analyze g safe .eager = .ok r ∧ Earliest.analyze g' safe' .eager = .ok r' ∧
        r.vector.HoldsWithin r'.vector g) ∧
    (∀ safe safe' earliest earliest' : FactVector, g.size ≤ safe.size → g.size ≤ safe'.size →
      g.size ≤ earliest.size → g.size ≤ earliest'.size → g.usedNodes ⊆ g'.usedNodes →
      safe'.HoldsWithin safe g → earliest'.HoldsWithin earliest g →
      ∃ r r', Delay.analyze g safe earliest .eager = .ok r ∧
        Delay.analyze g' safe' earliest' .eager = .ok r' ∧ r'.vector.HoldsWithin r.vector g) ∧
    ∀ latest latest' : FactVector, g.size ≤ latest.size → g.size ≤ latest'.size →
      g.usedNodes ⊆ g'.usedNodes → latest'.HoldsWithin latest g →
      ∃ r r', Isolated.analyze g latest .eager = .ok r ∧
        Isolated.analyze g' latest' .eager = .ok r' ∧ r'.vector.HoldsWithin r.vector g := by
  have hsize : g'.size = g.size := congrArg (· + 2) hcount
  refine ⟨fun hused hkilled => ?_, fun safe safe' h h' hkilled hsafe => ?_,
    fun safe safe' earliest earliest' hs hs' he he' hused hsafe hearliest => ?_,
    fun latest latest' h h' hused hlatest => ?_⟩
  · exact AnalysisRun.exists_of_dominates hcount (DownSafety.isMonotone g)
      (DownSafety.isMonotone g') rfl (DownSafety.dominates hcount hedges hused hkilled) .downSafety
  · rw [← hsize] at h'
    exact AnalysisRun.exists_of_dominates hcount (Earliest.isMonotone h) (Earliest.isMonotone h')
      rfl (Earliest.dominates hcount hedges h h' hkilled hsafe) .earliest
  · rw [← hsize] at hs' he'
    exact AnalysisRun.exists_of_dominates hcount (Delay.isMonotone hs he)
      (Delay.isMonotone hs' he') rfl
      (Delay.dominates hcount hedges hs hs' he he' hused hsafe hearliest) .delay
  · rw [← hsize] at h'
    exact AnalysisRun.exists_of_dominates hcount (Isolated.isMonotone h) (Isolated.isMonotone h')
      rfl (Isolated.dominates hcount hedges h h' hused hlatest) .isolated

/-- Three nodes in a row, of which the last one uses the expression. -/
def threeInARow : FlowGraph :=
  [Declaration.edge 1 2, .edge 2 3, .used 3].foldl FlowGraph.attempt (.bare 3)

/-- The same with a way around the first two nodes, a loop at the last one and the change of an
operand before it. -/
def threeWithLoop : FlowGraph :=
  [Declaration.edge 0 3, .edge 3 3, .killed 2].foldl FlowGraph.attempt threeInARow

/-- The same value at all five nodes. -/
def constantVector (b : Bool) : FactVector := ⟨.latest, Array.replicate 5 (.known b)⟩

/-- Each analysis tells the two graphs apart, in the direction in which it is monotone. -/
theorem analyze_mono_threeInARow :
    (∃ r r', DownSafety.analyze threeInARow .eager = .ok r ∧
      DownSafety.analyze threeWithLoop .eager = .ok r' ∧
      r'.vector.HoldsWithin r.vector threeInARow ∧
      r.vector.get? 1 = some (.known true) ∧ r'.vector.get? 1 = some (.known false)) ∧
    (∃ r r', Earliest.analyze threeInARow (constantVector true) .eager = .ok r ∧
      Earliest.analyze threeWithLoop (constantVector false) .eager = .ok r' ∧
      r.vector.HoldsWithin r'.vector threeInARow ∧
      r.vector.get? 3 = some (.known false) ∧ r'.vector.get? 3 = some (.known true)) ∧
    (∃ r r', Delay.analyze threeInARow (constantVector true) (constantVector true) .eager = .ok r ∧
      Delay.analyze threeWithLoop (constantVector false) (constantVector true) .eager = .ok r' ∧
      r'.vector.HoldsWithin r.vector threeInARow ∧
      r.vector.get? 3 = some (.known true) ∧ r'.vector.get? 3 = some (.known false)) ∧
    ∃ r r', Isolated.analyze threeInARow (constantVector false) .eager = .ok r ∧
      Isolated.analyze threeWithLoop (constantVector false) .eager = .ok r' ∧
      r'.vector.HoldsWithin r.vector threeInARow ∧
      r.vector.get? 3 = some (.known true) ∧ r'.vector.get? 3 = some (.known false) := by
  have hedges : threeInARow.EdgesWithin threeWithLoop := by
    have hall : ∀ u < 5, ∀ v < 5, threeInARow.Edge u v → threeWithLoop.Edge u v := by decide
    exact fun u v h => hall u (FlowGraph.lt_of_edge h).1 v (FlowGraph.lt_of_edge h).2 h
  have hfalse (b : Bool) : (constantVector false).HoldsWithin (constantVector b) threeInARow := by
    cases b <;> unfold FactVector.HoldsWithin <;> decide
  have htrue : (constantVector true).HoldsWithin (constantVector true) threeInARow :=
    fun _ _ => id
  have hsize (b : Bool) : threeInARow.size ≤ (constantVector b).size := by cases b <;> decide
  obtain ⟨hdown, hearliest, hdelay, hisolated⟩ :=
    analyze_mono threeInARow threeWithLoop rfl hedges
  refine ⟨?_, ?_, ?_, ?_⟩
  · obtain ⟨r, r', hr, hr', hle⟩ := hdown (by decide) (by decide)
    exact ⟨r, r', hr, hr', hle, AnalysisRun.get?_of_map hr rfl, AnalysisRun.get?_of_map hr' rfl⟩
  · obtain ⟨r, r', hr, hr', hle⟩ :=
      hearliest _ _ (hsize true) (hsize false) (by decide) (hfalse true)
    exact ⟨r, r', hr, hr', hle, AnalysisRun.get?_of_map hr rfl, AnalysisRun.get?_of_map hr' rfl⟩
  · obtain ⟨r, r', hr, hr', hle⟩ := hdelay _ _ _ _ (hsize true) (hsize false) (hsize true)
      (hsize true) (by decide) (hfalse true) htrue
    exact ⟨r, r', hr, hr', hle, AnalysisRun.get?_of_map hr rfl, AnalysisRun.get?_of_map hr' rfl⟩
  · obtain ⟨r, r', hr, hr', hle⟩ :=
      hisolated _ _ (hsize false) (hsize false) (by decide) (hfalse false)
    exact ⟨r, r', hr, hr', hle, AnalysisRun.get?_of_map hr rfl, AnalysisRun.get?_of_map hr' rfl⟩

end PartialRedundancy
