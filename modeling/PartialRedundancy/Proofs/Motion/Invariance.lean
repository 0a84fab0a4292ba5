import Mathlib.Data.Set.Function
import PartialRedundancy.Proofs.Motion.Correspondence

/-!
# What code motion does not depend on

Code motion is decided by the paths of the graph alone. With values that only come from the
boundary, code that control never reaches has no influence on the other code. On a graph without
such code and without dead ends both seedings come to the same result. And the numbers of the nodes
play no part, although every worklist is filled in their order.

## Main definitions

* `FlowGraph.Renumbers` — two graphs differ by the numbers of their nodes only.
* `Placement.image` — a placement under other numbers.

## Main results

* `codeMotion_of_same_live` — the result at reachable nodes is determined by the reachable part.
* `codeMotion_eager_eq_reachableOnly` — both seedings give the same result.
* `codeMotion_renumbered` — renumbering the nodes renumbers the result.
-/

namespace PartialRedundancy

variable {g g' : FlowGraph} {seeding seeding' : Seeding} {V V' : Vectors} {P : Placement}
  {n m : Nat}

/-! ## The nodes of a placement -/

/-- A placement holds nodes of its graph only. -/
lemma Placement.lt_of_classify (hV : V.Computed g seeding) (hP : classify g V = .ok P) :
    (∀ n ∈ P.busy, n < g.size) ∧ (∀ n ∈ P.optimal, n < g.size) ∧
      (∀ n ∈ P.isolated, n < g.size) ∧ ∀ n ∈ P.redundant, n < g.size := by
  have hreal {n : Nat} (hn : g.isReal n = true) : n < g.size :=
    FlowGraph.lt_of_mem_realNodes (FlowGraph.mem_realNodes.mpr hn)
  have hlatest {n : Nat} (hn : V.latest.Holds n) : n < g.size := hreal (hV.holds_latest.mp hn).1
  have hmem := fun n => mem_of_classify (n := n) hV hP
  exact ⟨fun n hn => hreal ((hmem n).1.mp hn).1, fun n hn => hlatest ((hmem n).2.1.mp hn).1,
    fun n hn => hlatest ((hmem n).2.2.1.mp hn).1, fun n hn => hreal ((hmem n).2.2.2.mp hn).1⟩

/-- Insertions are at nodes that a forward run resolves. -/
lemma Placement.region_of_mem (hV : V.Computed g seeding) (hP : classify g V = .ok P)
    (hn : n ∈ P.busy ∨ n ∈ P.optimal ∨ n ∈ P.isolated) :
    Direction.forward.Region g seeding n := by
  obtain ⟨hbusy, hoptimal, hisolated, _⟩ := mem_of_classify (n := n) hV hP
  rw [hbusy, hoptimal, hisolated] at hn
  have hdelay (hl : V.latest.Holds n) : Direction.forward.Region g seeding n :=
    hV.solves_delay.region_of_holds (hV.holds_latest.mp hl).2.1
  -- earliestness and delayability are forward analyses, and they hold where they are resolved
  rcases hn with ⟨_, _, hearliest⟩ | ⟨hl, _⟩ | ⟨hl, _⟩
  · exact hV.solves_earliest.region_of_holds hearliest
  · exact hdelay hl
  · exact hdelay hl

/-! ## Dead code -/

/-- The successors of a node give its edges. -/
lemma FlowGraph.edge_iff_of_succ_eq (hn : n < g.size) (h : g'.succ n = g.succ n) :
    g'.Edge n m ↔ g.Edge n m := by
  obtain ⟨s, hs⟩ := Direction.backward.exists_sources hn
  obtain ⟨_, hmem⟩ := succ_eq_ok_iff.mp hs
  obtain ⟨_, hmem'⟩ := succ_eq_ok_iff.mp (h.trans hs)
  rw [← hmem, ← hmem']

section SameLive

variable (hcount : g'.realCount = g.realCount)
  (hsame : ∀ x, Direction.forward.Reached g x →
    g'.succ x = g.succ x ∧ g'.isUsed x = g.isUsed x ∧ g'.isKilled x = g.isKilled x)

include hsame in
lemma FlowGraph.edge_iff_of_same_live (hn : Direction.forward.Reached g n) :
    g'.Edge n m ↔ g.Edge n m :=
  edge_iff_of_succ_eq hn.lt (hsame n hn).1

include hsame in
lemma Direction.reached_iff_of_same_live :
    Direction.forward.Reached g' n ↔ Direction.forward.Reached g n := by
  constructor
  · intro hn
    induction hn with
    | refl => exact Direction.forward.reached_boundary g
    | tail _ hedge ih =>
      exact Relation.ReflTransGen.tail ih ((FlowGraph.edge_iff_of_same_live hsame ih).mp hedge)
  · intro hn
    induction hn with
    | refl => exact Direction.forward.reached_boundary g'
    | tail hpath hedge ih =>
      exact Relation.ReflTransGen.tail ih
        ((FlowGraph.edge_iff_of_same_live hsame hpath).mpr hedge)

include hcount hsame in
/-- The graphs correspond along the identity on the reachable nodes. -/
lemma FlowGraph.corresponds_of_same_live :
    g.Corresponds g' .reachableOnly fun n n' => Direction.forward.Reached g n ∧ n = n' := by
  have hsize : g'.size = g.size := congrArg (· + 2) hcount
  exact {
    lt := by
      rintro n _ ⟨hn, rfl⟩
      exact ⟨hn.lt, hsize ▸ hn.lt⟩
    entry_iff := by
      rintro n _ ⟨-, rfl⟩
      rfl
    exit_iff := by
      rintro n _ ⟨-, rfl⟩
      rw [exit, exit, hcount]
    used_iff := by
      rintro n _ ⟨hn, rfl⟩
      exact (isUsed_eq_iff hn.lt (hsize ▸ hn.lt)).mp (hsame n hn).2.1.symm
    killed_iff := by
      rintro n _ ⟨hn, rfl⟩
      exact (isKilled_eq_iff hn.lt (hsize ▸ hn.lt)).mp (hsame n hn).2.2.symm
    succ_forth := by
      rintro n _ m ⟨hn, rfl⟩ hedge
      exact ⟨m, ⟨hn.reader hedge, rfl⟩, (edge_iff_of_same_live hsame hn).mpr hedge⟩
    succ_back := by
      rintro n _ m ⟨hn, rfl⟩ hedge
      have hedge := (edge_iff_of_same_live hsame hn).mp hedge
      exact ⟨m, ⟨hn.reader hedge, rfl⟩, hedge⟩
    pred_forth := by
      rintro n _ m ⟨-, rfl⟩ hedge hm
      exact ⟨m, ⟨hm, rfl⟩, (edge_iff_of_same_live hsame hm).mpr hedge⟩
    pred_back := by
      -- an edge from code that is dead in `g'` is not resolved, so it need not be there in `g`
      rintro n _ m ⟨-, rfl⟩ hedge hm
      have hm := (Direction.reached_iff_of_same_live hsame).mp hm
      exact ⟨m, ⟨hm, rfl⟩, (edge_iff_of_same_live hsame hm).mp hedge⟩ }

end SameLive

/-- **Dead code has no influence.** If two graphs have the same number of nodes, and every node that
control reaches in the first leads to the same nodes and does the same in the second, then full runs
that start from the readers of the boundary agree at all these nodes, and insert nowhere else. The
other nodes and the edges out of them may be different. -/
theorem codeMotion_of_same_live (g g' : FlowGraph) (hcount : g'.realCount = g.realCount)
    (hsame : ∀ x, Direction.forward.Reached g x →
      g'.succ x = g.succ x ∧ g'.isUsed x = g.isUsed x ∧ g'.isKilled x = g.isKilled x) :
    ∃ V P V' P', codeMotion g ⟨.reachableOnly⟩ = .ok (V, P) ∧
      codeMotion g' ⟨.reachableOnly⟩ = .ok (V', P') ∧
      (∀ x, Direction.forward.Reached g' x ↔ Direction.forward.Reached g x) ∧
      (∀ x, Direction.forward.Reached g x → SameAt V P x V' P' x) ∧
      (∀ x, x ∈ P.busy ∨ x ∈ P.optimal ∨ x ∈ P.isolated → Direction.forward.Reached g x) ∧
      ∀ x, x ∈ P'.busy ∨ x ∈ P'.optimal ∨ x ∈ P'.isolated → Direction.forward.Reached g' x := by
  obtain ⟨V, P, hrun, hV, hP⟩ := exists_codeMotion g .reachableOnly
  obtain ⟨V', P', hrun', hV', hP'⟩ := exists_codeMotion g' .reachableOnly
  have hcorresponds := FlowGraph.corresponds_of_same_live hcount hsame
  exact ⟨V, P, V', P', hrun, hrun', fun x => Direction.reached_iff_of_same_live hsame,
    fun x hx => hcorresponds.sameAt hV hV' hP hP' ⟨hx, rfl⟩,
    fun x => Placement.region_of_mem hV hP, fun x => Placement.region_of_mem hV' hP'⟩

/-- A change of an operand, then two uses in a row; nothing leads to node 4. -/
def beforeDead : FlowGraph :=
  [Declaration.edge 1 2, .edge 2 3, .edge 3 5, .killed 1, .used 2, .used 3].foldl FlowGraph.attempt
    (.bare 4)

/-- The same, but node 4 changes an operand too and leads to the second use. -/
def besideDead : FlowGraph :=
  [Declaration.edge 4 3, .killed 4].foldl FlowGraph.attempt beforeDead

/-- The second use stays redundant, whatever node 4 does. -/
theorem same_live_besideDead : ∃ V P V' P', codeMotion beforeDead ⟨.reachableOnly⟩ = .ok (V, P) ∧
    codeMotion besideDead ⟨.reachableOnly⟩ = .ok (V', P') ∧ SameAt V P 3 V' P' 3 ∧
    P = ⟨.ofList [2], .ofList [2], ∅, .ofList [2, 3]⟩ := by
  have hdead {x : Nat} (hx : Direction.forward.Reached beforeDead x) : x ≠ 4 :=
    hx.induction (P := (· ≠ 4)) (by decide) fun m n hedge _ hn =>
      (by decide : ∀ m < 6, ¬ beforeDead.Edge m 4) m hedge.lt.1 (hn ▸ hedge)
  have hsame (x : Nat) (hx : Direction.forward.Reached beforeDead x) :
      besideDead.succ x = beforeDead.succ x ∧ besideDead.isUsed x = beforeDead.isUsed x ∧
        besideDead.isKilled x = beforeDead.isKilled x := by
    have hlt : x < 6 := hx.lt
    have hne := hdead hx
    obtain rfl | rfl | rfl | rfl | rfl : x = 0 ∨ x = 1 ∨ x = 2 ∨ x = 3 ∨ x = 5 := by omega
    all_goals exact ⟨rfl, rfl, rfl⟩
  obtain ⟨V, P, V', P', hrun, hrun', _, hall, _⟩ :=
    codeMotion_of_same_live beforeDead besideDead rfl hsame
  have h0 := Direction.forward.reached_boundary beforeDead
  have h1 := h0.reader (by decide : beforeDead.Edge 0 1)
  have h2 := h1.reader (by decide : beforeDead.Edge 1 2)
  have h3 := h2.reader (by decide : beforeDead.Edge 2 3)
  have hplacement : (codeMotion beforeDead ⟨.reachableOnly⟩).map Prod.snd =
      .ok ⟨.ofList [2], .ofList [2], ∅, .ofList [2, 3]⟩ := rfl
  rw [hrun] at hplacement
  exact ⟨V, P, V', P', hrun, hrun', hall 3 h3, Except.ok.inj hplacement⟩

/-! ## Seedings -/

/-- Runs of one system that resolve the same nodes end with the same vector. -/
lemma AnalysisRun.vector_eq_of_region {e : Equation} (he : e.IsMonotone g) (ho : e.Aligned)
    (hregion : ∀ n, e.direction.Region g seeding n ↔ e.direction.Region g seeding' n)
    {analysis : Analysis} {v v' : FactVector}
    (hv : ∃ r, ofEquation analysis e g seeding = .ok r ∧ r.vector = v)
    (hv' : ∃ r, ofEquation analysis e g seeding' = .ok r ∧ r.vector = v') : v = v' := by
  obtain ⟨s, hends, rfl⟩ := exists_ends he hv
  obtain ⟨s', hends', rfl⟩ := exists_ends he hv'
  rw [hends.facts_eq_of_region he ho hends' hregion]

namespace Vectors.Computed

/-- Seedings that resolve the same nodes lead to the same vectors: each analysis starts from equal
vectors, so it ends with equal ones. -/
lemma eq_of_region (hV : V.Computed g seeding) (hV' : V'.Computed g seeding')
    (hregion : ∀ (d : Direction) n, d.Region g seeding n ↔ d.Region g seeding' n) : V = V' := by
  have hsafe : V.downSafety = V'.downSafety :=
    AnalysisRun.vector_eq_of_region (DownSafety.isMonotone g) rfl (hregion _) hV.downSafety
      hV'.downSafety
  have hsafe_size := hV.solves_downSafety.size_eq.ge
  have hearliest : V.earliest = V'.earliest :=
    AnalysisRun.vector_eq_of_region (Earliest.isMonotone hsafe_size) rfl (hregion _) hV.earliest
      (hsafe ▸ hV'.earliest)
  have hearliest_size := hV.solves_earliest.size_eq.ge
  have hdelay : V.delay = V'.delay :=
    AnalysisRun.vector_eq_of_region (Delay.isMonotone hsafe_size hearliest_size) rfl (hregion _)
      hV.delay (hsafe ▸ hearliest ▸ hV'.delay)
  have hlatest : V.latest = V'.latest :=
    Except.ok.inj (hV.latest.symm.trans (hdelay ▸ hV'.latest))
  have hisolated : V.isolated = V'.isolated :=
    AnalysisRun.vector_eq_of_region (Isolated.isMonotone hV.size_latest.ge) rfl (hregion _)
      hV.isolated (hlatest ▸ hV'.isolated)
  cases V
  cases V'
  rw [Vectors.mk.injEq]
  exact ⟨hsafe, hearliest, hdelay, hlatest, hisolated⟩

/-- An eager run leaves nothing unknown. -/
lemma exists_known (hV : V.Computed g .eager) (a : Analysis) (hn : n < g.size) :
    ∃ b, (V.vector a).fact n = .ok (.known b) := by
  have hknown : factAt (V.vector a).facts n ≠ .unknown := by
    cases a with
    | downSafety => exact (hV.solves_downSafety.known_iff n).mpr hn
    | earliest => exact (hV.solves_earliest.known_iff n).mpr hn
    | delay => exact (hV.solves_delay.known_iff n).mpr hn
    | latest => exact Fact.ne_unknown_iff.mpr ⟨_, hV.factAt_latest hn⟩
    | isolated => exact (hV.solves_isolated.known_iff n).mpr hn
  obtain ⟨b, hb⟩ := Fact.ne_unknown_iff.mp hknown
  have hfact := fetch_fact (hn.trans_eq (hV.size_vector a).symm)
  rw [hb] at hfact
  exact ⟨b, hfact⟩

end Vectors.Computed

/-- **The seeding does not matter on a graph without dead code and dead ends.** If every node is on
some path from the entry and on some path to the exit, full runs with both seedings end with the
same vectors, in which nothing is unknown, and with the same placement. -/
theorem codeMotion_eager_eq_reachableOnly (g : FlowGraph)
    (hentry : ∀ n < g.size, Direction.forward.Reached g n)
    (hexit : ∀ n < g.size, Direction.backward.Reached g n) :
    ∃ V P, codeMotion g ⟨.eager⟩ = .ok (V, P) ∧ codeMotion g ⟨.reachableOnly⟩ = .ok (V, P) ∧
      ∀ a, ∀ n < g.size, ∃ b, (V.vector a).fact n = .ok (.known b) := by
  obtain ⟨V, P, hrun, hV, hP⟩ := exists_codeMotion g .eager
  obtain ⟨V', P', hrun', hV', hP'⟩ := exists_codeMotion g .reachableOnly
  have hregion (d : Direction) (n : Nat) : d.Region g .eager n ↔ d.Region g .reachableOnly n := by
    cases d with
    | backward => exact ⟨hexit n, Direction.Region.lt⟩
    | forward => exact ⟨hentry n, Direction.Region.lt⟩
  obtain rfl := hV.eq_of_region hV' hregion
  obtain rfl := Except.ok.inj (hP.symm.trans hP')
  exact ⟨V, P, hrun, hrun', fun a n hn => hV.exists_known a hn⟩

/-- A branch with a use in its second arm, and another use where the arms meet. -/
def partlyRedundant : FlowGraph :=
  [Declaration.edge 1 2, .edge 1 3, .edge 2 4, .edge 3 4, .killed 1, .used 3, .used 4].foldl
    FlowGraph.attempt (.bare 4)

/-- All nodes of the branch lie between entry and exit. -/
theorem eager_eq_reachableOnly_partlyRedundant : ∃ V P,
    codeMotion partlyRedundant ⟨.eager⟩ = .ok (V, P) ∧
    codeMotion partlyRedundant ⟨.reachableOnly⟩ = .ok (V, P) ∧
    ∀ a, ∃ b, (V.vector a).fact 2 = .ok (.known b) := by
  have hentry (n : Nat) (hn : n < 6) : Direction.forward.Reached partlyRedundant n := by
    have h0 := Direction.forward.reached_boundary partlyRedundant
    have h1 := h0.reader (by decide : partlyRedundant.Edge 0 1)
    have h2 := h1.reader (by decide : partlyRedundant.Edge 1 2)
    have h3 := h1.reader (by decide : partlyRedundant.Edge 1 3)
    have h4 := h2.reader (by decide : partlyRedundant.Edge 2 4)
    have h5 := h4.reader (by decide : partlyRedundant.Edge 4 5)
    obtain rfl | rfl | rfl | rfl | rfl | rfl :
      n = 0 ∨ n = 1 ∨ n = 2 ∨ n = 3 ∨ n = 4 ∨ n = 5 := by omega
    all_goals assumption
  have hexit (n : Nat) (hn : n < 6) : Direction.backward.Reached partlyRedundant n := by
    have h5 := Direction.backward.reached_boundary partlyRedundant
    have h4 := h5.reader (by decide : partlyRedundant.Edge 4 5)
    have h3 := h4.reader (by decide : partlyRedundant.Edge 3 4)
    have h2 := h4.reader (by decide : partlyRedundant.Edge 2 4)
    have h1 := h2.reader (by decide : partlyRedundant.Edge 1 2)
    have h0 := h1.reader (by decide : partlyRedundant.Edge 0 1)
    obtain rfl | rfl | rfl | rfl | rfl | rfl :
      n = 0 ∨ n = 1 ∨ n = 2 ∨ n = 3 ∨ n = 4 ∨ n = 5 := by omega
    all_goals assumption
  obtain ⟨V, P, heager, hreachable, hknown⟩ :=
    codeMotion_eager_eq_reachableOnly partlyRedundant hentry hexit
  exact ⟨V, P, heager, hreachable, fun a => hknown a 2 (by decide)⟩

/-! ## Numbers -/

/-- Both graphs have the same nodes, and `π` gives each node of `g` its number in `g'`. -/
structure FlowGraph.Renumbers (g g' : FlowGraph) (π : Nat → Nat) : Prop where
  /-- The graphs have the same number of real nodes. -/
  realCount_eq : g'.realCount = g.realCount
  /-- Each number is given to one node. -/
  bijOn : Set.BijOn π (Set.Iio g.size) (Set.Iio g.size)
  /-- The entry keeps its number. -/
  entry_eq : π g.entry = g.entry
  /-- The exit keeps its number. -/
  exit_eq : π g.exit = g.exit
  /-- The same nodes are joined. -/
  edge_iff : ∀ u < g.size, ∀ v < g.size, (g.Edge u v ↔ g'.Edge (π u) (π v))
  /-- The same nodes use the expression. -/
  used_iff : ∀ n < g.size, (n ∈ g.usedNodes ↔ π n ∈ g'.usedNodes)
  /-- The same nodes change an operand. -/
  killed_iff : ∀ n < g.size, (n ∈ g.killedNodes ↔ π n ∈ g'.killedNodes)

/-- The nodes of a set under other numbers. -/
def NodeSet.image (π : Nat → Nat) (s : NodeSet) : NodeSet := .ofList (s.toList.map π)

@[simp] lemma NodeSet.mem_image {π : Nat → Nat} {s : NodeSet} :
    n ∈ s.image π ↔ ∃ m ∈ s, π m = n := by
  simp [image, mem_toList]

/-- A placement with its nodes under other numbers. -/
def Placement.image (π : Nat → Nat) (P : Placement) : Placement where
  busy := P.busy.image π
  optimal := P.optimal.image π
  isolated := P.isolated.image π
  redundant := P.redundant.image π

namespace FlowGraph.Renumbers

variable {π : Nat → Nat} (h : g.Renumbers g' π)
include h

lemma size_eq : g'.size = g.size := congrArg (· + 2) h.realCount_eq

lemma map_lt (hn : n < g.size) : π n < g.size := h.bijOn.mapsTo hn

lemma exists_eq (hn : n < g.size) : ∃ m < g.size, π m = n := h.bijOn.surjOn hn

lemma corresponds (seeding : Seeding) :
    g.Corresponds g' seeding fun n n' => n < g.size ∧ π n = n' where
  lt := by
    rintro n _ ⟨hn, rfl⟩
    exact ⟨hn, h.size_eq ▸ h.map_lt hn⟩
  entry_iff := by
    rintro n _ ⟨hn, rfl⟩
    have hentry : g.entry < g.size := Direction.forward.boundary_lt g
    rw [← h.bijOn.injOn.eq_iff hn hentry, h.entry_eq]
    rfl
  exit_iff := by
    rintro n _ ⟨hn, rfl⟩
    have hexit : g.exit < g.size := Direction.backward.boundary_lt g
    rw [← h.bijOn.injOn.eq_iff hn hexit, h.exit_eq, exit, exit, h.realCount_eq]
  used_iff := by
    rintro n _ ⟨hn, rfl⟩
    exact h.used_iff n hn
  killed_iff := by
    rintro n _ ⟨hn, rfl⟩
    exact h.killed_iff n hn
  succ_forth := by
    rintro n _ m ⟨hn, rfl⟩ hedge
    have hm := (lt_of_edge hedge).2
    exact ⟨π m, ⟨hm, rfl⟩, (h.edge_iff n hn m hm).mp hedge⟩
  succ_back := by
    rintro n _ m' ⟨hn, rfl⟩ hedge
    obtain ⟨m, hm, rfl⟩ := h.exists_eq (h.size_eq ▸ (lt_of_edge hedge).2)
    exact ⟨m, ⟨hm, rfl⟩, (h.edge_iff n hn m hm).mpr hedge⟩
  pred_forth := by
    rintro n _ m ⟨hn, rfl⟩ hedge _
    have hm := (lt_of_edge hedge).1
    exact ⟨π m, ⟨hm, rfl⟩, (h.edge_iff m hm n hn).mp hedge⟩
  pred_back := by
    rintro n _ m' ⟨hn, rfl⟩ hedge _
    obtain ⟨m, hm, rfl⟩ := h.exists_eq (h.size_eq ▸ (lt_of_edge hedge).1)
    exact ⟨m, ⟨hm, rfl⟩, (h.edge_iff m hm n hn).mpr hedge⟩

/-- Sets of nodes that agree up to the numbers are images. -/
lemma eq_image {s s' : NodeSet} (hs : ∀ n ∈ s, n < g.size) (hs' : ∀ n ∈ s', n < g.size)
    (hmem : ∀ n < g.size, (n ∈ s ↔ π n ∈ s')) : s' = s.image π := by
  refine NodeSet.ext fun n' => ?_
  rw [NodeSet.mem_image]
  constructor
  · intro hn'
    obtain ⟨n, hn, rfl⟩ := h.exists_eq (hs' n' hn')
    exact ⟨n, (hmem n hn).mpr hn', rfl⟩
  · rintro ⟨n, hn, rfl⟩
    exact (hmem n (hs n hn)).mp hn

end FlowGraph.Renumbers

/-- **The numbers of the nodes do not matter.** If `π` renumbers the nodes of `g` as those of `g'`,
full runs give each node the facts that they give it under its other number, and the placement on
`g'` is the placement on `g` under the other numbers. -/
theorem codeMotion_renumbered {π : Nat → Nat} (h : g.Renumbers g' π) (seeding : Seeding) :
    ∃ V P V', codeMotion g ⟨seeding⟩ = .ok (V, P) ∧
      codeMotion g' ⟨seeding⟩ = .ok (V', P.image π) ∧
      ∀ a, ∀ n < g.size, ∃ f, (V.vector a).fact n = .ok f ∧ (V'.vector a).fact (π n) = .ok f := by
  obtain ⟨V, P, hrun, hV, hP⟩ := exists_codeMotion g seeding
  obtain ⟨V', P', hrun', hV', hP'⟩ := exists_codeMotion g' seeding
  have hsame (n : Nat) (hn : n < g.size) : SameAt V P n V' P' (π n) :=
    (h.corresponds seeding).sameAt hV hV' hP hP' ⟨hn, rfl⟩
  obtain ⟨hbusy, hoptimal, hisolated, hredundant⟩ := Placement.lt_of_classify hV hP
  obtain ⟨hbusy', hoptimal', hisolated', hredundant'⟩ := Placement.lt_of_classify hV' hP'
  rw [h.size_eq] at hbusy' hoptimal' hisolated' hredundant'
  have himage : P' = P.image π := by
    cases P'
    rw [Placement.image, Placement.mk.injEq]
    exact ⟨h.eq_image hbusy hbusy' fun n hn => (hsame n hn).busy_iff,
      h.eq_image hoptimal hoptimal' fun n hn => (hsame n hn).optimal_iff,
      h.eq_image hisolated hisolated' fun n hn => (hsame n hn).isolated_iff,
      h.eq_image hredundant hredundant' fun n hn => (hsame n hn).redundant_iff⟩
  rw [himage] at hrun'
  exact ⟨V, P, V', hrun, hrun', fun a n hn => (hsame n hn).fact_eq a⟩

/-- The same branch with the numbers of its arms exchanged. -/
def partlyRedundantSwapped : FlowGraph :=
  [Declaration.edge 1 2, .edge 1 3, .edge 2 4, .edge 3 4, .killed 1, .used 2, .used 4].foldl
    FlowGraph.attempt (.bare 4)

/-- What is known of the arm without a use stays the same when it is node 3 instead of node 2. -/
theorem renumbered_partlyRedundant : ∃ V P V',
    codeMotion partlyRedundant ⟨.eager⟩ = .ok (V, P) ∧
    codeMotion partlyRedundantSwapped ⟨.eager⟩ = .ok (V', P.image (Equiv.swap 2 3)) ∧
    P.optimal = .ofList [2, 3] ∧
    ∀ a, ∃ f, (V.vector a).fact 2 = .ok f ∧ (V'.vector a).fact 3 = .ok f := by
  have hrenumbers : partlyRedundant.Renumbers partlyRedundantSwapped (Equiv.swap 2 3) := {
    realCount_eq := rfl
    bijOn := Equiv.bijOn_swap (show 2 < 6 by decide) (show 3 < 6 by decide)
    entry_eq := by decide
    exit_eq := by decide
    edge_iff := by decide
    used_iff := by decide
    killed_iff := by decide }
  obtain ⟨V, P, V', hrun, hrun', hfact⟩ := codeMotion_renumbered hrenumbers .eager
  have hplacement : (codeMotion partlyRedundant ⟨.eager⟩).map Prod.snd =
      .ok ⟨.ofList [2, 3], .ofList [2, 3], ∅, .ofList [3, 4]⟩ := rfl
  rw [hrun] at hplacement
  obtain rfl := Except.ok.inj hplacement
  exact ⟨V, _, V', hrun, hrun', rfl, fun a => hfact a 2 (by decide)⟩

end PartialRedundancy
