import Mathlib.Tactic.TFAE
import PartialRedundancy.Graph.Declaration
import PartialRedundancy.Proofs.Motion.Session
import PartialRedundancy.Proofs.Report.Json
import PartialRedundancy.Proofs.Report.Text

/-!
# What reports tell of sessions

The reports of two finished sessions are the same exactly if the sessions agree on everything that
they sum up, and this shows in the text as well as in the JSON text.

## Main results

* `Session.report_eq_ok_iff` — what the report of a session is made of.
* `FactVector.listings_eq_iff` — what is listed of a vector determines the facts of its real nodes.
* `Vectors.Computed.reports_eq_iff` — the vectors of two sessions are reported alike exactly if all
  real nodes have the same facts in them.
* `Session.report_tfae` — reports lose nothing, in either text.
-/

namespace PartialRedundancy

variable {g g' : FlowGraph} {seeding seeding' : Seeding} {V V' : Vectors}

/-- Two sets have the same members of some kind exactly if each of this kind is in both or in
neither. -/
lemma NodeSet.filter_eq_filter_iff {s t : NodeSet} {p : Nat → Bool} :
    s.filter p = t.filter p ↔ ∀ n, p n = true → (n ∈ s ↔ n ∈ t) := by
  constructor
  · intro h n hn
    have hmem : n ∈ s.filter p ↔ n ∈ t.filter p := by rw [h]
    simpa [hn] using hmem
  · intro h
    refine ext fun n => ?_
    rw [mem_filter, mem_filter, and_congr_left_iff]
    exact h n

/-- The attributes of the real nodes are reported alike exactly if they are the same. -/
lemma FlowGraph.realMarks_eq_iff (hcount : g.realCount = g'.realCount) :
    (g.usedNodes.filter g.isReal = g'.usedNodes.filter g'.isReal ∧
      g.killedNodes.filter g.isReal = g'.killedNodes.filter g'.isReal) ↔
    ∀ n, g.isReal n = true → g.isUsed n = g'.isUsed n ∧ g.isKilled n = g'.isKilled n := by
  have hreal : g'.isReal = g.isReal := funext fun n => by simp [isReal, hcount]
  rw [hreal, NodeSet.filter_eq_filter_iff, NodeSet.filter_eq_filter_iff, ← forall₂_and]
  refine forall₂_congr fun n hn => ?_
  rw [isUsed_eq_iff (lt_of_isReal hn rfl) (lt_of_isReal hn hcount),
    isKilled_eq_iff (lt_of_isReal hn rfl) (lt_of_isReal hn hcount)]

/-- In two vectors of one size the same nodes hold and the same nodes are unknown exactly if all
real nodes have the same facts: a node that is in neither listing is known to be false. -/
lemma FactVector.listings_eq_iff {v v' : FactVector} (hsize : v.size = v'.size) :
    v.holding = v'.holding ∧ v.unknown = v'.unknown ↔
      ∀ n, 1 ≤ n → n + 1 < v.size → v.get? n = v'.get? n := by
  constructor
  · rintro ⟨hholding, hunknown⟩ n hn hlast
    have hlast' : n + 1 < v'.size := hsize ▸ hlast
    have htrue : v.get? n = some (.known true) ↔ v'.get? n = some (.known true) := by
      have hmem : n ∈ v.holding ↔ n ∈ v'.holding := by rw [hholding]
      simpa [mem_holding, hn, hlast, hlast'] using hmem
    have hnone : v.get? n = some .unknown ↔ v'.get? n = some .unknown := by
      have hmem : n ∈ v.unknown ↔ n ∈ v'.unknown := by rw [hunknown]
      simpa [mem_unknown, hn, hlast, hlast'] using hmem
    have hget {w : FactVector} (hlast : n + 1 < w.size) : ∃ f, w.get? n = some f :=
      ⟨_, Array.getElem?_eq_getElem (Nat.lt_of_succ_lt hlast)⟩
    obtain ⟨f, hf⟩ := hget hlast
    obtain ⟨f', hf'⟩ := hget hlast'
    rw [hf, hf'] at htrue hnone ⊢
    match f, f' with
    | .unknown, _ => exact (hnone.mp rfl).symm
    | .known true, _ => exact (htrue.mp rfl).symm
    | .known false, .unknown => exact hnone.mpr rfl
    | .known false, .known true => exact htrue.mpr rfl
    | .known false, .known false => rfl
  · intro h
    constructor
    · refine NodeSet.ext fun n => ?_
      rw [mem_holding, mem_holding, ← hsize]
      refine and_congr_right fun hn => and_congr_right fun hlast => ?_
      rw [h n hn hlast]
    · refine NodeSet.ext fun n => ?_
      rw [mem_unknown, mem_unknown, ← hsize]
      refine and_congr_right fun hn => and_congr_right fun hlast => ?_
      rw [h n hn hlast]

/-- An analysis that solves a system of equations names itself in its vector. -/
lemma AnalysisRun.analysis_of_ofEquation {a : Analysis} {e : Equation} {r : AnalysisRun}
    (h : ofEquation a e g seeding = .ok r) : r.vector.analysis = a := by
  simp only [ofEquation, bind_eq_ok_iff, pure_eq_ok_iff] at h
  obtain ⟨_, _, rfl⟩ := h
  rfl

namespace Vectors

/-- Every vector of a graph is that of its analysis. -/
lemma Computed.analysis_vector (h : V.Computed g seeding) (a : Analysis) :
    (V.vector a).analysis = a := by
  have hrun {x : Except OutOfBounds AnalysisRun} {v : FactVector} {e : Equation}
      (hx : x = AnalysisRun.ofEquation a e g seeding) (hv : ∃ r, x = .ok r ∧ r.vector = v) :
      v.analysis = a := by
    obtain ⟨r, hr, rfl⟩ := hv
    exact AnalysisRun.analysis_of_ofEquation (hx ▸ hr)
  cases a with
  | downSafety => exact hrun rfl h.downSafety
  | earliest => exact hrun rfl h.earliest
  | delay => exact hrun rfl h.delay
  | isolated => exact hrun rfl h.isolated
  | latest =>
    have hlatest := h.latest
    simp only [Latest.analyze, bind_eq_ok_iff, pure_eq_ok_iff] at hlatest
    obtain ⟨_, _, heq⟩ := hlatest
    exact congrArg FactVector.analysis heq.symm

/-- The reports of all vectors, one for each analysis. -/
lemma reports_eq (V : Vectors) : V.reports = Analysis.all.map fun a => (V.vector a).report := rfl

/-- **What is told of the vectors** of two graphs with as many nodes is the same exactly if all real
nodes have the same facts in each of them. -/
lemma Computed.reports_eq_iff (h : V.Computed g seeding) (h' : V'.Computed g' seeding')
    (hcount : g.realCount = g'.realCount) :
    V.reports = V'.reports ↔
      ∀ a n, g.isReal n = true → (V.vector a).get? n = (V'.vector a).get? n := by
  have hall (a : Analysis) : a ∈ Analysis.all := by cases a <;> decide
  have hsize (a : Analysis) : (V.vector a).size = (V'.vector a).size := by
    rw [h.size_vector, h'.size_vector, FlowGraph.size, FlowGraph.size, hcount]
  rw [reports_eq, reports_eq, List.map_inj_left]
  refine forall_congr' fun a => ?_
  have hreport : (V.vector a).report = (V'.vector a).report ↔
      (V.vector a).holding = (V'.vector a).holding ∧
        (V.vector a).unknown = (V'.vector a).unknown := by
    simp [FactVector.report, h.analysis_vector, h'.analysis_vector]
  rw [imp_iff_right (hall a), hreport, FactVector.listings_eq_iff (hsize a)]
  refine forall_congr' fun n => ?_
  rw [h.size_vector, ← and_imp]
  refine imp_congr_left ?_
  simp only [FlowGraph.isReal, FlowGraph.size, Bool.and_eq_true, decide_eq_true_eq]
  omega

end Vectors

namespace Session

/-- A report sums up the vectors and the placement. -/
lemma report_eq_ok_iff {s : Session} {r : Report} : s.report = .ok r ↔
    ∃ V P, s.vectors = .ok V ∧ s.placement = .ok P ∧
      r = ⟨s.options.seeding, s.graph.realCount, s.graph.usedNodes.filter s.graph.isReal,
        s.graph.killedNodes.filter s.graph.isReal, V.reports, P⟩ := by
  simp only [report, bind_eq_ok_iff, pure_eq_ok_iff]
  constructor
  · rintro ⟨V, hV, P, hP, rfl⟩
    exact ⟨V, P, hV, hP, rfl⟩
  · rintro ⟨V, P, hV, hP, rfl⟩
    exact ⟨V, hV, P, hP, rfl⟩

/-- A session that can tell its placement has a report, about its graph and the vectors of it. -/
lemma exists_report_of_placement {options : SessionOptions} {cs : List Command} {s : Session}
    {P : Placement} (hs : s = (new g options).after cs) (hP : s.placement = .ok P) :
    ∃ V, V.Computed g options.seeding ∧ s.vectors = .ok V ∧ s.report =
      .ok ⟨options.seeding, g.realCount, g.usedNodes.filter g.isReal,
        g.killedNodes.filter g.isReal, V.reports, P⟩ := by
  obtain ⟨V, hV⟩ := Vectors.exists_computed g options.seeding
  have hcoherent : s.Coherent g options.seeding V :=
    hs ▸ (coherent_new g options.seeding V).after hV cs
  have hvectors := (hcoherent.placement_eq_ok_iff.mp hP).1
  refine ⟨V, hV, hvectors, report_eq_ok_iff.mpr ⟨V, P, hvectors, hP, ?_⟩⟩
  rw [hcoherent.graph_eq, hcoherent.seeding_eq]

/-- **Reports lose nothing.** Two finished sessions, on any graphs, with any options and after any
commands, have reports. These are equal if their texts are, and if their JSON texts are; and they
are equal exactly if the sessions agree on the seeding, the number of real nodes, the attributes of
these, the facts of these in each of the five vectors, and the placement.

**Proof sketch.** Both texts are injective on all reports. That equal reports mean equal sessions
in the sense above holds part by part: the reports of the vectors are told apart by the analysis
that each of them names, and the nodes that hold and those that are unknown tell all facts. -/
theorem report_tfae (g g' : FlowGraph) (options options' : SessionOptions) (cs cs' : List Command)
    {s s' : Session} {P P' : Placement} (hs : s = (new g options).after cs)
    (hs' : s' = (new g' options').after cs') (hP : s.placement = .ok P)
    (hP' : s'.placement = .ok P') :
    ∃ V V' r r', s.vectors = .ok V ∧ s'.vectors = .ok V' ∧ s.report = .ok r ∧ s'.report = .ok r' ∧
      [r = r', r.text = r'.text, r.json = r'.json,
        options.seeding = options'.seeding ∧ g.realCount = g'.realCount ∧
          (∀ n, g.isReal n = true → g.isUsed n = g'.isUsed n ∧ g.isKilled n = g'.isKilled n) ∧
          (∀ a n, g.isReal n = true → (V.vector a).get? n = (V'.vector a).get? n) ∧
          P.busy = P'.busy ∧ P.optimal = P'.optimal ∧ P.isolated = P'.isolated ∧
          P.redundant = P'.redundant].TFAE := by
  obtain ⟨V, hV, hvectors, hreport⟩ := exists_report_of_placement hs hP
  obtain ⟨V', hV', hvectors', hreport'⟩ := exists_report_of_placement hs' hP'
  refine ⟨V, V', _, _, hvectors, hvectors', hreport, hreport', ?_⟩
  tfae_have 1 ↔ 2 := Report.text_injective.eq_iff.symm
  tfae_have 1 ↔ 3 := Report.json_injective.eq_iff.symm
  tfae_have 1 ↔ 4 := by
    rw [Report.mk.injEq, Placement.eq_iff]
    refine and_congr_right fun _ => and_congr_right fun hcount => ?_
    rw [← FlowGraph.realMarks_eq_iff hcount, and_assoc, hV.reports_eq_iff hV' hcount]
  tfae_finish

/-- Two nodes in a row. -/
def twoInARow : FlowGraph := [Declaration.edge 1 2].foldl FlowGraph.attempt (.bare 2)

/-- The texts of the reports tell two sessions apart that have the same placement. -/
def ToldApart (s s' : Session) : Prop :=
  s.placement = s'.placement ∧ ∃ r r', s.report = .ok r ∧ s'.report = .ok r' ∧
    r.text ≠ r'.text ∧ r.json ≠ r'.json

/-- Without the edge between two nodes the first of them does not lead to the exit any more, where
there is nothing to be used. An eager session then takes the expression to be down-safe there, and a
session from the boundary knows nothing of the node. Nothing is marked or inserted in either graph,
and yet both texts tell the reports apart. -/
theorem report_twoInARow :
    ((new (.bare 2) ⟨.eager⟩).after [.runAll]).ToldApart
      ((new twoInARow ⟨.eager⟩).after [.runAll]) ∧
    ((new (.bare 2) ⟨.reachableOnly⟩).after [.runAll]).ToldApart
      ((new twoInARow ⟨.reachableOnly⟩).after [.runAll]) := by
  have hapart (seeding : Seeding) (f f' : Option Fact) (hne : f ≠ f')
      (hP : ((new (.bare 2) ⟨seeding⟩).after [.runAll]).placement = .ok ⟨∅, ∅, ∅, ∅⟩)
      (hP' : ((new twoInARow ⟨seeding⟩).after [.runAll]).placement = .ok ⟨∅, ∅, ∅, ∅⟩)
      (hf : ((new (.bare 2) ⟨seeding⟩).after [.runAll]).vectors.map
        (fun V => V.downSafety.get? 1) = .ok f)
      (hf' : ((new twoInARow ⟨seeding⟩).after [.runAll]).vectors.map
        (fun V => V.downSafety.get? 1) = .ok f') :
      ((new (.bare 2) ⟨seeding⟩).after [.runAll]).ToldApart
        ((new twoInARow ⟨seeding⟩).after [.runAll]) := by
    obtain ⟨V, V', r, r', hV, hV', hr, hr', htfae⟩ := report_tfae (.bare 2) twoInARow ⟨seeding⟩
      ⟨seeding⟩ [.runAll] [.runAll] rfl rfl hP hP'
    rw [hV] at hf
    rw [hV'] at hf'
    obtain rfl : V.downSafety.get? 1 = f := Except.ok.inj hf
    obtain rfl : V'.downSafety.get? 1 = f' := Except.ok.inj hf'
    refine ⟨hP.trans hP'.symm, r, r', hr, hr', fun htext => ?_, fun hjson => ?_⟩
    · obtain ⟨_, _, _, hfacts, _⟩ := (htfae.out 1 3 rfl rfl).mp htext
      exact hne (hfacts .downSafety 1 rfl)
    · obtain ⟨_, _, _, hfacts, _⟩ := (htfae.out 2 3 rfl rfl).mp hjson
      exact hne (hfacts .downSafety 1 rfl)
  constructor
  · exact hapart .eager (some (.known true)) (some (.known false)) (by decide) rfl rfl rfl rfl
  · exact hapart .reachableOnly (some .unknown) (some (.known false)) (by decide) rfl rfl rfl rfl

end Session

end PartialRedundancy
