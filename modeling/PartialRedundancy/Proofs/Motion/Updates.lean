import PartialRedundancy.Graph.Declaration
import PartialRedundancy.Proofs.Dataflow.Record
import PartialRedundancy.Proofs.Motion.Equations

/-!
# How often an analysis updates a node

The loop of the solver ends for every monotone system, and every node moves one way only. An eager
run updates a node at most once, from the extreme value to the other one. A run from the boundary
updates it at most twice: it gets a value, and that value changes at most once, away from the
identity of the meet. So the four analyses that solve a system stay within two updates for each
node.

## Main results

* `AnalysisRun.exists_updates_le` — the analysis of a monotone system succeeds within that bound.
* `solve_flipsAt` — the flips of each node, and how many there are.
-/

namespace PartialRedundancy

/-- The analysis of a monotone system succeeds, with at most two updates for each node. -/
lemma AnalysisRun.exists_updates_le {e : Equation} {g : FlowGraph} (he : e.IsMonotone g)
    (analysis : Analysis) (seeding : Seeding) :
    ∃ r, ofEquation analysis e g seeding = .ok r ∧ r.updates.length ≤ 2 * (g.realCount + 2) := by
  obtain ⟨s, hs, hends⟩ := exists_solve he seeding
  refine ⟨⟨analysis, .settled s.finish⟩, bind_eq_ok_iff.mpr ⟨_, hs, rfl⟩, ?_⟩
  rw [updates, List.length_map]
  change s.flips.toList.length ≤ _
  cases seeding with
  | eager =>
    have hlen := hends.length_eager he
    omega
  | reachableOnly =>
    have hlen := hends.length_reachableOnly he
    omega

/-- **Every run ends, and every node moves one way.** If the system is monotone, the loop of the
solver ends and the run settles, and only nodes other than the boundary flip. In an eager run each
of them flips at most once, from the extreme value that the system names to the other one, so there
are at most as many flips as nodes other than the boundary. In a run from the boundary each of them
flips at most twice. Its first flip starts from an unknown fact; a second one starts from the
identity of the meet, truth for a conjunction and falsehood for a disjunction, and goes to the other
value. So there are at most twice as many flips. The analyses of code motion that solve a system
stay within twice the number of all nodes, whatever vectors with a fact for every node they read. -/
theorem solve_flipsAt (g : FlowGraph) :
    (∀ e : Equation, e.IsMonotone g → ∀ seeding, ∃ s : SolverState, s.Ends e g seeding ∧
      solve e g seeding = .ok (.settled s.finish) ∧
      (∀ f ∈ s.finish.flips, f.node < g.size ∧ f.node ≠ e.direction.boundary g) ∧
      match seeding with
      | .eager =>
        (∀ n, flipsAt s.finish.flips n = [] ∨
          flipsAt s.finish.flips n = [⟨n, .known e.extreme.start, !e.extreme.start⟩]) ∧
        s.finish.flips.length ≤ g.realCount + 1
      | .reachableOnly =>
        (∀ n, flipsAt s.finish.flips n = [] ∨
          (∃ b, flipsAt s.finish.flips n = [⟨n, .unknown, b⟩]) ∨
          flipsAt s.finish.flips n =
            [⟨n, .unknown, e.meet.identity⟩, ⟨n, .known e.meet.identity, !e.meet.identity⟩]) ∧
        s.finish.flips.length ≤ 2 * (g.realCount + 1)) ∧
    (∀ seeding, ∃ r, DownSafety.analyze g seeding = .ok r ∧
      r.updates.length ≤ 2 * (g.realCount + 2)) ∧
    (∀ seeding (safe : FactVector), g.size ≤ safe.size →
      ∃ r, Earliest.analyze g safe seeding = .ok r ∧ r.updates.length ≤ 2 * (g.realCount + 2)) ∧
    (∀ seeding (safe earliest : FactVector), g.size ≤ safe.size → g.size ≤ earliest.size →
      ∃ r, Delay.analyze g safe earliest seeding = .ok r ∧
        r.updates.length ≤ 2 * (g.realCount + 2)) ∧
    ∀ seeding (latest : FactVector), g.size ≤ latest.size →
      ∃ r, Isolated.analyze g latest seeding = .ok r ∧
        r.updates.length ≤ 2 * (g.realCount + 2) := by
  refine ⟨?_,
    fun seeding => AnalysisRun.exists_updates_le (DownSafety.isMonotone g) _ seeding,
    fun seeding safe hsafe => AnalysisRun.exists_updates_le (Earliest.isMonotone hsafe) _ seeding,
    fun seeding safe earliest hsafe hearliest =>
      AnalysisRun.exists_updates_le (Delay.isMonotone hsafe hearliest) _ seeding,
    fun seeding latest hlatest =>
      AnalysisRun.exists_updates_le (Isolated.isMonotone hlatest) _ seeding⟩
  intro e he seeding
  obtain ⟨s, hs, hends⟩ := exists_solve he seeding
  refine ⟨s, hends, hs, (hends.recorded he).node, ?_⟩
  cases seeding with
  | eager => exact ⟨hends.flipsAt_eager he, hends.length_eager he⟩
  | reachableOnly => exact ⟨hends.flipsAt_reachableOnly he, hends.length_reachableOnly he⟩

/-- A branch whose arms are of different length, with a use in the shorter one. -/
def unevenBranch : FlowGraph :=
  [Declaration.edge 1 2, .edge 1 3, .edge 3 4, .edge 2 5, .used 2].foldl FlowGraph.attempt (.bare 4)

/-- From the exit the shorter arm is seen first, so the branch counts as down-safe until the longer
arm is seen as well. -/
theorem solve_flipsAt_unevenBranch : ∃ s : SolverState,
    solve (DownSafety.equation unevenBranch) unevenBranch .reachableOnly = .ok (.settled s.finish) ∧
      flipsAt s.finish.flips 1 = [⟨1, .unknown, true⟩, ⟨1, .known true, false⟩] ∧
      s.finish.flips.length ≤ 10 := by
  obtain ⟨s, _, hs, _, _, hlen⟩ := (solve_flipsAt unevenBranch).1
    (DownSafety.equation unevenBranch) (DownSafety.isMonotone unevenBranch) .reachableOnly
  refine ⟨s, hs, ?_, hlen⟩
  obtain ⟨r, hr, hflips⟩ : ∃ r,
      solve (DownSafety.equation unevenBranch) unevenBranch .reachableOnly = .ok (.settled r) ∧
        flipsAt r.flips 1 = [⟨1, .unknown, true⟩, ⟨1, .known true, false⟩] := ⟨_, rfl, rfl⟩
  rw [eq_of_settled hs hr, hflips]

end PartialRedundancy
