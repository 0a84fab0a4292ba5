import PartialRedundancy.Motion.Delay
import PartialRedundancy.Motion.DownSafety
import PartialRedundancy.Motion.Earliest
import PartialRedundancy.Motion.Isolated
import PartialRedundancy.Motion.Latest
import PartialRedundancy.Proofs.Motion.Vector

/-!
# The equations of code motion

The five analyses in terms of nodes: which equation holds at each node that a run resolves, with
the sources that it leaves unresolved left out.

## Main results

* `DownSafety.isMonotone`, `Earliest.isMonotone`, `Delay.isMonotone`, `Isolated.isMonotone` — the
  four systems are monotone, whatever vectors they read.
* `DownSafety.holds_iff`, `Earliest.holds_iff`, `Delay.holds_iff`, `Isolated.holds_iff` — the
  equations of the resolved nodes.
* `Latest.holds_iff` — where the vector of latestness holds.
-/

namespace PartialRedundancy

/-- A function that tells whether some proposition about its argument holds is rising if the
proposition is. -/
lemma rising_of_eq_decide {f : Bool → Except OutOfBounds Bool} {P : Bool → Prop} [DecidablePred P]
    (hf : ∀ b, f b = .ok (decide (P b))) (hP : P false → P true) : Rising f :=
  ⟨_, _, hf false, hf true, by simpa using hP⟩

variable {g : FlowGraph} {seeding : Seeding} {n : Nat}

/-! ## Down-safety -/

namespace DownSafety

/-- A node gets the value true if the meet passes through it or it uses the expression. -/
lemma apply_eq (hn : n < g.size) (met : Bool) : (equation g).apply n met =
    .ok (decide ((n ∉ g.killedNodes ∧ met = true) ∨ n ∈ g.usedNodes)) := by
  simp only [equation, FlowGraph.isKilled_eq hn, FlowGraph.isUsed_eq hn]
  by_cases hk : n ∈ g.killedNodes <;> cases met <;> simp [hk, bind, Except.bind, pure, Except.pure]

/-- The equations of down-safety are monotone. -/
lemma isMonotone (g : FlowGraph) : (equation g).IsMonotone g where
  term m _ := ⟨false, true, rfl, rfl, fun _ => rfl⟩
  apply n hn := by
    refine rising_of_eq_decide (apply_eq hn) ?_
    rintro (⟨_, hmet⟩ | hu)
    · exact absurd hmet Bool.false_ne_true
    · exact Or.inr hu

/-- A resolved node is down-safe if it uses the expression, or if it changes no operand and all
its successors are down-safe. -/
lemma holds_iff {v : FactVector} (h : v.Solves (equation g) g seeding)
    (hn : Direction.backward.Region g seeding n) (hb : n ≠ g.exit) :
    v.Holds n ↔ n ∈ g.usedNodes ∨ (n ∉ g.killedNodes ∧
      ∀ s, g.Edge n s → Direction.backward.Region g seeding s → v.Holds s) := by
  obtain ⟨met, hmet, happly⟩ := h.isSolution.conjunction rfl hn hb
  rw [apply_eq hn.lt, Except.ok.injEq, decide_eq_decide, hmet] at happly
  rw [← happly, or_comm]
  simp [equation, Direction.Source, pure, Except.pure]

/-- The exit is not down-safe. -/
lemma not_holds_exit {v : FactVector} (h : v.Solves (equation g) g seeding) : ¬ v.Holds g.exit := by
  intro hexit
  exact Bool.false_ne_true (h.holds_boundary.mp hexit)

end DownSafety

/-! ## Earliestness -/

namespace Earliest

variable {safe : FactVector}

/-- An insertion cannot move past a node that changes an operand, or that is earliest itself and
not down-safe. -/
lemma term_eq_of_lt (hsafe : n < safe.size) (hn : n < g.size) (b : Bool) :
    (equation g safe).term n b =
      .ok (decide ((¬ safe.Holds n ∧ b = true) ∨ n ∈ g.killedNodes)) := by
  simp only [equation, FactVector.holds_eq hsafe, FlowGraph.isKilled_eq hn]
  by_cases hs : safe.Holds n <;> cases b <;> simp [hs, bind, Except.bind, pure, Except.pure]

/-- This is the rule for all nodes if the vector of down-safety has a fact for each of them. -/
lemma term_eq (hsize : g.size ≤ safe.size) (hn : n < g.size) (b : Bool) :
    (equation g safe).term n b =
      .ok (decide ((¬ safe.Holds n ∧ b = true) ∨ n ∈ g.killedNodes)) :=
  term_eq_of_lt (hn.trans_le hsize) hn b

/-- The equations of earliestness are monotone. -/
lemma isMonotone (hsize : g.size ≤ safe.size) : (equation g safe).IsMonotone g where
  term m hm := by
    refine rising_of_eq_decide (term_eq hsize hm) ?_
    rintro (⟨_, hfalse⟩ | hk)
    · exact absurd hfalse Bool.false_ne_true
    · exact Or.inr hk
  apply _ _ := ⟨false, true, rfl, rfl, fun _ => rfl⟩

/-- A resolved node is earliest if an insertion cannot move past some predecessor. -/
lemma holds_iff {v : FactVector} (hsize : g.size ≤ safe.size)
    (h : v.Solves (equation g safe) g seeding) (hn : Direction.forward.Region g seeding n)
    (hb : n ≠ g.entry) :
    v.Holds n ↔ ∃ p, g.Edge p n ∧ Direction.forward.Region g seeding p ∧
      ((¬ safe.Holds p ∧ v.Holds p) ∨ p ∈ g.killedNodes) := by
  obtain ⟨met, hmet, happly⟩ := h.isSolution.disjunction rfl hn hb
  obtain rfl : met = decide (v.Holds n) := Except.ok.inj happly
  rw [decide_eq_true_iff] at hmet
  rw [hmet]
  refine exists_congr fun p => and_congr_right fun hp => and_congr_right fun hr => ?_
  rw [term_eq hsize hr.lt, Except.ok.injEq, decide_eq_true_iff, decide_eq_true_iff]

/-- The entry is earliest. -/
lemma holds_entry {v : FactVector} (h : v.Solves (equation g safe) g seeding) : v.Holds g.entry :=
  h.holds_boundary.mpr rfl

end Earliest

/-! ## Delayability -/

namespace Delay

variable {safe earliest : FactVector}

/-- An insertion can be put off past a node that does not use the expression. -/
lemma term_eq (hn : n < g.size) (b : Bool) : (equation g safe earliest).term n b =
    .ok (decide (n ∉ g.usedNodes ∧ b = true)) := by
  simp only [equation, FlowGraph.isUsed_eq hn]
  cases b <;> simp [bind, Except.bind, pure, Except.pure]

/-- An insertion can be put off to a node if it can on all ways there, or if it is moved there in
the first place. -/
lemma apply_eq (hsafe : g.size ≤ safe.size) (hearliest : g.size ≤ earliest.size) (hn : n < g.size)
    (met : Bool) : (equation g safe earliest).apply n met =
      .ok (decide (met = true ∨ (safe.Holds n ∧ earliest.Holds n))) := by
  simp only [equation, FactVector.holds_eq (hn.trans_le hsafe),
    FactVector.holds_eq (hn.trans_le hearliest)]
  by_cases hs : safe.Holds n <;> cases met <;> simp [hs, bind, Except.bind, pure, Except.pure]

/-- The equations of delayability are monotone. -/
lemma isMonotone (hsafe : g.size ≤ safe.size) (hearliest : g.size ≤ earliest.size) :
    (equation g safe earliest).IsMonotone g where
  term m hm := by
    refine rising_of_eq_decide (term_eq hm) ?_
    rintro ⟨_, hfalse⟩
    exact absurd hfalse Bool.false_ne_true
  apply n hn := rising_of_eq_decide (apply_eq hsafe hearliest hn) fun _ => Or.inl rfl

/-- An insertion can be put off to a resolved node if it can be put off past all predecessors, or
if the node is down-safe and earliest. -/
lemma holds_iff {v : FactVector} (hsafe : g.size ≤ safe.size) (hearliest : g.size ≤ earliest.size)
    (h : v.Solves (equation g safe earliest) g seeding)
    (hn : Direction.forward.Region g seeding n) (hb : n ≠ g.entry) :
    v.Holds n ↔ (safe.Holds n ∧ earliest.Holds n) ∨
      ∀ p, g.Edge p n → Direction.forward.Region g seeding p → p ∉ g.usedNodes ∧ v.Holds p := by
  obtain ⟨met, hmet, happly⟩ := h.isSolution.conjunction rfl hn hb
  rw [apply_eq hsafe hearliest hn.lt, Except.ok.injEq, decide_eq_decide, hmet] at happly
  rw [← happly, or_comm]
  refine or_congr_right (forall_congr' fun p => forall_congr' fun hp => forall_congr' fun hr => ?_)
  rw [term_eq hr.lt, Except.ok.injEq, decide_eq_true_iff, decide_eq_true_iff]

/-- No insertion can be put off to the entry. -/
lemma not_holds_entry {v : FactVector} (h : v.Solves (equation g safe earliest) g seeding) :
    ¬ v.Holds g.entry := by
  intro hentry
  exact Bool.false_ne_true (h.holds_boundary.mp hentry)

end Delay

/-! ## Latestness -/

namespace Latest

variable {delay v : FactVector}

/-- Checking all nodes of a list one by one. -/
lemma allM_holds {l : List Nat} (hl : ∀ m ∈ l, m < delay.size) :
    l.allM delay.holds = .ok (decide (∀ m ∈ l, delay.Holds m)) := by
  induction l with
  | nil => rfl
  | cons m l ih =>
    have hm := FactVector.holds_eq (hl m (by simp))
    have htail := ih fun m' hm' => hl m' (by simp [hm'])
    rw [List.allM, hm, htail]
    by_cases h : delay.Holds m <;> simp [h, bind, Except.bind, pure, Except.pure]

/-- The rule for one node. -/
lemma exists_isLatest (hsize : delay.size = g.size) (hn : n < g.size) :
    ∃ b, isLatest g delay n = .ok b ∧
      (b = true ↔ delay.Holds n ∧ (n ∈ g.usedNodes ∨ ∃ s, g.Edge n s ∧ ¬ delay.Holds s)) := by
  obtain ⟨successors, hs⟩ := Direction.exists_sources (d := .backward) hn
  have hsucc : g.succ n = .ok successors := hs
  have hmem (s : Nat) : s ∈ successors ↔ g.Edge n s := (FlowGraph.succ_eq_ok_iff.mp hsucc).2 s
  have hall : successors.toList.allM delay.holds =
      .ok (decide (∀ s ∈ successors.toList, delay.Holds s)) :=
    allM_holds fun s h => hsize ▸ (FlowGraph.lt_of_edge ((hmem s).mp h)).2
  have honward : (∃ s, g.Edge n s ∧ ¬ delay.Holds s) ↔
      ¬ ∀ s ∈ successors.toList, delay.Holds s := by
    simp only [not_forall, exists_prop, NodeSet.mem_toList, hmem]
  rw [honward]
  simp only [isLatest, hsucc, FactVector.holds_eq (hsize ▸ hn), FlowGraph.isUsed_eq hn, bind,
    Except.bind, hall]
  by_cases hd : delay.Holds n <;> simp [hd, pure, Except.pure]

/-- The latest nodes can always be computed. -/
lemma exists_analyze (hsize : delay.size = g.size) : ∃ v, analyze g delay = .ok v := by
  obtain ⟨real, hreal⟩ : ∃ real, g.realNodes.toList.mapM (isLatest g delay) = .ok real := by
    refine exists_mapM_eq_ok fun n hn => ?_
    obtain ⟨b, hb, _⟩ := exists_isLatest hsize (FlowGraph.lt_of_mem_realNodes hn)
    exact ⟨b, hb⟩
  exact ⟨⟨.latest, ((false :: real ++ [false]).map Fact.known).toArray⟩, by
    simp only [analyze, hreal]; rfl⟩

/-- The vector of latestness has a value for every node. -/
lemma factAt_ne_unknown (h : analyze g delay = .ok v) (hn : n < v.size) :
    factAt v.facts n ≠ .unknown := by
  simp only [analyze, bind_eq_ok_iff, pure_eq_ok_iff] at h
  obtain ⟨real, -, rfl⟩ := h
  have hlen : n < (false :: real ++ [false]).length := by simpa [FactVector.size] using hn
  have hget : ((false :: real ++ [false]).map Fact.known).toArray[n]? =
      some (.known (false :: real ++ [false])[n]) := by
    rw [List.getElem?_toArray, List.getElem?_map, List.getElem?_eq_getElem hlen]
    rfl
  rw [(getElem?_eq_some_iff_factAt.mp hget).2]
  simp

/-- The vector of latestness gives a value to every node, and it holds at the real nodes that the
rule tells. -/
lemma holds_iff (hsize : delay.size = g.size) (h : analyze g delay = .ok v) :
    v.size = g.size ∧ ∀ n, v.Holds n ↔ g.isReal n = true ∧ delay.Holds n ∧
      (n ∈ g.usedNodes ∨ ∃ s, g.Edge n s ∧ ¬ delay.Holds s) := by
  simp only [analyze, bind_eq_ok_iff, pure_eq_ok_iff] at h
  obtain ⟨real, hreal, rfl⟩ := h
  obtain ⟨hlen, hget⟩ := List.forall₂_iff_get.mp (mapM_eq_ok_iff.mp hreal)
  have hlen' : real.length = g.realCount := by
    rw [← hlen]
    exact List.length_range'
  refine ⟨by simp [FactVector.size, FlowGraph.size, hlen'], fun n => ?_⟩
  have hholds : FactVector.Holds ⟨.latest, ((false :: real ++ [false]).map Fact.known).toArray⟩ n ↔
      (false :: (real ++ [false]))[n]? = some true := by
    rw [FactVector.Holds, FactVector.get?, List.getElem?_toArray, List.getElem?_map,
      Option.map_eq_some_iff]
    simp
  rw [hholds]
  cases n with
  | zero => simp [FlowGraph.isReal]
  | succ i =>
    rw [List.getElem?_cons_succ]
    by_cases hi : i < g.realCount
    · have hrange : i < g.realNodes.toList.length := by
        rw [hlen, hlen']
        exact hi
      have hnode : g.realNodes.toList.get ⟨i, hrange⟩ = i + 1 := by
        simp [FlowGraph.realNodes, NodeSet.interval, Nat.add_comm]
      obtain ⟨b, hb, hrule⟩ := exists_isLatest hsize
        (show i + 1 < g.size from Nat.add_lt_add_right (Nat.lt_succ_of_lt hi) 1)
      have hreal_i := hget i hrange (hlen'.symm ▸ hi)
      rw [hnode, hb, Except.ok.injEq, List.get_eq_getElem] at hreal_i
      rw [List.getElem?_append_left (hlen'.symm ▸ hi), List.getElem?_eq_getElem (hlen'.symm ▸ hi),
        Option.some.injEq, ← hreal_i, hrule]
      simp [FlowGraph.isReal, Nat.succ_le_of_lt hi]
    · rw [List.getElem?_append_right (by omega)]
      have hfalse : [false][i - real.length]? ≠ some true := by
        intro htrue
        exact Bool.false_ne_true (List.mem_singleton.mp (List.mem_of_getElem? htrue)).symm
      simp only [hfalse, false_iff, FlowGraph.isReal, Bool.and_eq_true, decide_eq_true_iff]
      omega

end Latest

/-! ## Isolation -/

namespace Isolated

variable {latest : FactVector}

/-- No later node reads a value across a node where a new insertion comes first, or across one
that neither uses it nor has a later node that does. -/
lemma term_eq_of_lt (hlatest : n < latest.size) (hn : n < g.size) (b : Bool) :
    (equation g latest).term n b =
      .ok (decide (latest.Holds n ∨ (n ∉ g.usedNodes ∧ b = true))) := by
  simp only [equation, FactVector.holds_eq hlatest, FlowGraph.isUsed_eq hn]
  by_cases hl : latest.Holds n <;> cases b <;> simp [hl, bind, Except.bind, pure, Except.pure]

/-- This is the rule for all nodes if the vector of latestness has a fact for each of them. -/
lemma term_eq (hsize : g.size ≤ latest.size) (hn : n < g.size) (b : Bool) :
    (equation g latest).term n b =
      .ok (decide (latest.Holds n ∨ (n ∉ g.usedNodes ∧ b = true))) :=
  term_eq_of_lt (hn.trans_le hsize) hn b

/-- The equations of isolation are monotone. -/
lemma isMonotone (hsize : g.size ≤ latest.size) : (equation g latest).IsMonotone g where
  term m hm := by
    refine rising_of_eq_decide (term_eq hsize hm) ?_
    rintro (hl | ⟨_, hfalse⟩)
    · exact Or.inl hl
    · exact absurd hfalse Bool.false_ne_true
  apply _ _ := ⟨false, true, rfl, rfl, fun _ => rfl⟩

/-- A resolved node is isolated if every successor is latest, or does not use the expression and
is isolated. -/
lemma holds_iff {v : FactVector} (hsize : g.size ≤ latest.size)
    (h : v.Solves (equation g latest) g seeding) (hn : Direction.backward.Region g seeding n)
    (hb : n ≠ g.exit) :
    v.Holds n ↔ ∀ s, g.Edge n s → Direction.backward.Region g seeding s →
      latest.Holds s ∨ (s ∉ g.usedNodes ∧ v.Holds s) := by
  obtain ⟨met, hmet, happly⟩ := h.isSolution.conjunction rfl hn hb
  obtain rfl : met = decide (v.Holds n) := Except.ok.inj happly
  rw [decide_eq_true_iff] at hmet
  rw [hmet]
  refine forall_congr' fun s => forall_congr' fun hs => forall_congr' fun hr => ?_
  rw [term_eq hsize hr.lt, Except.ok.injEq, decide_eq_true_iff, decide_eq_true_iff]

end Isolated

/-! ## Eager runs -/

/-- **What an eager run computes.** If the system is monotone, the loop of the solver ends and the
run settles, every node has a value, and the boundary has its own. The values satisfy the equations
of all nodes but the boundary, and they are the extreme solution: a solution that has the value of
the boundary there, or is bounded by it there, is bounded by them at all nodes. The systems of code
motion are monotone, whatever vectors with a fact for every node they read. -/
theorem solve_eager_isExtreme (g : FlowGraph) :
    (∀ e : Equation, e.IsMonotone g → ∃ (s : SolverState) (v : Nat → Bool), s.Ends e g .eager ∧
      solve e g .eager = .ok (.settled s.finish) ∧ s.finish.facts.size = g.size ∧
      (∀ n < g.size, s.finish.facts[n]? = some (.known (v n))) ∧
      v (e.direction.boundary g) = e.boundary ∧ e.IsSolution g (· < g.size) v ∧
      ∀ w : Nat → Bool, e.IsSolution g (· < g.size) w →
        ((∀ n < g.size, e.extreme.Le (w n) (v n)) ↔
          e.extreme.Le (w (e.direction.boundary g)) e.boundary)) ∧
    (DownSafety.equation g).IsMonotone g ∧
    (∀ safe : FactVector, g.size ≤ safe.size → (Earliest.equation g safe).IsMonotone g) ∧
    (∀ safe earliest : FactVector, g.size ≤ safe.size → g.size ≤ earliest.size →
      (Delay.equation g safe earliest).IsMonotone g) ∧
    ∀ latest : FactVector, g.size ≤ latest.size → (Isolated.equation g latest).IsMonotone g := by
  refine ⟨fun e he => ?_, DownSafety.isMonotone g, fun _ => Earliest.isMonotone,
    fun _ _ => Delay.isMonotone, fun _ => Isolated.isMonotone⟩
  obtain ⟨s, hs, hends⟩ := exists_solve he .eager
  obtain ⟨hboundary, hsolution, hextreme⟩ := hends.isExtreme he
  exact ⟨s, s.value, hends, hs, hends.invariants.1.size_facts,
    fun n hn => hends.getElem?_of_region hn, hboundary, hsolution, hextreme⟩

/-- Both values of the loop satisfy its equation, and an eager run finds the greater one. -/
theorem solve_eager_selfLoop : ∃ s : SolverState,
    solve (DownSafety.equation selfLoop) selfLoop .eager = .ok (.settled s.finish) ∧
      s.finish.facts = #[.known true, .known true, .known false, .known false] ∧
      ∀ w : Nat → Bool, (DownSafety.equation selfLoop).IsSolution selfLoop (· < selfLoop.size) w →
        w selfLoop.exit = false → w 2 = false := by
  obtain ⟨s, v, _, hs, _, hv, _, _, hextreme⟩ :=
    (solve_eager_isExtreme selfLoop).1 _ (DownSafety.isMonotone selfLoop)
  have hfacts : s.finish.facts = #[.known true, .known true, .known false, .known false] := by
    obtain ⟨r, hr, hfacts⟩ : ∃ r,
        solve (DownSafety.equation selfLoop) selfLoop .eager = .ok (.settled r) ∧
          r.facts = #[.known true, .known true, .known false, .known false] := ⟨_, rfl, rfl⟩
    rw [eq_of_settled hs hr, hfacts]
  refine ⟨s, hs, hfacts, fun w hw hexit => ?_⟩
  have hle := (hextreme w hw).mpr (fun htrue => hexit.symm.trans htrue) 2 (by decide)
  have hv2 : v 2 = false := by
    have h2 := hv 2 (by decide)
    rw [hfacts] at h2
    exact (Fact.known.inj (Option.some.inj h2)).symm
  rw [hv2] at hle
  exact Bool.eq_false_iff.mpr fun htrue => Bool.false_ne_true (hle htrue)

end PartialRedundancy
