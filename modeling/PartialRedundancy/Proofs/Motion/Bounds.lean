import PartialRedundancy.Proofs.Dataflow.Rounds
import PartialRedundancy.Proofs.Failure
import PartialRedundancy.Proofs.Motion.Session
import PartialRedundancy.Report.Basic

/-!
# Every lookup of a session is in bounds

The analyses, the placement and the report look nodes up in the tables of the graph and in the
vectors of earlier analyses. The nodes come from the graph, and every vector has a fact for each of
its nodes. So the only thing that can go wrong in a session is that something is asked for too
early.

## Main definitions

* `TooEarly` — the error of a request that comes too early.
* `Latest.fill` — latestness written into a table, node by node.
* `FactVector.InBounds`, `Equation.InBounds`, `Session.InBounds` — what is looked up in a vector, by
  the solver and in a session is there.

## Main results

* `Session.Coherent.execute_failsOnly` — a command fails only because it comes too early.
* `Session.Coherent.placement_failsOnly`, `Session.Coherent.report_failsOnly` — so do the placement
  and the report.
* `Latest.fill_eq` — latestness can be written into a table of the size of the graph.
* `Session.inBounds_after` — a session is in bounds after any commands.
-/

namespace PartialRedundancy

/-- Something is asked for before an analysis that it needs was made. -/
def TooEarly (e : SessionError) : Prop := ∃ request missing, e = .outOfOrder request missing

namespace Session

variable {s : Session} {g : FlowGraph} {seeding : Seeding} {V : Vectors}

/-- A vector that is needed may be missing. -/
lemma require_failsOnly (s : Session) (request : Request) (a : Analysis) :
    FailsOnly TooEarly (s.require request a) := by
  intro e h
  unfold require at h
  split at h
  · cases h
  · cases h
    exact ⟨request, a, rfl⟩

/-- A computation that succeeds does not fail in a session. -/
lemma compute_failsOnly {α : Type} {P : SessionError → Prop} {x : Except OutOfBounds α}
    (h : ∃ a, x = .ok a) : FailsOnly P (compute x) := by
  obtain ⟨a, ha⟩ := h
  exact .of_ok (compute_eq_ok_iff.mpr ha)

/-- A phase of a coherent session fails only because it comes too early: the vectors that it reads
are the right ones, and on these its analysis succeeds. -/
lemma Coherent.run_failsOnly (hs : s.Coherent g seeding V) (hV : V.Computed g seeding)
    (phase : Phase) : FailsOnly TooEarly (s.run phase) := by
  have hgraph := hs.graph_eq
  have hseeding := hs.seeding_eq
  cases phase with
  | downSafety =>
    obtain ⟨r, hr, _⟩ := hV.downSafety
    rw [← hgraph, ← hseeding] at hr
    exact (compute_failsOnly ⟨r, hr⟩).bind fun _ _ => .of_ok rfl
  | earliest =>
    refine (s.require_failsOnly _ _).bind fun safe hsafe => ?_
    obtain rfl : safe = V.downSafety := hs.eq_of_require hsafe
    obtain ⟨r, hr, _⟩ := hV.earliest
    rw [← hgraph, ← hseeding] at hr
    exact (compute_failsOnly ⟨r, hr⟩).bind fun _ _ => .of_ok rfl
  | delay =>
    refine (s.require_failsOnly _ _).bind fun safe hsafe => ?_
    refine (s.require_failsOnly _ _).bind fun earliest hearliest => ?_
    obtain rfl : safe = V.downSafety := hs.eq_of_require hsafe
    obtain rfl : earliest = V.earliest := hs.eq_of_require hearliest
    obtain ⟨r, hr, hvector⟩ := hV.delay
    have hlatest := hV.latest
    rw [← hgraph, ← hseeding] at hr
    rw [← hgraph, ← hvector] at hlatest
    refine (compute_failsOnly ⟨r, hr⟩).bind fun r' hr' => ?_
    obtain rfl : r = r' := Except.ok.inj (hr.symm.trans (compute_eq_ok_iff.mp hr'))
    exact (compute_failsOnly ⟨_, hlatest⟩).bind fun _ _ => .of_ok rfl
  | isolated =>
    refine (s.require_failsOnly _ _).bind fun latest hlatest => ?_
    obtain rfl : latest = V.latest := hs.eq_of_require hlatest
    obtain ⟨r, hr, _⟩ := hV.isolated
    rw [← hgraph, ← hseeding] at hr
    exact (compute_failsOnly ⟨r, hr⟩).bind fun _ _ => .of_ok rfl

/-- Phases in a row fail only because one of them comes too early. -/
lemma Coherent.runPhases_failsOnly (hs : s.Coherent g seeding V) (hV : V.Computed g seeding)
    (phases : List Phase) : FailsOnly TooEarly (s.runPhases phases) := by
  induction phases generalizing s with
  | nil => exact .of_ok rfl
  | cons phase phases ih =>
    refine (hs.run_failsOnly hV phase).bind fun p hp => ?_
    obtain ⟨t, r⟩ := p
    exact (ih (hs.run hV hp)).bind fun _ _ => .of_ok rfl

/-- A command fails only because it comes too early. -/
lemma Coherent.execute_failsOnly (hs : s.Coherent g seeding V) (hV : V.Computed g seeding)
    (c : Command) : FailsOnly TooEarly (s.execute c) := by
  cases c with
  | run phase => exact hs.runPhases_failsOnly hV [phase]
  | runAll => exact hs.runPhases_failsOnly hV _

/-- The vectors are missing only because they are asked for too early. -/
lemma vectors_failsOnly (s : Session) : FailsOnly TooEarly s.vectors :=
  (s.require_failsOnly _ _).bind fun _ _ => (s.require_failsOnly _ _).bind fun _ _ =>
    (s.require_failsOnly _ _).bind fun _ _ => (s.require_failsOnly _ _).bind fun _ _ =>
      (s.require_failsOnly _ _).bind fun _ _ => .of_ok rfl

/-- The placement is missing only because it is asked for too early. -/
lemma Coherent.placement_failsOnly (hs : s.Coherent g seeding V) (hV : V.Computed g seeding) :
    FailsOnly TooEarly s.placement := by
  refine s.vectors_failsOnly.bind fun V' hV' => ?_
  obtain rfl := hs.eq_of_vectors hV'
  rw [hs.graph_eq]
  exact compute_failsOnly (Placement.exists_classify hV)

/-- The report is missing only because it is asked for too early. -/
lemma Coherent.report_failsOnly (hs : s.Coherent g seeding V) (hV : V.Computed g seeding) :
    FailsOnly TooEarly s.report :=
  s.vectors_failsOnly.bind fun _ _ => (hs.placement_failsOnly hV).bind fun _ _ => .of_ok rfl

end Session

/-! ## Latestness -/

/-- Writes what a step finds at each of `count` places from `first` on.

**Proof sketch.** Induction on the number of places. What is written later stands behind what is
written first. -/
lemma exists_foldlM_store {f : Nat → Except OutOfBounds Bool} {first count : Nat}
    {found : List Bool} (h : (List.range' first count).mapM f = .ok found) (facts : Array Fact)
    (hsize : first + count ≤ facts.size) :
    ∃ facts', (List.range' first count).foldlM
        (fun facts n => do store facts n (.known (← f n))) facts = .ok facts' ∧
      ∀ i, facts'[i]? = if first ≤ i ∧ i < first + count then (found[i - first]?).map Fact.known
        else facts[i]? := by
  induction count generalizing first found facts with
  | zero =>
    refine ⟨facts, rfl, fun i => ?_⟩
    rw [if_neg (by omega)]
  | succ count ih =>
    rw [List.range'_succ, List.mapM_cons] at h
    simp only [bind_eq_ok_iff, pure_eq_ok_iff] at h
    obtain ⟨b, hb, more, hmore, rfl⟩ := h
    have hfirst : first < facts.size := by omega
    obtain ⟨facts', hfacts', hget⟩ :=
      ih hmore (facts.setIfInBounds first (.known b)) (by simpa using by omega)
    refine ⟨facts', ?_, fun i => ?_⟩
    · rw [List.range'_succ, List.foldlM_cons, hb]
      exact bind_eq_ok_iff.mpr ⟨_, store_of_lt hfirst (.known b), hfacts'⟩
    · rw [hget i, Array.getElem?_setIfInBounds]
      by_cases hi : i = first
      · subst hi
        simp [hfirst]
      · by_cases hlt : first ≤ i ∧ i < first + (count + 1)
        · have hsub : i - first = i - (first + 1) + 1 := by omega
          rw [if_pos (by omega), if_pos hlt, hsub, List.getElem?_cons_succ]
        · rw [if_neg (by omega), if_neg hlt, if_neg (fun h => hi h.symm)]

namespace Latest

variable {g : FlowGraph} {delay v : FactVector}

/-- Writes latestness into a table of the size of the graph in which no node is latest. -/
def fill (g : FlowGraph) (delay : FactVector) : Except OutOfBounds (Array Fact) :=
  g.realNodes.toList.foldlM (fun facts n => do store facts n (.known (← isLatest g delay n)))
    (.replicate g.size (.known false))

/-- Latestness can be written into a table, and then it is the vector of the analysis. -/
lemma fill_eq (h : analyze g delay = .ok v) : fill g delay = .ok v.facts := by
  simp only [analyze, bind_eq_ok_iff, pure_eq_ok_iff] at h
  obtain ⟨real, hreal, rfl⟩ := h
  have hlen : real.length = g.realCount := by
    rw [← (mapM_eq_ok_iff.mp hreal).length_eq]
    exact List.length_range'
  obtain ⟨facts, hfacts, hget⟩ := exists_foldlM_store hreal
    (.replicate g.size (.known false)) (by simp [FlowGraph.size]; omega)
  rw [fill, FlowGraph.realNodes, NodeSet.interval, hfacts]
  congr 1
  refine Array.ext_getElem? fun i => ?_
  have hwant : (((false :: real ++ [false]).map Fact.known).toArray)[i]? =
      ((false :: real ++ [false])[i]?).map Fact.known := by
    rw [List.getElem?_toArray, List.getElem?_map]
  refine (hget i).trans (Eq.trans ?_ hwant.symm)
  -- The entry, a real node, the exit, and what is beyond the exit.
  cases i with
  | zero => simp [FlowGraph.size]
  | succ i =>
    obtain hi | rfl | hi := lt_trichotomy i g.realCount
    · have hreal : (real ++ [false])[i]? = real[i]? :=
        List.getElem?_append_left (by omega)
      rw [if_pos (by omega), List.cons_append, List.getElem?_cons_succ, hreal,
        Nat.add_sub_cancel]
    · rw [if_neg (by omega)]
      simp [FlowGraph.size, ← hlen]
    · rw [if_neg (by omega), Array.getElem?_eq_none (by simp [FlowGraph.size]; omega),
        List.getElem?_eq_none (by simp; omega), Option.map_none]

end Latest

/-! ## Everything that is looked up -/

/-- A vector can be looked up at the nodes of a graph, and at no other numbers. -/
structure FactVector.InBounds (v : FactVector) (g : FlowGraph) : Prop where
  /-- Every node has a fact. -/
  size_eq : v.size = g.size
  /-- The real nodes, which are those that are listed, are found. -/
  listed : ∀ n ∈ v.realNodes, ∃ f, v.fact n = .ok f ∧ v.get? n = some f
  /-- The fact of a number is missing only if no node has this number. -/
  fact : ∀ n e, v.fact n = .error e ↔ g.size ≤ n ∧ e = ⟨g.size, n⟩
  /-- The same holds of whether a node is known to be true. -/
  holds : ∀ n e, v.holds n = .error e ↔ g.size ≤ n ∧ e = ⟨g.size, n⟩

/-- A vector of the size of the graph is in bounds. -/
lemma FactVector.inBounds {v : FactVector} {g : FlowGraph} (hsize : v.size = g.size) :
    v.InBounds g := by
  have hfact (n : Nat) (e : OutOfBounds) : v.fact n = .error e ↔ g.size ≤ n ∧ e = ⟨g.size, n⟩ :=
    fetch_eq_error_iff_of_size hsize
  refine ⟨hsize, fun n hn => ?_, hfact, fun n e => ?_⟩
  · have hlt : n < v.facts.size := by
      obtain ⟨_, hlast⟩ := mem_realNodes.mp hn
      exact Nat.lt_of_succ_lt hlast
    exact ⟨_, fetch_of_lt hlt, Array.getElem?_eq_getElem hlt⟩
  · rw [← hfact, FactVector.holds]
    cases v.fact n with
    | error e' => simp [bind, Except.bind]
    | ok f => simp [bind, Except.bind, pure, Except.pure]

/-- The rounds of the solver look up nodes of the graph, in tables of its size. -/
def Equation.InBounds (e : Equation) (g : FlowGraph) : Prop :=
  ∀ seeding rounds, ∃ s, stateAfter e g seeding rounds = .ok s ∧
    s.facts.size = g.size ∧ s.worklist.queued.size = g.size ∧
    ∀ n ∈ s.worklist.toList, n < g.size ∧ ∃ b, e.evaluate g s.facts n = .ok b

/-- The rounds of the solver are in bounds if the system is total. -/
lemma Equation.IsTotal.inBounds {e : Equation} {g : FlowGraph} (he : e.IsTotal g) :
    e.InBounds g := by
  intro seeding rounds
  obtain ⟨s, hs⟩ := exists_stateAfter he seeding rounds
  have hinv := consistent_of_stateAfter hs
  exact ⟨s, hs, hinv.size_facts, hinv.worklist.size_queued, fun n hn =>
    ⟨hinv.worklist.lt hn, he.exists_evaluate hinv.size_facts (hinv.worklist.lt hn)⟩⟩

namespace Session

variable {s : Session} {g : FlowGraph} {seeding : Seeding} {V : Vectors}

/-- Nothing goes wrong in a session of a graph but that something is asked for too early. -/
structure InBounds (s : Session) (g : FlowGraph) : Prop where
  /-- Every vector of the session has the facts of the nodes. -/
  vector : ∀ a v, s.vector? a = some v → v.InBounds g
  /-- The rounds of down-safety are in bounds. -/
  downSafety : (DownSafety.equation g).InBounds g
  /-- The rounds of earliestness are in bounds. -/
  earliest : ∀ safe, s.vector? .downSafety = some safe → (Earliest.equation g safe).InBounds g
  /-- The rounds of delayability are in bounds. -/
  delay : ∀ safe earliest, s.vector? .downSafety = some safe → s.vector? .earliest = some earliest →
    (Delay.equation g safe earliest).InBounds g
  /-- Latestness can be made, and it can be written into a table. -/
  latest : ∀ delay, s.vector? .delay = some delay →
    ∃ v, Latest.analyze g delay = .ok v ∧ Latest.fill g delay = .ok v.facts
  /-- The rounds of isolation are in bounds. -/
  isolated : ∀ latest, s.vector? .latest = some latest → (Isolated.equation g latest).InBounds g
  /-- A command fails only because it comes too early. -/
  execute : ∀ c, FailsOnly TooEarly (s.execute c)
  /-- The vectors are missing only because they are asked for too early. -/
  vectors : FailsOnly TooEarly s.vectors
  /-- The placement is missing only because it is asked for too early. -/
  placement : FailsOnly TooEarly s.placement
  /-- The report is missing only because it is asked for too early. -/
  report : FailsOnly TooEarly s.report

/-- A coherent session is in bounds, since its vectors have the size of the graph. -/
lemma Coherent.inBounds (hs : s.Coherent g seeding V) (hV : V.Computed g seeding) :
    s.InBounds g := by
  have hsize (a : Analysis) (v : FactVector) (h : s.vector? a = some v) : v.size = g.size := by
    rw [hs.vector_eq a v h]
    exact hV.size_vector a
  exact {
    vector := fun a v h => FactVector.inBounds (hsize a v h)
    downSafety := (DownSafety.isMonotone g).isTotal.inBounds
    earliest := fun safe hsafe => (Earliest.isMonotone (hsize _ _ hsafe).ge).isTotal.inBounds
    delay := fun safe earliest hsafe hearliest =>
      (Delay.isMonotone (hsize _ _ hsafe).ge (hsize _ _ hearliest).ge).isTotal.inBounds
    latest := fun delay hdelay => by
      obtain ⟨v, hv⟩ := Latest.exists_analyze (hsize _ _ hdelay)
      exact ⟨v, hv, Latest.fill_eq hv⟩
    isolated := fun latest hlatest => (Isolated.isMonotone (hsize _ _ hlatest).ge).isTotal.inBounds
    execute := hs.execute_failsOnly hV
    vectors := s.vectors_failsOnly
    placement := hs.placement_failsOnly hV
    report := hs.report_failsOnly hV }

/-- A session is in bounds after any commands. -/
lemma inBounds_after (g : FlowGraph) (options : SessionOptions) (cs : List Command) :
    ((new g options).after cs).InBounds g := by
  obtain ⟨V, hV⟩ := Vectors.exists_computed g options.seeding
  exact ((coherent_new g options.seeding V).after hV cs).inBounds hV

end Session

end PartialRedundancy
