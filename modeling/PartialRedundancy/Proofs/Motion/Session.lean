import PartialRedundancy.Motion.Session
import PartialRedundancy.Proofs.Motion.Placement

/-!
# Sessions only hold the vectors of their graph

However often and in whatever order its phases run, a session only holds vectors that five
analyses of its graph in a row give.

## Main definitions

* `Session.after` — a session after a sequence of commands.
* `Session.Coherent` — the vectors that are there are the vectors of the graph.
* `Session.Ran` — what running a phase does.
* `Finished` — the vectors and the placement of a session that has all of them.

## Main results

* `Session.run_eq_ok_iff` — when a phase succeeds, and what it does then.
* `Session.after_preserves` — what every phase preserves, any commands do.
* `Session.Coherent.run` — every phase keeps a session coherent.
* `exists_finished` — every graph has a finished session.
* `Finished.computed` — a finished session holds the vectors of its graph and their placement.
-/

namespace PartialRedundancy

variable {g : FlowGraph} {seeding : Seeding} {V : Vectors} {P : Placement}

/-- The vector of an analysis. -/
def Vectors.vector (V : Vectors) : Analysis → FactVector
  | .downSafety => V.downSafety
  | .earliest => V.earliest
  | .delay => V.delay
  | .latest => V.latest
  | .isolated => V.isolated

/-- Every vector of a graph has a fact for every node. -/
lemma Vectors.Computed.size_vector (h : V.Computed g seeding) (a : Analysis) :
    (V.vector a).size = g.size := by
  cases a with
  | downSafety => exact h.solves_downSafety.size_eq
  | earliest => exact h.solves_earliest.size_eq
  | delay => exact h.solves_delay.size_eq
  | latest => exact h.size_latest
  | isolated => exact h.solves_isolated.size_eq

namespace Session

variable {s t : Session}

/-- The session after a sequence of commands. A command that fails changes nothing. -/
def after (s : Session) : List Command → Session
  | [] => s
  | c :: cs =>
    match s.execute c with
    | .ok (t, _) => t.after cs
    | .error _ => s.after cs

/-- The session is about graph `g`, and the vectors that it holds are those of `V`. -/
structure Coherent (s : Session) (g : FlowGraph) (seeding : Seeding) (V : Vectors) : Prop where
  /-- The session is about the graph. -/
  graph_eq : s.graph = g
  /-- The session has the options. -/
  seeding_eq : s.options.seeding = seeding
  /-- A vector that is there is the right one. -/
  vector_eq : ∀ a v, s.vector? a = some v → v = V.vector a

/-- A new session is coherent, since it holds no vectors. -/
lemma coherent_new (g : FlowGraph) (seeding : Seeding) (V : Vectors) :
    (new g ⟨seeding⟩).Coherent g seeding V := by
  refine ⟨rfl, rfl, fun a v h => ?_⟩
  cases a <;> exact absurd h (Option.some_ne_none v).symm

/-- A computation of a session succeeds if the computation does. -/
lemma compute_eq_ok_iff {α : Type} {x : Except OutOfBounds α} {a : α} :
    compute x = .ok a ↔ x = .ok a := by
  cases x <;> simp [compute, Except.mapError]

/-- A vector that is needed is found if it is there. -/
lemma require_eq_ok_iff {request : Request} {a : Analysis} {v : FactVector} :
    s.require request a = .ok v ↔ s.vector? a = some v := by
  unfold require
  cases s.vector? a <;> simp

/-- What the phases of a session do, each with the vectors that it reads and the run that it makes.
-/
inductive Ran (s : Session) : Phase → AnalysisRun → Session → Prop
  /-- Down-safety only reads the graph. -/
  | downSafety {r : AnalysisRun} (hr : DownSafety.analyze s.graph s.options.seeding = .ok r) :
      Ran s .downSafety r { s with downSafety := r.vector }
  /-- Earliestness reads down-safety. -/
  | earliest {r : AnalysisRun} {safe : FactVector} (hsafe : s.vector? .downSafety = some safe)
      (hr : Earliest.analyze s.graph safe s.options.seeding = .ok r) :
      Ran s .earliest r { s with earliest := r.vector }
  /-- Delayability reads both, and latestness is made from it at once. -/
  | delay {r : AnalysisRun} {safe earliest latest : FactVector}
      (hsafe : s.vector? .downSafety = some safe) (hearliest : s.vector? .earliest = some earliest)
      (hr : Delay.analyze s.graph safe earliest s.options.seeding = .ok r)
      (hlatest : Latest.analyze s.graph r.vector = .ok latest) :
      Ran s .delay r { s with delay := r.vector, latest := latest }
  /-- Isolation reads latestness. -/
  | isolated {r : AnalysisRun} {latest : FactVector} (hlatest : s.vector? .latest = some latest)
      (hr : Isolated.analyze s.graph latest s.options.seeding = .ok r) :
      Ran s .isolated r { s with isolated := r.vector }

/-- A phase succeeds exactly if it can do what it does. -/
lemma run_eq_ok_iff {phase : Phase} {r : AnalysisRun} :
    s.run phase = .ok (t, r) ↔ s.Ran phase r t := by
  constructor
  · intro h
    cases phase <;> simp only [Session.run, bind_eq_ok_iff, pure_eq_ok_iff, compute_eq_ok_iff,
      require_eq_ok_iff, Prod.mk.injEq] at h
    case downSafety =>
      obtain ⟨_, hr, rfl, rfl⟩ := h
      exact .downSafety hr
    case earliest =>
      obtain ⟨_, hsafe, _, hr, rfl, rfl⟩ := h
      exact .earliest hsafe hr
    case delay =>
      obtain ⟨_, hsafe, _, hearliest, _, hr, _, hlatest, rfl, rfl⟩ := h
      exact .delay hsafe hearliest hr hlatest
    case isolated =>
      obtain ⟨_, hlatest, _, hr, rfl, rfl⟩ := h
      exact .isolated hlatest hr
  · intro h
    cases h <;> simp only [Session.run, bind_eq_ok_iff, pure_eq_ok_iff, compute_eq_ok_iff,
      require_eq_ok_iff]
    case downSafety hr => exact ⟨_, hr, rfl⟩
    case earliest hsafe hr => exact ⟨_, hsafe, _, hr, rfl⟩
    case delay hsafe hearliest hr hlatest => exact ⟨_, hsafe, _, hearliest, _, hr, _, hlatest, rfl⟩
    case isolated hlatest hr => exact ⟨_, hlatest, _, hr, rfl⟩

/-- A needed vector of a coherent session is the right one. -/
lemma Coherent.eq_of_require (hs : s.Coherent g seeding V) {request : Request} {a : Analysis}
    {v : FactVector} (h : s.require request a = .ok v) : v = V.vector a :=
  hs.vector_eq a v (require_eq_ok_iff.mp h)

/-- An analysis has only one result. -/
lemma vector_eq_of_exists {x : Except OutOfBounds AnalysisRun} {v : FactVector} {r : AnalysisRun}
    (h : ∃ r₀, x = .ok r₀ ∧ r₀.vector = v) (hr : x = .ok r) : r.vector = v := by
  obtain ⟨r₀, hr₀, hv⟩ := h
  rw [hr, Except.ok.injEq] at hr₀
  rw [hr₀, hv]

/-- Every phase keeps a session coherent.

**Proof sketch.** The vectors that a phase reads are those of `V`, so it makes the same analysis
that made `V`, and this has only one result. -/
lemma Coherent.run (hs : s.Coherent g seeding V) (hV : V.Computed g seeding) {phase : Phase}
    {r : AnalysisRun} (h : s.run phase = .ok (t, r)) : t.Coherent g seeding V := by
  obtain rfl := hs.graph_eq
  obtain rfl := hs.seeding_eq
  cases run_eq_ok_iff.mp h with
  | downSafety hr =>
    have hv := vector_eq_of_exists hV.downSafety hr
    refine ⟨rfl, rfl, fun a v ha => ?_⟩
    cases a with
    | downSafety => exact (Option.some.inj ha).symm.trans hv
    | _ => exact hs.vector_eq _ v ha
  | earliest hsafe hr =>
    obtain rfl := hs.vector_eq _ _ hsafe
    have hv := vector_eq_of_exists hV.earliest hr
    refine ⟨rfl, rfl, fun a v ha => ?_⟩
    cases a with
    | earliest => exact (Option.some.inj ha).symm.trans hv
    | _ => exact hs.vector_eq _ v ha
  | delay hsafe hearliest hr hlatest =>
    obtain rfl := hs.vector_eq _ _ hsafe
    obtain rfl := hs.vector_eq _ _ hearliest
    have hv := vector_eq_of_exists hV.delay hr
    rw [hv, hV.latest, Except.ok.injEq] at hlatest
    refine ⟨rfl, rfl, fun a v ha => ?_⟩
    cases a with
    | delay => exact (Option.some.inj ha).symm.trans hv
    | latest => exact (Option.some.inj ha).symm.trans hlatest.symm
    | _ => exact hs.vector_eq _ v ha
  | isolated hlatest hr =>
    obtain rfl := hs.vector_eq _ _ hlatest
    have hv := vector_eq_of_exists hV.isolated hr
    refine ⟨rfl, rfl, fun a v ha => ?_⟩
    cases a with
    | isolated => exact (Option.some.inj ha).symm.trans hv
    | _ => exact hs.vector_eq _ v ha

/-- What every phase preserves, phases in a row do. -/
lemma runPhases_preserves {Q : Session → Prop}
    (hrun : ∀ s t phase r, Q s → s.run phase = .ok (t, r) → Q t) {phases : List Phase} (hs : Q s)
    {rs : List AnalysisRun} (h : s.runPhases phases = .ok (t, rs)) : Q t := by
  induction phases generalizing s rs with
  | nil =>
    obtain ⟨rfl, -⟩ := Prod.mk.inj (pure_eq_ok_iff.mp h)
    exact hs
  | cons phase phases ih =>
    simp only [Session.runPhases, bind_eq_ok_iff, pure_eq_ok_iff] at h
    obtain ⟨⟨u, r⟩, hu, ⟨v, rs'⟩, hv, heq⟩ := h
    obtain ⟨rfl, -⟩ := Prod.mk.inj heq
    exact ih (hrun s u phase r hs hu) hv

/-- What every phase preserves, any commands do. -/
lemma after_preserves {Q : Session → Prop}
    (hrun : ∀ s t phase r, Q s → s.run phase = .ok (t, r) → Q t) (hs : Q s) (cs : List Command) :
    Q (s.after cs) := by
  induction cs generalizing s with
  | nil => exact hs
  | cons c cs ih =>
    unfold Session.after
    cases hc : s.execute c with
    | error => exact ih hs
    | ok p =>
      obtain ⟨t, rs⟩ := p
      refine ih ?_
      cases c with
      | run phase => exact runPhases_preserves hrun hs hc
      | runAll => exact runPhases_preserves hrun hs hc

/-- Any commands keep a session coherent. -/
lemma Coherent.after (hs : s.Coherent g seeding V) (hV : V.Computed g seeding)
    (cs : List Command) : (s.after cs).Coherent g seeding V :=
  after_preserves (Q := fun s => s.Coherent g seeding V) (fun _ _ _ _ hs h => hs.run hV h) hs cs

/-- The vectors of a coherent session that has all of them are the right ones. -/
lemma Coherent.eq_of_vectors (hs : s.Coherent g seeding V) {V' : Vectors}
    (h : s.vectors = .ok V') : V' = V := by
  simp only [Session.vectors, bind_eq_ok_iff, pure_eq_ok_iff] at h
  obtain ⟨_, h₁, _, h₂, _, h₃, _, h₄, _, h₅, rfl⟩ := h
  obtain rfl := hs.eq_of_require h₁
  obtain rfl := hs.eq_of_require h₂
  obtain rfl := hs.eq_of_require h₃
  obtain rfl := hs.eq_of_require h₄
  obtain rfl := hs.eq_of_require h₅
  rfl

/-- A coherent session that has all vectors tells their placement. -/
lemma Coherent.placement_eq_ok_iff (hs : s.Coherent g seeding V) :
    s.placement = .ok P ↔ s.vectors = .ok V ∧ Placement.classify g V = .ok P := by
  simp only [Session.placement, bind_eq_ok_iff, compute_eq_ok_iff, hs.graph_eq]
  constructor
  · rintro ⟨V', hV', hP⟩
    obtain rfl := hs.eq_of_vectors hV'
    exact ⟨hV', hP⟩
  · rintro ⟨hV, hP⟩
    exact ⟨V, hV, hP⟩

/-- Running every phase succeeds, and then all vectors are there. -/
lemma Coherent.exists_runAll (hs : s.Coherent g seeding V) (hV : V.Computed g seeding) :
    ∃ t rs, s.runAll = .ok (t, rs) ∧ t.Coherent g seeding V ∧ t.vectors = .ok V := by
  obtain ⟨t, rs, hrun, hvectors⟩ : ∃ t rs, s.runAll = .ok (t, rs) ∧ t.vectors = .ok V := by
    obtain ⟨graph, ⟨seed⟩, safe₀, earliest₀, delay₀, latest₀, isolated₀⟩ := s
    obtain rfl : graph = g := hs.graph_eq
    obtain rfl : seed = seeding := hs.seeding_eq
    obtain ⟨safe, hsafe, hsv⟩ := hV.downSafety
    obtain ⟨earliest, hearliest, hev⟩ := hV.earliest
    obtain ⟨delay, hdelay, hdv⟩ := hV.delay
    obtain ⟨isolated, hisolated, hiv⟩ := hV.isolated
    have hlatest := hV.latest
    refine ⟨⟨graph, ⟨seed⟩, some V.downSafety, some V.earliest, some V.delay, some V.latest,
      some V.isolated⟩, [safe, earliest, delay, isolated], ?_, rfl⟩
    simp only [runAll, Session.runPhases, Session.run, require, vector?, compute, hsafe, hsv, bind,
      Except.bind, Except.mapError, pure, Except.pure, hearliest, hev, hdelay, hdv, hlatest,
      hisolated, hiv]
  have hcoherent : t.Coherent g seeding V := runPhases_preserves
    (Q := fun s => s.Coherent g seeding V) (fun _ _ _ _ hs h => hs.run hV h) hs hrun
  exact ⟨t, rs, hrun, hcoherent, hvectors⟩

end Session

/-! ## Finished sessions -/

/-- Some session of graph `g` has the vectors `V`, all five of them, and the placement `P`. -/
def Finished (g : FlowGraph) (seeding : Seeding) (V : Vectors) (P : Placement) : Prop :=
  ∃ cs : List Command, ((Session.new g ⟨seeding⟩).after cs).vectors = .ok V ∧
    ((Session.new g ⟨seeding⟩).after cs).placement = .ok P

/-- Every graph has a finished session. -/
lemma exists_finished (g : FlowGraph) (seeding : Seeding) : ∃ V P, Finished g seeding V P := by
  obtain ⟨V, hV⟩ := Vectors.exists_computed g seeding
  obtain ⟨P, hP⟩ := Placement.exists_classify hV
  obtain ⟨t, rs, hrun, hcoherent, ht⟩ := (Session.coherent_new g seeding V).exists_runAll hV
  have hafter : (Session.new g ⟨seeding⟩).after [.runAll] = t := by
    rw [Session.after, Session.execute, hrun]
    rfl
  refine ⟨V, P, [.runAll], hafter ▸ ht, ?_⟩
  rw [hafter]
  exact hcoherent.placement_eq_ok_iff.mpr ⟨ht, hP⟩

/-- A session that can tell its placement is finished. -/
lemma exists_finished_of_placement (cs : List Command)
    (h : ((Session.new g ⟨seeding⟩).after cs).placement = .ok P) : ∃ V, Finished g seeding V P := by
  have hplacement := h
  simp only [Session.placement, bind_eq_ok_iff] at h
  obtain ⟨V, hV, _⟩ := h
  exact ⟨V, cs, hV, hplacement⟩

/-- A finished session holds the vectors of its graph and their placement. -/
lemma Finished.computed (h : Finished g seeding V P) :
    V.Computed g seeding ∧ Placement.classify g V = .ok P := by
  obtain ⟨cs, hvectors, hplacement⟩ := h
  obtain ⟨V₀, hV₀⟩ := Vectors.exists_computed g seeding
  have hs := (Session.coherent_new g seeding V₀).after hV₀ cs
  obtain rfl := hs.eq_of_vectors hvectors
  exact ⟨hV₀, (hs.placement_eq_ok_iff.mp hplacement).2⟩

end PartialRedundancy
