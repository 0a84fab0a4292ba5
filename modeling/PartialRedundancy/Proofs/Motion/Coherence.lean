import PartialRedundancy.Graph.Declaration
import PartialRedundancy.Proofs.Motion.Session

/-!
# Sessions agree with a single full run

A session may run its phases in any order and as often as it likes, and some of them too early. An
early phase that runs again does not clear what later phases have made from its vector. Still no
vector is ever out of date: each one that is there is the one that a new session ends with when it
runs every phase once.

## Main definitions

* `codeMotion` — the vectors and the placement of a single full run.
* `Analysis.phase`, `Phase.needs` — which phase makes a vector, and which vectors a phase reads.
* `Session.Has` — a vector is there.
* `Session.Staged` — no vector is there without those that its phase makes and reads.

## Main results

* `exists_codeMotion` — a full run succeeds.
* `Session.Staged.run` — every phase keeps a session staged.
* `Session.Coherent.run_eq_self` — a phase that runs again changes nothing.
* `after_agrees_codeMotion` — whatever its commands are, a session agrees with a full run.
-/

namespace PartialRedundancy

/-- What a new session has after it has run every phase: all vectors, and the placement. -/
def codeMotion (g : FlowGraph) (options : SessionOptions) :
    Except SessionError (Vectors × Placement) := do
  let (s, _) ← (Session.new g options).runAll
  return (← s.vectors, ← s.placement)

/-- The phase that makes the vector of an analysis. -/
def Analysis.phase : Analysis → Phase
  | .downSafety => .downSafety
  | .earliest => .earliest
  | .delay => .delay
  | .latest => .delay
  | .isolated => .isolated

/-- The analyses whose vectors a phase reads. -/
def Phase.needs : Phase → List Analysis
  | .downSafety => []
  | .earliest => [.downSafety]
  | .delay => [.downSafety, .earliest]
  | .isolated => [.latest]

variable {g : FlowGraph} {seeding : Seeding} {V : Vectors} {P : Placement}

namespace Session

variable {s t : Session} {phase : Phase} {r : AnalysisRun} {a : Analysis}

/-- The vector of an analysis is there. -/
def Has (s : Session) (a : Analysis) : Prop := (s.vector? a).isSome = true

instance (s : Session) (a : Analysis) : Decidable (s.Has a) :=
  inferInstanceAs (Decidable ((s.vector? a).isSome = true))

/-! ## What a phase changes -/

namespace Ran

lemma graph_eq (h : s.Ran phase r t) : t.graph = s.graph := by
  cases h <;> rfl

lemma options_eq (h : s.Ran phase r t) : t.options = s.options := by
  cases h <;> rfl

/-- The vectors that a phase reads have to be there. -/
lemma needed (h : s.Ran phase r t) : ∀ a ∈ phase.needs, s.Has a := by
  cases h with
  | downSafety => simp [Phase.needs]
  | earliest hsafe => simp [Phase.needs, Has, hsafe]
  | delay hsafe hearliest => simp [Phase.needs, Has, hsafe, hearliest]
  | isolated hlatest => simp [Phase.needs, Has, hlatest]

/-- The vectors that a phase makes are there afterwards. -/
lemma made (h : s.Ran phase r t) (ha : a.phase = phase) : t.Has a := by
  subst ha
  cases a <;> cases h <;> rfl

/-- The other vectors stay what they are. -/
lemma kept (h : s.Ran phase r t) (ha : a.phase ≠ phase) : t.vector? a = s.vector? a := by
  cases h with
  | downSafety =>
    cases a with
    | downSafety => exact absurd rfl ha
    | _ => rfl
  | earliest =>
    cases a with
    | earliest => exact absurd rfl ha
    | _ => rfl
  | delay =>
    cases a with
    | delay | latest => exact absurd rfl ha
    | _ => rfl
  | isolated =>
    cases a with
    | isolated => exact absurd rfl ha
    | _ => rfl

/-- No vector is lost. -/
lemma has (h : s.Ran phase r t) (ha : s.Has a) : t.Has a := by
  by_cases hphase : a.phase = phase
  · exact h.made hphase
  · rwa [Has, h.kept hphase]

end Ran

/-! ## The order of the vectors -/

/-- A vector is only there together with the other vector that its phase makes, if there is one, and
with the vectors that its phase reads. -/
def Staged (s : Session) : Prop :=
  ∀ a, s.Has a → (∀ b : Analysis, b.phase = a.phase → s.Has b) ∧ ∀ b ∈ a.phase.needs, s.Has b

lemma staged_new (g : FlowGraph) (options : SessionOptions) : (new g options).Staged := by
  intro a ha
  cases a <;> exact absurd ha Bool.false_ne_true

/-- Every phase keeps a session staged.

**Proof sketch.** A vector that is there afterwards was made by the phase, together with all that
the phase makes and from vectors that were there; or it was there before, with those of its own
phase. No vector is lost. -/
lemma Staged.run (hs : s.Staged) (h : s.run phase = .ok (t, r)) : t.Staged := by
  have hran := run_eq_ok_iff.mp h
  intro a ha
  by_cases hphase : a.phase = phase
  · subst hphase
    exact ⟨fun b hb => hran.made hb, fun b hb => hran.has (hran.needed b hb)⟩
  · rw [Has, hran.kept hphase] at ha
    obtain ⟨hmade, hneeded⟩ := hs a ha
    exact ⟨fun b hb => hran.has (hmade b hb), fun b hb => hran.has (hneeded b hb)⟩

/-- Any commands keep a session staged. -/
lemma Staged.after (hs : s.Staged) (cs : List Command) : (s.after cs).Staged :=
  after_preserves (fun _ _ _ _ hs h => Staged.run hs h) hs cs

/-- No commands remove a vector. -/
lemma Has.after (ha : s.Has a) (cs : List Command) : (s.after cs).Has a :=
  after_preserves (Q := fun s => s.Has a) (fun _ _ _ _ ha h => (run_eq_ok_iff.mp h).has ha) ha cs

/-- In a staged session the vectors are there in the order in which they are made. -/
lemma Staged.order (hs : s.Staged) :
    (s.Has .delay ↔ s.Has .latest) ∧ (s.Has .isolated → s.Has .latest) ∧
      (s.Has .latest → s.Has .earliest) ∧ (s.Has .earliest → s.Has .downSafety) := by
  refine ⟨⟨fun h => (hs _ h).1 .latest rfl, fun h => (hs _ h).1 .delay rfl⟩, fun h => ?_,
    fun h => ?_, fun h => ?_⟩
  · exact (hs _ h).2 .latest (by simp [Analysis.phase, Phase.needs])
  · exact (hs _ h).2 .earliest (by simp [Analysis.phase, Phase.needs])
  · exact (hs _ h).2 .downSafety (by simp [Analysis.phase, Phase.needs])

/-! ## Coherent sessions -/

/-- A vector of a coherent session that is there is the right one. -/
lemma Coherent.vector?_eq (hs : s.Coherent g seeding V) (ha : s.Has a) :
    s.vector? a = some (V.vector a) := by
  obtain ⟨v, hv⟩ := Option.isSome_iff_exists.mp ha
  rw [hv, hs.vector_eq a v hv]

/-- A phase whose vectors are there succeeds. -/
lemma Coherent.exists_run (hs : s.Coherent g seeding V) (hV : V.Computed g seeding)
    (hneeds : ∀ a ∈ phase.needs, s.Has a) : ∃ t r, s.run phase = .ok (t, r) := by
  obtain rfl := hs.graph_eq
  obtain rfl := hs.seeding_eq
  simp only [run_eq_ok_iff]
  cases phase with
  | downSafety =>
    obtain ⟨r, hr, -⟩ := hV.downSafety
    exact ⟨_, _, .downSafety hr⟩
  | earliest =>
    have hsafe := hs.vector?_eq (hneeds .downSafety (by simp [Phase.needs]))
    obtain ⟨r, hr, -⟩ := hV.earliest
    exact ⟨_, _, .earliest hsafe hr⟩
  | delay =>
    have hsafe := hs.vector?_eq (hneeds .downSafety (by simp [Phase.needs]))
    have hearliest := hs.vector?_eq (hneeds .earliest (by simp [Phase.needs]))
    obtain ⟨r, hr, hv⟩ := hV.delay
    have hlatest := hV.latest
    rw [← hv] at hlatest
    exact ⟨_, _, .delay hsafe hearliest hr hlatest⟩
  | isolated =>
    have hlatest := hs.vector?_eq (hneeds .latest (by simp [Phase.needs]))
    obtain ⟨r, hr, -⟩ := hV.isolated
    exact ⟨_, _, .isolated hlatest hr⟩

/-- Sessions with the same vectors about the same graph are equal. -/
lemma eq_of_vector? (hgraph : t.graph = s.graph) (hoptions : t.options = s.options)
    (hvector : ∀ a, t.vector? a = s.vector? a) : t = s := by
  have hsafe := hvector .downSafety
  have hearliest := hvector .earliest
  have hdelay := hvector .delay
  have hlatest := hvector .latest
  have hisolated := hvector .isolated
  cases s
  cases t
  simp_all [vector?]

/-- A phase whose own vectors are there already succeeds again, and nothing changes. -/
lemma Coherent.run_eq_self (hs : s.Coherent g seeding V) (hV : V.Computed g seeding)
    (hstaged : s.Staged) (ha : s.Has a) : ∃ r, s.run a.phase = .ok (s, r) := by
  obtain ⟨hmade, hneeded⟩ := hstaged a ha
  obtain ⟨t, r, ht⟩ := hs.exists_run hV hneeded
  have hran := run_eq_ok_iff.mp ht
  have hvector (b : Analysis) : t.vector? b = s.vector? b := by
    by_cases hb : b.phase = a.phase
    · rw [(hs.run hV ht).vector?_eq (hran.made hb), hs.vector?_eq (hmade b hb)]
    · exact hran.kept hb
  obtain rfl := eq_of_vector? hran.graph_eq hran.options_eq hvector
  exact ⟨r, ht⟩

end Session

/-! ## A full run -/

/-- A full run succeeds, with the vectors of the graph and their placement. -/
lemma exists_codeMotion (g : FlowGraph) (seeding : Seeding) :
    ∃ V P, codeMotion g ⟨seeding⟩ = .ok (V, P) ∧ V.Computed g seeding ∧
      Placement.classify g V = .ok P := by
  obtain ⟨V, hV⟩ := Vectors.exists_computed g seeding
  obtain ⟨P, hP⟩ := Placement.exists_classify hV
  obtain ⟨t, rs, hrun, hcoherent, ht⟩ := (Session.coherent_new g seeding V).exists_runAll hV
  refine ⟨V, P, ?_, hV, hP⟩
  simp only [codeMotion, bind_eq_ok_iff, pure_eq_ok_iff]
  exact ⟨(t, rs), hrun, V, ht, P, hcoherent.placement_eq_ok_iff.mpr ⟨ht, hP⟩, rfl⟩

/-- **Whatever its commands are, a session agrees with a full run.** Take the session that any
commands lead to, in whatever order they come, however often they are repeated and whichever of them
fail. A vector that is there is the one of a full run, the vectors are there in the order in which
they are made, and no further commands ever remove or replace one. A phase whose vector is there
succeeds again and leaves the session as it is. All phases in order succeed and give all vectors and
the placement of a full run, and a session that can tell its placement tells that one. The flips
that a phase reports are no part of the session, so nobody who listens to them plays a part. -/
theorem after_agrees_codeMotion (g : FlowGraph) (options : SessionOptions) :
    ∃ V P, codeMotion g options = .ok (V, P) ∧
      ∀ cs s, (Session.new g options).after cs = s →
        (∀ a v, s.vector? a = some v → v = V.vector a) ∧
        ((s.Has .delay ↔ s.Has .latest) ∧ (s.Has .isolated → s.Has .latest) ∧
          (s.Has .latest → s.Has .earliest) ∧ (s.Has .earliest → s.Has .downSafety)) ∧
        (∀ ds a, s.Has a → (s.after ds).vector? a = s.vector? a) ∧
        (∀ a, s.Has a → ∃ r, s.run a.phase = .ok (s, r)) ∧
        (∃ t rs, s.runAll = .ok (t, rs) ∧ t.vectors = .ok V ∧ t.placement = .ok P) ∧
        ∀ P', s.placement = .ok P' → P' = P := by
  obtain ⟨seeding⟩ := options
  obtain ⟨V, P, hrun, hV, hP⟩ := exists_codeMotion g seeding
  refine ⟨V, P, hrun, ?_⟩
  rintro cs s rfl
  have hs := (Session.coherent_new g seeding V).after hV cs
  have hstaged := (Session.staged_new g ⟨seeding⟩).after cs
  refine ⟨hs.vector_eq, hstaged.order, fun ds a ha => ?_, fun a ha => hs.run_eq_self hV hstaged ha,
    ?_, fun P' hP' => ?_⟩
  · rw [(hs.after hV ds).vector?_eq (ha.after ds), hs.vector?_eq ha]
  · obtain ⟨t, rs, hall, hcoherent, ht⟩ := hs.exists_runAll hV
    exact ⟨t, rs, hall, ht, hcoherent.placement_eq_ok_iff.mpr ⟨ht, hP⟩⟩
  · have hclassify := (hs.placement_eq_ok_iff.mp hP').2
    exact Except.ok.inj (hclassify.symm.trans hP)

/-- Three real nodes in a row, of which the second changes an operand and the third uses the
expression. -/
def useAfterChange : FlowGraph :=
  [Declaration.edge 1 2, .edge 2 3, .killed 2, .used 3].foldl FlowGraph.attempt (.bare 3)

/-- Delayability is asked for too early, then every phase runs, and down-safety runs once more; the
vector of isolation, which was made before that, is still the right one. -/
theorem agrees_useAfterChange : ∃ s V r,
    (Session.new useAfterChange ⟨.eager⟩).after
      [.run .downSafety, .run .delay, .runAll, .run .downSafety] = s ∧
    codeMotion useAfterChange ⟨.eager⟩ = .ok (V, ⟨.ofList [3], ∅, .ofList [3], ∅⟩) ∧
    s.vector? .isolated = some V.isolated ∧ s.run .earliest = .ok (s, r) ∧
    s.placement = .ok ⟨.ofList [3], ∅, .ofList [3], ∅⟩ := by
  obtain ⟨V, P, hrun, hsessions⟩ := after_agrees_codeMotion useAfterChange ⟨.eager⟩
  have hplacement : ((Session.new useAfterChange ⟨.eager⟩).after
      [.run .downSafety, .run .delay, .runAll, .run .downSafety]).placement =
        .ok ⟨.ofList [3], ∅, .ofList [3], ∅⟩ := rfl
  have hisolated : ((Session.new useAfterChange ⟨.eager⟩).after
      [.run .downSafety, .run .delay, .runAll, .run .downSafety]).Has .isolated := rfl
  have hearliest : ((Session.new useAfterChange ⟨.eager⟩).after
      [.run .downSafety, .run .delay, .runAll, .run .downSafety]).Has .earliest := rfl
  obtain ⟨hvector, _, _, hagain, _, hsame⟩ := hsessions _ _ rfl
  obtain rfl := hsame _ hplacement
  obtain ⟨v, hv⟩ := Option.isSome_iff_exists.mp hisolated
  obtain ⟨r, hr⟩ := hagain _ hearliest
  exact ⟨_, V, r, rfl, hrun, by rw [hv, hvector _ _ hv]; rfl, hr, hplacement⟩

end PartialRedundancy
