import PartialRedundancy.Proofs.Motion.Bounds
import PartialRedundancy.Proofs.Motion.Coherence

/-!
# What a session refuses

A session refuses what is asked for too early, and nothing else. Which vectors are there is decided
by the commands that came before: a vector is there exactly if one of them succeeded and ran the
phase that makes it. A request that needs several vectors names the first one that is missing.

## Main definitions

* `FirstMissing` — the first analysis of a list that is not made.
* `Session.Refuses` — the error of a request that needs the vectors of some analyses.
* `Command.phases` — the phases that a command runs.
* `Session.Produced` — an earlier command has made a vector.

## Main results

* `Session.Coherent.run_eq_error_iff` — a phase is refused exactly if a vector that it reads is
  missing.
* `Session.vectors_eq_error_iff`, `Session.Coherent.placement_eq_error_iff`,
  `Session.Coherent.report_eq_error_iff` — what needs all vectors is refused if one is missing.
* `Session.has_after_iff` — the vectors that are there are those that were made.
* `Session.Staged.ne_latest_of_firstMissing` — latestness is never the first to be missing.
-/

namespace PartialRedundancy

/-! ## The first that is missing -/

/-- `a` is the first analysis of a list that is not made. -/
def FirstMissing (made : Analysis → Prop) (as : List Analysis) (a : Analysis) : Prop :=
  ∃ before after, as = before ++ a :: after ∧ (∀ b ∈ before, made b) ∧ ¬ made a

section FirstMissing

variable {made : Analysis → Prop} {as : List Analysis} {a b : Analysis}

/-- Of no analyses none is missing. -/
@[simp] lemma not_firstMissing_nil : ¬ FirstMissing made [] a := by
  rintro ⟨before, after, h, _⟩
  simp at h

/-- The first of a list is missing, or it is made and another one is missing. -/
lemma firstMissing_cons :
    FirstMissing made (b :: as) a ↔ (¬ made b ∧ a = b) ∨ (made b ∧ FirstMissing made as a) := by
  constructor
  · rintro ⟨before, after, h, hmade, ha⟩
    rcases List.cons_eq_append_iff.mp h with ⟨rfl, hlist⟩ | ⟨before, rfl, hrest⟩
    · obtain ⟨rfl, _⟩ := List.cons.inj hlist
      exact Or.inl ⟨ha, rfl⟩
    · obtain ⟨hb, hbefore⟩ := List.forall_mem_cons.mp hmade
      exact Or.inr ⟨hb, before, after, hrest, hbefore, ha⟩
  · rintro (⟨hb, rfl⟩ | ⟨hb, before, after, rfl, hbefore, ha⟩)
    · exact ⟨[], as, rfl, by simp, hb⟩
    · exact ⟨b :: before, after, rfl, List.forall_mem_cons.mpr ⟨hb, hbefore⟩, ha⟩

end FirstMissing

namespace Session

variable {s t : Session} {g : FlowGraph} {seeding : Seeding} {V : Vectors} {phase : Phase}
  {request : Request} {as : List Analysis} {a : Analysis} {e : SessionError}

/-! ## Refusals -/

/-- The error of a request that needs the vectors of some analyses, if one of them is missing. -/
def Refuses (s : Session) (request : Request) (as : List Analysis) (e : SessionError) : Prop :=
  ∃ a, FirstMissing s.Has as a ∧ e = .outOfOrder request a

/-- A request that needs nothing is not refused. -/
lemma not_refuses_nil : ¬ s.Refuses request [] e := by
  rintro ⟨_, ha, _⟩
  exact not_firstMissing_nil ha

/-- A request is refused because of the first vector, or because of the others. -/
lemma refuses_cons :
    s.Refuses request (a :: as) e ↔
      (¬ s.Has a ∧ e = .outOfOrder request a) ∨ (s.Has a ∧ s.Refuses request as e) := by
  simp only [Refuses, firstMissing_cons]
  constructor
  · rintro ⟨b, ⟨ha, rfl⟩ | ⟨ha, hb⟩, he⟩
    · exact Or.inl ⟨ha, he⟩
    · exact Or.inr ⟨ha, b, hb, he⟩
  · rintro (⟨ha, he⟩ | ⟨ha, b, hb, he⟩)
    · exact ⟨a, Or.inl ⟨ha, rfl⟩, he⟩
    · exact ⟨b, Or.inr ⟨ha, hb⟩, he⟩

/-- A vector that is needed is found if it is there. -/
lemma Has.exists_require (ha : s.Has a) (request : Request) :
    ∃ v, s.vector? a = some v ∧ s.require request a = .ok v := by
  obtain ⟨v, hv⟩ := Option.isSome_iff_exists.mp ha
  exact ⟨v, hv, require_eq_ok_iff.mpr hv⟩

/-- A vector that is needed and not there is what is complained about. -/
lemma require_of_not_has (ha : ¬ s.Has a) (request : Request) :
    s.require request a = .error (.outOfOrder request a) := by
  rw [require, Option.not_isSome_iff_eq_none.mp ha]

/-- Where nothing more is needed, what succeeds is not refused. -/
lemma error_iff_refuses_nil {α : Type} {x : Except SessionError α} (hx : ∃ b, x = .ok b) :
    x = .error e ↔ s.Refuses request [] e := by
  obtain ⟨b, rfl⟩ := hx
  exact iff_of_false (by simp) not_refuses_nil

/-- What needs a vector first is refused if it is missing, and else as what comes afterwards. -/
lemma error_iff_refuses_cons {α : Type} {k : FactVector → Except SessionError α}
    (hk : ∀ v, s.vector? a = some v → (k v = .error e ↔ s.Refuses request as e)) :
    (s.require request a >>= k) = .error e ↔ s.Refuses request (a :: as) e := by
  rw [refuses_cons]
  by_cases ha : s.Has a
  · obtain ⟨v, hv, hrequire⟩ := ha.exists_require request
    rw [hrequire]
    change k v = .error e ↔ _
    simp [hk v hv, ha]
  · rw [require_of_not_has ha]
    change Except.error (.outOfOrder request a) = Except.error e ↔ _
    simp [ha, eq_comm]

/-- A phase of a coherent session is refused exactly if a vector that it reads is missing: where all
of them are there, they are the right ones, and the analysis succeeds on these. -/
lemma Coherent.run_eq_error_iff (hs : s.Coherent g seeding V) (hV : V.Computed g seeding) :
    s.run phase = .error e ↔ s.Refuses (.phase phase) phase.needs e := by
  obtain rfl := hs.graph_eq
  obtain rfl := hs.seeding_eq
  cases phase with
  | downSafety =>
    obtain ⟨r, hr, _⟩ := hV.downSafety
    exact error_iff_refuses_nil ⟨_, bind_eq_ok_iff.mpr ⟨r, compute_eq_ok_iff.mpr hr, rfl⟩⟩
  | earliest =>
    refine error_iff_refuses_cons fun safe hsafe => ?_
    obtain rfl := hs.vector_eq _ _ hsafe
    obtain ⟨r, hr, _⟩ := hV.earliest
    exact error_iff_refuses_nil ⟨_, bind_eq_ok_iff.mpr ⟨r, compute_eq_ok_iff.mpr hr, rfl⟩⟩
  | delay =>
    refine error_iff_refuses_cons fun safe hsafe => ?_
    refine error_iff_refuses_cons fun earliest hearliest => ?_
    obtain rfl := hs.vector_eq _ _ hsafe
    obtain rfl := hs.vector_eq _ _ hearliest
    obtain ⟨r, hr, hvector⟩ := hV.delay
    have hlatest := hV.latest
    rw [← hvector] at hlatest
    exact error_iff_refuses_nil ⟨_, bind_eq_ok_iff.mpr ⟨r, compute_eq_ok_iff.mpr hr,
      bind_eq_ok_iff.mpr ⟨_, compute_eq_ok_iff.mpr hlatest, rfl⟩⟩⟩
  | isolated =>
    refine error_iff_refuses_cons fun latest hlatest => ?_
    obtain rfl := hs.vector_eq _ _ hlatest
    obtain ⟨r, hr, _⟩ := hV.isolated
    exact error_iff_refuses_nil ⟨_, bind_eq_ok_iff.mpr ⟨r, compute_eq_ok_iff.mpr hr, rfl⟩⟩

/-- The vectors are refused exactly if one of them is missing. -/
lemma vectors_eq_error_iff : s.vectors = .error e ↔ s.Refuses .placement Analysis.all e :=
  error_iff_refuses_cons fun _ _ => error_iff_refuses_cons fun _ _ =>
    error_iff_refuses_cons fun _ _ => error_iff_refuses_cons fun _ _ =>
      error_iff_refuses_cons fun _ _ => error_iff_refuses_nil ⟨_, rfl⟩

/-- The placement is refused if the vectors are. -/
lemma Coherent.placement_eq_error_iff (hs : s.Coherent g seeding V) (hV : V.Computed g seeding) :
    s.placement = .error e ↔ s.Refuses .placement Analysis.all e := by
  rw [← vectors_eq_error_iff]
  refine bind_eq_error_iff_of_exists fun V' hV' => ?_
  obtain rfl := hs.eq_of_vectors hV'
  obtain ⟨P, hP⟩ := Placement.exists_classify hV
  rw [hs.graph_eq]
  exact ⟨P, compute_eq_ok_iff.mpr hP⟩

/-- The report is refused if the vectors are. -/
lemma Coherent.report_eq_error_iff (hs : s.Coherent g seeding V) (hV : V.Computed g seeding) :
    s.report = .error e ↔ s.Refuses .placement Analysis.all e := by
  rw [← vectors_eq_error_iff]
  refine bind_eq_error_iff_of_exists fun V' hV' => ?_
  obtain rfl := hs.eq_of_vectors hV'
  obtain ⟨P, hP⟩ := Placement.exists_classify hV
  exact ⟨_, bind_eq_ok_iff.mpr ⟨P, hs.placement_eq_ok_iff.mpr ⟨hV', hP⟩, rfl⟩⟩

/-- Latestness is never the first that is missing, since it comes with delayability. -/
lemma Staged.ne_latest_of_firstMissing (hs : s.Staged) (h : FirstMissing s.Has Analysis.all a) :
    a ≠ .latest := by
  rintro rfl
  simp only [Analysis.all, firstMissing_cons] at h
  obtain ⟨_, h⟩ | ⟨_, ⟨_, h⟩ | ⟨_, ⟨_, h⟩ | ⟨hdelay, ⟨hlatest, _⟩ | ⟨_, ⟨_, h⟩ | ⟨_, h⟩⟩⟩⟩⟩ := h
  · cases h
  · cases h
  · cases h
  · exact hlatest (hs.order.1.mp hdelay)
  · cases h
  · exact not_firstMissing_nil h

end Session

/-! ## Which vectors have been made -/

/-- The phases that a command runs. -/
def Command.phases : Command → List Phase
  | .run phase => [phase]
  | .runAll => [.downSafety, .earliest, .delay, .isolated]

namespace Session

variable {s t : Session} {phase : Phase} {a : Analysis} {c : Command}

/-- An earlier command has made the vector of an analysis: it succeeded, and it runs the phase that
makes the vector. -/
def Produced (s : Session) (cs : List Command) (a : Analysis) : Prop :=
  ∃ before c after, cs = before ++ c :: after ∧ a.phase ∈ c.phases ∧
    ∃ result, (s.after before).execute c = .ok result

/-- A command runs its phases. -/
lemma execute_eq_runPhases (s : Session) (c : Command) : s.execute c = s.runPhases c.phases := by
  cases c <;> rfl

/-- The first command is carried out before the others. -/
lemma after_cons (s : Session) (c : Command) (cs : List Command) :
    s.after (c :: cs) = (s.after [c]).after cs := by
  simp only [after]
  cases s.execute c <;> rfl

/-- Phases in a row add the vectors that they make. -/
lemma has_iff_of_runPhases {phases : List Phase} {rs : List AnalysisRun}
    (h : s.runPhases phases = .ok (t, rs)) : t.Has a ↔ s.Has a ∨ a.phase ∈ phases := by
  induction phases generalizing s rs with
  | nil =>
    obtain ⟨rfl, -⟩ := Prod.mk.inj (pure_eq_ok_iff.mp h)
    simp
  | cons phase phases ih =>
    simp only [Session.runPhases, bind_eq_ok_iff, pure_eq_ok_iff] at h
    obtain ⟨⟨u, r⟩, hu, ⟨v, rs'⟩, hv, heq⟩ := h
    obtain ⟨rfl, -⟩ := Prod.mk.inj heq
    have hran := run_eq_ok_iff.mp hu
    have hfirst : u.Has a ↔ s.Has a ∨ a.phase = phase := by
      by_cases hphase : a.phase = phase
      · exact iff_of_true (hran.made hphase) (Or.inr hphase)
      · simp [Has, hran.kept hphase, hphase]
    rw [ih hv, hfirst, List.mem_cons, or_assoc]

/-- A command adds the vectors that its phases make, if it succeeds. -/
lemma has_after_singleton_iff :
    (s.after [c]).Has a ↔
      s.Has a ∨ (a.phase ∈ c.phases ∧ ∃ result, s.execute c = .ok result) := by
  unfold after
  cases hc : s.execute c with
  | error e => simp [after]
  | ok result =>
    obtain ⟨t, rs⟩ := result
    rw [execute_eq_runPhases] at hc
    simp [after, has_iff_of_runPhases hc]

/-- The first command has made a vector, or one of the others has. -/
lemma produced_cons {cs : List Command} :
    s.Produced (c :: cs) a ↔
      (a.phase ∈ c.phases ∧ ∃ result, s.execute c = .ok result) ∨
        (s.after [c]).Produced cs a := by
  constructor
  · rintro ⟨before, d, after, h, hd, hresult⟩
    rcases List.cons_eq_append_iff.mp h with ⟨rfl, hlist⟩ | ⟨before, rfl, hrest⟩
    · obtain ⟨rfl, _⟩ := List.cons.inj hlist
      exact Or.inl ⟨hd, hresult⟩
    · rw [after_cons] at hresult
      exact Or.inr ⟨before, d, after, hrest, hd, hresult⟩
  · rintro (⟨hc, hresult⟩ | ⟨before, d, after, rfl, hd, hresult⟩)
    · exact ⟨[], c, cs, rfl, hc, hresult⟩
    · refine ⟨c :: before, d, after, rfl, hd, ?_⟩
      rwa [after_cons]

/-- The vectors that are there are those that were there and those that were made.

**Proof sketch.** Induction on the commands. Each one adds what its phases make, if it succeeds. -/
lemma has_after_iff {cs : List Command} : (s.after cs).Has a ↔ s.Has a ∨ s.Produced cs a := by
  induction cs generalizing s with
  | nil => simp [after, Produced]
  | cons c cs ih => rw [after_cons, ih, has_after_singleton_iff, produced_cons, or_assoc]

/-- A new session has the vectors that were made. -/
lemma has_after_new_iff {g : FlowGraph} {options : SessionOptions} {cs : List Command} :
    ((new g options).after cs).Has a ↔ (new g options).Produced cs a := by
  rw [has_after_iff]
  cases a <;> simp [Has, new, vector?]

end Session

end PartialRedundancy
