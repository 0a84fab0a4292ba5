import PartialRedundancy.Proofs.Motion.Ordering

/-!
# A session and its listener

A phase tells its listener every update, and keeps its vectors when its analyses are made. Here each
of these things happens at its own time, and a step that fails leaves behind whatever it has done
until then. It turns out to have done nothing: a phase looks for all the vectors that it needs
before it tells or keeps anything, and on the vectors that a session holds its analyses succeed.

## Main definitions

* `Observed` — a session and the updates that its listener was told.
* `Observed.Step` — what can be done with it, with the state that a failure leaves behind.
* `Observed.run`, `Observed.runAll`, `Observed.execute` — a phase, all phases, and a command.
* `Observed.after` — an observed session after a sequence of commands.

## Main results

* `Observed.execute_of_ok`, `Observed.execute_of_error` — a command succeeds or fails as that of the
  session does; where it fails, nothing has happened.
* `Observed.session_after` — the session goes through the same states as one without a listener.
* `after_refuses_iff` — which commands and which requests fail, and with which error.
-/

namespace PartialRedundancy

/-- A session, and the updates that its listener was told so far. -/
structure Observed where
  /-- The session. -/
  session : Session
  /-- The updates, in order. -/
  updates : List Update

namespace Observed

/-- A new session, of which nothing was told. -/
def new (g : FlowGraph) (options : SessionOptions) : Observed := ⟨.new g options, []⟩

/-- What can be done with an observed session. If it fails, what it has done until then stays. -/
abbrev Step := EStateM SessionError Observed

/-- Tells the listener the updates of an analysis. -/
def tell (r : AnalysisRun) : Step Unit :=
  modify fun o => { o with updates := o.updates ++ r.updates }

/-- Changes the session. -/
def keep (change : Session → Session) : Step Unit :=
  modify fun o => { o with session := change o.session }

/-- Runs a phase. -/
def run : Phase → Step Unit
  | .downSafety => do
    let s := (← get).session
    let r ← MonadExcept.ofExcept (Session.compute (DownSafety.analyze s.graph s.options.seeding))
    tell r
    keep fun s => { s with downSafety := r.vector }
  | .earliest => do
    let s := (← get).session
    let safe ← MonadExcept.ofExcept (s.require (.phase .earliest) .downSafety)
    let r ← MonadExcept.ofExcept (Session.compute (Earliest.analyze s.graph safe s.options.seeding))
    tell r
    keep fun s => { s with earliest := r.vector }
  | .delay => do
    let s := (← get).session
    let safe ← MonadExcept.ofExcept (s.require (.phase .delay) .downSafety)
    let earliest ← MonadExcept.ofExcept (s.require (.phase .delay) .earliest)
    let r ← MonadExcept.ofExcept
      (Session.compute (Delay.analyze s.graph safe earliest s.options.seeding))
    tell r
    let latest ← MonadExcept.ofExcept (Session.compute (Latest.analyze s.graph r.vector))
    keep fun s => { s with delay := r.vector }
    keep fun s => { s with latest := latest }
  | .isolated => do
    let s := (← get).session
    let latest ← MonadExcept.ofExcept (s.require (.phase .isolated) .latest)
    let r ← MonadExcept.ofExcept
      (Session.compute (Isolated.analyze s.graph latest s.options.seeding))
    tell r
    keep fun s => { s with isolated := r.vector }

/-- Runs phases one after the other. -/
def runPhases : List Phase → Step Unit
  | [] => return
  | phase :: rest => do
    run phase
    runPhases rest

/-- Runs every phase, in order, and decides where the expression is computed. -/
def runAll : Step Placement := do
  runPhases [.downSafety, .earliest, .delay, .isolated]
  MonadExcept.ofExcept (← get).session.placement

/-- Carries out a command. -/
def execute : Command → Step Unit
  | .run phase => run phase
  | .runAll => do
    let _ ← runAll
    return

/-- The observed session after a sequence of commands, of which some may fail. -/
def after (o : Observed) (cs : List Command) : Observed :=
  cs.foldl (fun o c => stateLeft (execute c o)) o

variable {o o' : Observed} {g : FlowGraph} {seeding : Seeding} {V : Vectors} {phase : Phase}
  {t : Session} {r : AnalysisRun} {rs : List AnalysisRun} {e : SessionError} {c : Command}

/-! ## Phases -/

/-- What is told is known to the listener afterwards. -/
lemma bind_tell {β : Type} (r : AnalysisRun) (k : Unit → Step β) :
    (tell r >>= k) o = k () ⟨o.session, o.updates ++ r.updates⟩ := rfl

/-- A phase that succeeds makes the session that it makes without a listener, and tells the updates
of its run. -/
lemma run_of_ok (h : o.session.run phase = .ok (t, r)) :
    run phase o = .ok () ⟨t, o.updates ++ r.updates⟩ := by
  cases Session.run_eq_ok_iff.mp h with
  | downSafety hr =>
    rw [run, bind_get, bind_ofExcept_of_ok (Session.compute_eq_ok_iff.mpr hr)]
    rfl
  | earliest hsafe hr =>
    rw [run, bind_get, bind_ofExcept_of_ok (Session.require_eq_ok_iff.mpr hsafe),
      bind_ofExcept_of_ok (Session.compute_eq_ok_iff.mpr hr)]
    rfl
  | delay hsafe hearliest hr hlatest =>
    rw [run, bind_get, bind_ofExcept_of_ok (Session.require_eq_ok_iff.mpr hsafe),
      bind_ofExcept_of_ok (Session.require_eq_ok_iff.mpr hearliest),
      bind_ofExcept_of_ok (Session.compute_eq_ok_iff.mpr hr), bind_tell,
      bind_ofExcept_of_ok (Session.compute_eq_ok_iff.mpr hlatest)]
    rfl
  | isolated hlatest hr =>
    rw [run, bind_get, bind_ofExcept_of_ok (Session.require_eq_ok_iff.mpr hlatest),
      bind_ofExcept_of_ok (Session.compute_eq_ok_iff.mpr hr)]
    rfl

/-- A phase that is refused has done nothing: it looks for its vectors first. -/
lemma run_of_refuses (h : o.session.Refuses (.phase phase) phase.needs e) :
    run phase o = .error e o := by
  cases phase with
  | downSafety => exact absurd h Session.not_refuses_nil
  | earliest =>
    rcases Session.refuses_cons.mp h with ⟨hsafe, rfl⟩ | ⟨_, h⟩
    · rw [run, bind_get, bind_ofExcept_of_error (Session.require_of_not_has hsafe _)]
    · exact absurd h Session.not_refuses_nil
  | delay =>
    rcases Session.refuses_cons.mp h with ⟨hsafe, rfl⟩ | ⟨hsafe, h⟩
    · rw [run, bind_get, bind_ofExcept_of_error (Session.require_of_not_has hsafe _)]
    · obtain ⟨_, _, hrequire⟩ := hsafe.exists_require (.phase .delay)
      rcases Session.refuses_cons.mp h with ⟨hearliest, rfl⟩ | ⟨_, h⟩
      · rw [run, bind_get, bind_ofExcept_of_ok hrequire,
          bind_ofExcept_of_error (Session.require_of_not_has hearliest _)]
      · exact absurd h Session.not_refuses_nil
  | isolated =>
    rcases Session.refuses_cons.mp h with ⟨hlatest, rfl⟩ | ⟨_, h⟩
    · rw [run, bind_get, bind_ofExcept_of_error (Session.require_of_not_has hlatest _)]
    · exact absurd h Session.not_refuses_nil

/-- Phases in a row that succeed make the session that they make without a listener, and tell the
updates of their runs. -/
lemma runPhases_of_ok {phases : List Phase} (h : o.session.runPhases phases = .ok (t, rs)) :
    runPhases phases o = .ok () ⟨t, o.updates ++ rs.flatMap AnalysisRun.updates⟩ := by
  induction phases generalizing o rs with
  | nil =>
    obtain ⟨rfl, rfl⟩ := Prod.mk.inj (pure_eq_ok_iff.mp h)
    simp [runPhases, pure, EStateM.pure]
  | cons phase phases ih =>
    simp only [Session.runPhases, bind_eq_ok_iff, pure_eq_ok_iff] at h
    obtain ⟨⟨u, r⟩, hu, ⟨v, rs'⟩, hv, heq⟩ := h
    obtain ⟨rfl, rfl⟩ := Prod.mk.inj heq
    rw [runPhases, bind_of_ok (run_of_ok hu), ih (o := ⟨u, o.updates ++ r.updates⟩) hv]
    simp

/-! ## Commands -/

/-- A full run of a coherent session succeeds, as it does without a listener. -/
lemma runAll_of_ok (hs : o.session.Coherent g seeding V) (hV : V.Computed g seeding)
    (h : o.session.runAll = .ok (t, rs)) :
    ∃ P, t.placement = .ok P ∧
      runAll o = .ok P ⟨t, o.updates ++ rs.flatMap AnalysisRun.updates⟩ := by
  obtain ⟨t', rs', hrun, hcoherent, hvectors⟩ := hs.exists_runAll hV
  obtain ⟨rfl, rfl⟩ := Prod.mk.inj (Except.ok.inj (hrun.symm.trans h))
  obtain ⟨P, hP⟩ := Placement.exists_classify hV
  have hplacement := hcoherent.placement_eq_ok_iff.mpr ⟨hvectors, hP⟩
  refine ⟨P, hplacement, ?_⟩
  rw [runAll, bind_of_ok (runPhases_of_ok h), bind_get, hplacement]
  rfl

/-- A command of a coherent session that succeeds makes the session that it makes without a
listener, and tells the updates of its runs. -/
lemma execute_of_ok (hs : o.session.Coherent g seeding V) (hV : V.Computed g seeding)
    (h : o.session.execute c = .ok (t, rs)) :
    execute c o = .ok () ⟨t, o.updates ++ rs.flatMap AnalysisRun.updates⟩ := by
  cases c with
  | run phase =>
    simp only [Session.execute, Session.runPhases, bind_eq_ok_iff, pure_eq_ok_iff] at h
    obtain ⟨⟨u, r⟩, hu, _, rfl, heq⟩ := h
    obtain ⟨rfl, rfl⟩ := Prod.mk.inj heq
    rw [List.flatMap_singleton]
    exact run_of_ok hu
  | runAll =>
    obtain ⟨P, _, hrun⟩ := runAll_of_ok hs hV h
    rw [execute, bind_of_ok hrun]
    rfl

/-- A command of a coherent session that fails has done nothing. -/
lemma execute_of_error (hs : o.session.Coherent g seeding V) (hV : V.Computed g seeding)
    (h : o.session.execute c = .error e) : execute c o = .error e o := by
  cases c with
  | run phase =>
    have hrun : o.session.run phase = .error e :=
      (bind_eq_error_iff_of_exists fun result _ => ⟨(result.1, [result.2]), rfl⟩).mp h
    exact run_of_refuses ((hs.run_eq_error_iff hV).mp hrun)
  | runAll =>
    obtain ⟨t, rs, hrun, _⟩ := hs.exists_runAll hV
    cases hrun.symm.trans h

/-- A command that has failed fails without a listener too, and it has done nothing. -/
lemma eq_of_execute_eq_error (hs : o.session.Coherent g seeding V) (hV : V.Computed g seeding)
    (h : execute c o = .error e o') : o.session.execute c = .error e ∧ o' = o := by
  cases hexecute : o.session.execute c with
  | error e' =>
    cases h.symm.trans (execute_of_error hs hV hexecute)
    exact ⟨rfl, rfl⟩
  | ok result => cases h.symm.trans (execute_of_ok hs hV hexecute)

/-- A command that has succeeded succeeds without a listener too, and what it has told are the
updates of its runs. -/
lemma exists_of_execute_eq_ok (hs : o.session.Coherent g seeding V) (hV : V.Computed g seeding)
    (h : execute c o = .ok () o') :
    ∃ rs, o.session.execute c = .ok (o'.session, rs) ∧
      o'.updates = o.updates ++ rs.flatMap AnalysisRun.updates := by
  cases hexecute : o.session.execute c with
  | error e => cases h.symm.trans (execute_of_error hs hV hexecute)
  | ok result =>
    cases h.symm.trans (execute_of_ok hs hV hexecute)
    exact ⟨result.2, rfl, rfl⟩

/-- Whatever a command does, it does to the session what it does without a listener. -/
lemma session_stateLeft (hs : o.session.Coherent g seeding V) (hV : V.Computed g seeding) :
    (stateLeft (execute c o)).session = o.session.after [c] := by
  unfold Session.after
  cases h : execute c o with
  | error e o' =>
    obtain ⟨hexecute, rfl⟩ := eq_of_execute_eq_error hs hV h
    rw [hexecute]
    rfl
  | ok a o' =>
    obtain ⟨rs, hexecute, _⟩ := exists_of_execute_eq_ok hs hV h
    rw [hexecute]
    rfl

/-- The session goes through the same states as one without a listener. -/
lemma session_after (hs : o.session.Coherent g seeding V) (hV : V.Computed g seeding)
    (cs : List Command) : (o.after cs).session = o.session.after cs := by
  induction cs generalizing o with
  | nil => rfl
  | cons c cs ih =>
    have hstate := session_stateLeft (c := c) hs hV
    have hcoherent : (stateLeft (execute c o)).session.Coherent g seeding V :=
      hstate ▸ hs.after hV [c]
    rw [Session.after_cons, ← hstate]
    exact ih hcoherent

end Observed

/-- **A session refuses exactly what comes too early, and then nothing happens.** Take the session
that any commands lead to, in whatever order they come, however often they are repeated and
whichever of them fail; what they have made decides everything. Down-safety and a full run never
fail. Earliestness fails exactly if down-safety was not made, delayability exactly if down-safety
was not made, which is named first, or else earliestness, and isolation exactly if latestness was
not made. The vectors, the placement and the report fail exactly if some vector was not made, and
they name the first one, which is never latestness. With a listener the session goes through the
same states. A command that fails leaves everything as it was, the vectors and the options as well
as what was told; one that succeeds makes the same session and tells the updates of its runs. -/
theorem after_refuses_iff (g : FlowGraph) (options : SessionOptions) (cs : List Command)
    {made : Analysis → Prop} (hmade : made = (Session.new g options).Produced cs)
    {s : Session} (hs : s = (Session.new g options).after cs)
    {o : Observed} (ho : o = (Observed.new g options).after cs) :
    (∃ t r, s.run .downSafety = .ok (t, r)) ∧
    (∃ t rs P, s.runAll = .ok (t, rs) ∧ t.placement = .ok P) ∧
    (∀ e, s.run .earliest = .error e ↔
      ¬ made .downSafety ∧ e = .outOfOrder (.phase .earliest) .downSafety) ∧
    (∀ e, s.run .delay = .error e ↔
      (¬ made .downSafety ∧ e = .outOfOrder (.phase .delay) .downSafety) ∨
      (made .downSafety ∧ ¬ made .earliest ∧ e = .outOfOrder (.phase .delay) .earliest)) ∧
    (∀ e, s.run .isolated = .error e ↔
      ¬ made .latest ∧ e = .outOfOrder (.phase .isolated) .latest) ∧
    (∀ e, s.vectors = .error e ↔
      ∃ a, FirstMissing made Analysis.all a ∧ a ≠ .latest ∧ e = .outOfOrder .placement a) ∧
    (∀ e, s.placement = .error e ↔ s.vectors = .error e) ∧
    (∀ e, s.report = .error e ↔ s.vectors = .error e) ∧
    o.session = s ∧
    (∀ c e o', Observed.execute c o = .error e o' → s.execute c = .error e ∧ o' = o) ∧
    ∀ c o', Observed.execute c o = .ok () o' → ∃ rs, s.execute c = .ok (o'.session, rs) ∧
      o'.updates = o.updates ++ rs.flatMap AnalysisRun.updates := by
  obtain ⟨seeding⟩ := options
  obtain ⟨V, hV⟩ := Vectors.exists_computed g seeding
  have hnew := Session.coherent_new g seeding V
  have hcoherent : s.Coherent g seeding V := hs ▸ hnew.after hV cs
  have hstaged : s.Staged := hs ▸ (Session.staged_new g ⟨seeding⟩).after cs
  have hsession : o.session = s := by
    rw [ho, hs]
    exact Observed.session_after hnew hV cs
  obtain rfl : made = s.Has := by
    rw [hmade, hs]
    exact funext fun a => propext Session.has_after_new_iff.symm
  have hphase (phase : Phase) (e : SessionError) : s.run phase = .error e ↔
      s.Refuses (.phase phase) phase.needs e := hcoherent.run_eq_error_iff hV
  obtain ⟨P, hP⟩ := Placement.exists_classify hV
  refine ⟨hcoherent.exists_run hV (by simp [Phase.needs]), ?_, fun e => ?_, fun e => ?_,
    fun e => ?_, fun e => ?_, fun e => ?_, fun e => ?_, hsession, fun c e o' h => ?_, fun c o' h => ?_⟩
  · obtain ⟨t, rs, hrun, ht, hvectors⟩ := hcoherent.exists_runAll hV
    exact ⟨t, rs, P, hrun, ht.placement_eq_ok_iff.mpr ⟨hvectors, hP⟩⟩
  · simp [hphase, Phase.needs, Session.refuses_cons, Session.not_refuses_nil]
  · simp [hphase, Phase.needs, Session.refuses_cons, Session.not_refuses_nil]
  · simp [hphase, Phase.needs, Session.refuses_cons, Session.not_refuses_nil]
  · rw [Session.vectors_eq_error_iff]
    constructor
    · rintro ⟨a, ha, he⟩
      exact ⟨a, ha, hstaged.ne_latest_of_firstMissing ha, he⟩
    · rintro ⟨a, ha, _, he⟩
      exact ⟨a, ha, he⟩
  · rw [hcoherent.placement_eq_error_iff hV, Session.vectors_eq_error_iff]
  · rw [hcoherent.report_eq_error_iff hV, Session.vectors_eq_error_iff]
  · rw [← hsession]
    exact Observed.eq_of_execute_eq_error (hsession ▸ hcoherent) hV h
  · rw [← hsession]
    exact Observed.exists_of_execute_eq_ok (hsession ▸ hcoherent) hV h

/-- Isolation is asked for too early, and then down-safety is made. After that delayability still
comes too early, because of earliestness, and so does the placement; the listener has been told of
down-safety, and hears nothing more from the phase that fails. -/
theorem refuses_useAfterChange : ∃ s o,
    s = (Session.new useAfterChange ⟨.eager⟩).after [.run .isolated, .run .downSafety] ∧
    o = (Observed.new useAfterChange ⟨.eager⟩).after [.run .isolated, .run .downSafety] ∧
    s.run .delay = .error (.outOfOrder (.phase .delay) .earliest) ∧
    s.placement = .error (.outOfOrder .placement .earliest) ∧
    o.session = s ∧ o.updates ≠ [] ∧
    Observed.execute (.run .delay) o = .error (.outOfOrder (.phase .delay) .earliest) o := by
  obtain ⟨_, _, _, hdelay, _, hvectors, hplacement, _, hsession, herror, _⟩ :=
    after_refuses_iff useAfterChange ⟨.eager⟩ [.run .isolated, .run .downSafety] rfl rfl rfl
  have hsafe : (Session.new useAfterChange ⟨.eager⟩).Produced
      [.run .isolated, .run .downSafety] .downSafety :=
    ⟨[.run .isolated], .run .downSafety, [], rfl, .head _, ⟨_, rfl⟩⟩
  have hearliest : ¬ (Session.new useAfterChange ⟨.eager⟩).Produced
      [.run .isolated, .run .downSafety] .earliest := by
    rintro ⟨before, c, after, h, hc, _⟩
    have hmem : c ∈ [Command.run .isolated, .run .downSafety] := by simp [h]
    rcases List.mem_cons.mp hmem with rfl | hmem
    · exact absurd hc (by decide)
    · obtain rfl := List.mem_singleton.mp hmem
      exact absurd hc (by decide)
  have hmissing := (hvectors (.outOfOrder .placement .earliest)).mpr
    ⟨.earliest, ⟨[.downSafety], _, rfl, by simpa using hsafe, hearliest⟩, by simp, rfl⟩
  obtain ⟨o', hfailed⟩ : ∃ o', Observed.execute (.run .delay) ((Observed.new useAfterChange
      ⟨.eager⟩).after [.run .isolated, .run .downSafety]) =
        .error (.outOfOrder (.phase .delay) .earliest) o' := ⟨_, rfl⟩
  obtain ⟨_, rfl⟩ := herror _ _ _ hfailed
  exact ⟨_, _, rfl, rfl, (hdelay _).mpr (.inr ⟨hsafe, hearliest, rfl⟩),
    (hplacement _).mpr hmissing, hsession, by decide, hfailed⟩

end PartialRedundancy
