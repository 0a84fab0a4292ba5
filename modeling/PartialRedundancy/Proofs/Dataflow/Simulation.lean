import PartialRedundancy.Proofs.Dataflow.Extremal

/-!
# Comparing the runs of two systems

Two systems of equations, on two graphs and with two seedings, are compared along a relation between
the nodes of the graphs. If the equation of every node is at least as generous as the equations of
the nodes related to it, its run ends with values that are at least as great there. The order in
which the nodes are numbered, queued and evaluated plays no part.

## Main definitions

* `Equation.Dominates` — the equations of one system are at least as generous as the related ones of
  another.
* `Equation.Aligned` — a system descends in the order of its meet, whatever the seeding is.
* `Equation.Alike` — two systems have the same equations at related nodes.
* `Equation.lift` — the facts at the end of one run, as facts on the graph of the other.

## Main results

* `SolverState.Ends.le_of_dominates` — the facts at which a run ends bound the facts of the runs
  that its system dominates.
* `SolverState.Ends.factAt_eq_of_dominates` — systems that dominate each other end with the same
  facts.
* `SolverState.Ends.facts_eq_of_region` — so do two runs of one system that resolve the same nodes.

## Design

The systems that are compared descend in the order of their meets. There a source without a fact is
neutral in every meet, and a source that is left out altogether makes the meet greater. So it is
enough that each source of a node has a counterpart among the sources of the related node.
-/

namespace PartialRedundancy

variable {e e' : Equation} {g g' : FlowGraph} {seeding seeding' : Seeding}
  {rel : Nat → Nat → Prop} {n n' : Nat}

/-- Along the relation `rel`, the equations of `e` on graph `g` are at least as generous as those of
`e'` on graph `g'`, in the order of their common meet. Only the nodes that a run on `g` resolves
matter. -/
structure Equation.Dominates (e : Equation) (g : FlowGraph) (seeding : Seeding)
    (e' : Equation) (g' : FlowGraph) (seeding' : Seeding) (rel : Nat → Nat → Prop) : Prop where
  /-- Both systems combine contributions in the same way. -/
  meet_eq : e'.meet = e.meet
  /-- Nodes related to resolved nodes are resolved. -/
  region : ∀ {n n'}, rel n n' → e.direction.Region g seeding n → e'.direction.Region g' seeding' n'
  /-- Only the boundaries are related to the boundaries. -/
  boundary_iff : ∀ {n n'}, rel n n' →
    (n = e.direction.boundary g ↔ n' = e'.direction.boundary g')
  /-- The boundary has a value that is at least as great. -/
  boundary_le : e.meet.extreme.Le e'.boundary e.boundary
  /-- Every source has a counterpart. -/
  source : ∀ {m n n'}, rel n n' → e.direction.Source g m n → e.direction.Region g seeding m →
    ∃ m', rel m m' ∧ e'.direction.Source g' m' n'
  /-- The contribution of a source is at least as great as those of its counterparts. -/
  term_le : ∀ {m m'}, rel m m' → e.direction.Region g seeding m → ∀ v t t',
    e.term m v = .ok t → e'.term m' v = .ok t' → e.meet.extreme.Le t' t
  /-- What a node makes of a meet is at least as great as what the related nodes make of it. -/
  apply_le : ∀ {n n'}, rel n n' → e.direction.Region g seeding n → ∀ met b b',
    e.apply n met = .ok b → e'.apply n' met = .ok b' → e.meet.extreme.Le b' b

/-- The solution that the system asks for is the one from which its meet moves away. -/
def Equation.Aligned (e : Equation) : Prop := e.extreme = e.meet.extreme

lemma Equation.Aligned.origin_eq (h : e.Aligned) (seeding : Seeding) :
    e.origin seeding = e.meet.extreme := by
  cases seeding with
  | eager => exact h
  | reachableOnly => rfl

/-! ## Systems that are alike -/

/-- The systems have the same equations at related nodes. -/
structure Equation.Alike (e e' : Equation) (rel : Nat → Nat → Prop) : Prop where
  /-- Values travel in the same direction. -/
  direction_eq : e'.direction = e.direction
  /-- The same extreme solution is wanted. -/
  extreme_eq : e'.extreme = e.extreme
  /-- Contributions are combined in the same way. -/
  meet_eq : e'.meet = e.meet
  /-- The boundary has the same value. -/
  boundary_eq : e'.boundary = e.boundary
  /-- Related nodes contribute the same. -/
  term_eq : ∀ {m m'}, rel m m' → ∀ v, e'.term m' v = e.term m v
  /-- Related nodes make the same of a meet. -/
  apply_eq : ∀ {n n'}, rel n n' → ∀ met, e'.apply n' met = e.apply n met

namespace Equation.Alike

variable {e e' : Equation}

lemma refl (e : Equation) : e.Alike e Eq where
  direction_eq := rfl
  extreme_eq := rfl
  meet_eq := rfl
  boundary_eq := rfl
  term_eq := by
    rintro m _ rfl v
    rfl
  apply_eq := by
    rintro n _ rfl met
    rfl

lemma symm (h : e.Alike e' rel) : e'.Alike e fun n' n => rel n n' where
  direction_eq := h.direction_eq.symm
  extreme_eq := h.extreme_eq.symm
  meet_eq := h.meet_eq.symm
  boundary_eq := h.boundary_eq.symm
  term_eq hrel v := (h.term_eq hrel v).symm
  apply_eq hrel met := (h.apply_eq hrel met).symm

/-- A system dominates those that are like it wherever values travel alike. -/
lemma dominates (h : e.Alike e' rel)
    (hregion : ∀ {n n'}, rel n n' → e.direction.Region g seeding n →
      e.direction.Region g' seeding' n')
    (hboundary : ∀ {n n'}, rel n n' → (n = e.direction.boundary g ↔ n' = e.direction.boundary g'))
    (hsource : ∀ {m n n'}, rel n n' → e.direction.Source g m n → e.direction.Region g seeding m →
      ∃ m', rel m m' ∧ e.direction.Source g' m' n') :
    e.Dominates g seeding e' g' seeding' rel where
  meet_eq := h.meet_eq
  region hrel hn := by
    rw [h.direction_eq]
    exact hregion hrel hn
  boundary_iff hrel := by
    rw [h.direction_eq]
    exact hboundary hrel
  boundary_le := by
    rw [h.boundary_eq]
    exact .refl _ _
  source hrel hm hr := by
    rw [h.direction_eq]
    exact hsource hrel hm hr
  term_le hrel _ v t t' ht ht' := by
    rw [h.term_eq hrel, ht, Except.ok.injEq] at ht'
    rw [ht']
    exact .refl _ _
  apply_le hrel _ met b b' hb hb' := by
    rw [h.apply_eq hrel, hb, Except.ok.injEq] at hb'
    rw [hb']
    exact .refl _ _

end Equation.Alike

/-- A system dominates itself if the other seeding resolves all that the first one resolves. -/
lemma Equation.Dominates.of_region (e : Equation)
    (hregion : ∀ n, e.direction.Region g seeding n → e.direction.Region g seeding' n) :
    e.Dominates g seeding e g seeding' Eq := by
  refine (Equation.Alike.refl e).dominates ?_ ?_ ?_
  · rintro n _ rfl hn
    exact hregion n hn
  · rintro n _ rfl
    rfl
  · rintro m n _ rfl hm _
    exact ⟨m, rfl, hm⟩

namespace Equation.Dominates

/-! ## Right-hand sides -/

/-- Of a source and a counterpart, the one with the greater value contributes more. -/
lemma term_mono (h : e.Dominates g seeding e' g' seeding' rel) (he : e.IsMonotone g) {m m' : Nat}
    (hrel : rel m m') (hm : e.direction.Region g seeding m) {v v' t t' : Bool}
    (hv : e.meet.extreme.Le v' v) (ht : e.term m v = .ok t) (ht' : e'.term m' v' = .ok t') :
    e.meet.extreme.Le t' t := by
  obtain ⟨c, hc⟩ := (he.term m hm.lt).exists_eq v'
  have hcounterpart : e.meet.extreme.Le t' c := h.term_le hrel hm v' c t' hc ht'
  have hvalue : e.meet.extreme.Le c t := (he.term m hm.lt).le hv hc ht
  exact hcounterpart.trans hvalue

/-- The meet at a node is at least as great as the meets at the related nodes.

**Proof sketch.** A contribution that spoils a conjunction, or that settles a disjunction, comes
from a resolved source. Its counterpart has a value that is no greater, so it does the same on the
other side. -/
lemma met_le (h : e.Dominates g seeding e' g' seeding' rel) (he : e.IsMonotone g)
    (he' : e'.IsTotal g') {x x' : Nat → Fact}
    (hx : ∀ m, x m ≠ .unknown → e.direction.Region g seeding m)
    (hle : ∀ m m', rel m m' → (x' m').Le e.meet.extreme (x m)) (hrel : rel n n') {met met' : Bool}
    (hmet : met = true ↔ e.Met x fun m => e.direction.Source g m n)
    (hmet' : met' = true ↔ e'.Met x' fun m => e'.direction.Source g' m n') :
    e.meet.extreme.Le met' met := by
  have hsource (m : Nat) (hm : e.direction.Source g m n) (v : Bool) (hv : x m = .known v) :
      ∃ m' v' t t', e'.direction.Source g' m' n' ∧ x' m' = .known v' ∧ e.term m v = .ok t ∧
        e'.term m' v' = .ok t' ∧ e.meet.extreme.Le t' t := by
    have hr := hx m (Fact.ne_unknown_iff.mpr ⟨v, hv⟩)
    obtain ⟨m', hmm', hm'⟩ := h.source hrel hm hr
    obtain ⟨v', hv', hvv'⟩ := Fact.Le.of_known (hv ▸ hle m m' hmm')
    obtain ⟨t, ht⟩ := (he.term m hr.lt).exists_eq v
    obtain ⟨t', ht'⟩ := he'.term m' hm'.lt.1 v'
    exact ⟨m', v', t, t', hm', hv', ht, ht', h.term_mono he hmm' hr hvv' ht ht'⟩
  have hmeet := h.meet_eq
  cases hcase : e.meet with
  | all =>
    rw [e.met_all hcase] at hmet
    rw [e'.met_all (hmeet.trans hcase)] at hmet'
    intro htrue
    refine hmet.mpr fun m v hm hv => ?_
    obtain ⟨m', v', t, t', hm', hv', ht, ht', hterm⟩ := hsource m hm v hv
    rw [hmet'.mp htrue m' v' hm' hv', Except.ok.injEq] at ht'
    rw [hcase] at hterm
    rw [ht, hterm ht'.symm]
  | any =>
    rw [e.met_any hcase] at hmet
    rw [e'.met_any (hmeet.trans hcase)] at hmet'
    intro htrue
    obtain ⟨m, v, hm, hv, hcontribution⟩ := hmet.mp htrue
    obtain ⟨m', v', t, t', hm', hv', ht, ht', hterm⟩ := hsource m hm v hv
    rw [hcontribution, Except.ok.injEq] at ht
    rw [hcase] at hterm
    exact hmet'.mpr ⟨m', v', hm', hv', by rw [ht', hterm ht.symm]⟩

lemma rightSide_le (h : e.Dominates g seeding e' g' seeding' rel) (he : e.IsMonotone g)
    (he' : e'.IsTotal g') {x x' : Nat → Fact}
    (hx : ∀ m, x m ≠ .unknown → e.direction.Region g seeding m)
    (hle : ∀ m m', rel m m' → (x' m').Le e.meet.extreme (x m)) (hrel : rel n n')
    (hn : e.direction.Region g seeding n) {b b' : Bool} (hb : e.RightSide g x n b)
    (hb' : e'.RightSide g' x' n' b') : e.meet.extreme.Le b' b := by
  obtain ⟨met, hmet, hb⟩ := hb
  obtain ⟨met', hmet', hb'⟩ := hb'
  obtain ⟨c, hc⟩ := (he.apply n hn.lt).exists_eq met'
  have hcounterpart : e.meet.extreme.Le b' c := h.apply_le hrel hn met' c b' hc hb'
  have hmeet : e.meet.extreme.Le c b :=
    (he.apply n hn.lt).le (h.met_le he he' hx hle hrel hmet hmet') hc hb
  exact hcounterpart.trans hmeet

end Equation.Dominates

/-! ## Lifted facts -/

open Classical in
/-- The facts on `g` to which facts `y` on the other graph amount: of the nodes that a run resolves,
those have the greatest value that are related to a node with the greatest value. -/
noncomputable def Equation.lift (e : Equation) (g : FlowGraph) (seeding : Seeding)
    (rel : Nat → Nat → Prop) (y : Nat → Fact) (n : Nat) : Fact :=
  if e.direction.Region g seeding n then
    if ∃ n', rel n n' ∧ y n' = .known e.meet.extreme.start then .known e.meet.extreme.start
    else .known !e.meet.extreme.start
  else .unknown

namespace Equation

variable {y : Nat → Fact}

lemma lift_ne_unknown_iff :
    e.lift g seeding rel y n ≠ .unknown ↔ e.direction.Region g seeding n := by
  unfold lift
  split
  · split <;> simp [*]
  · simp [*]

lemma lift_eq_start_iff (hn : e.direction.Region g seeding n) :
    e.lift g seeding rel y n = .known e.meet.extreme.start ↔
      ∃ n', rel n n' ∧ y n' = .known e.meet.extreme.start := by
  rw [lift, if_pos hn]
  split <;> simp [*]

/-- Lifted facts are below what is the greatest value wherever a related node has it. -/
lemma lift_le {a b : Bool} (ha : e.lift g seeding rel y n = .known a)
    (hb : ∀ n', rel n n' → y n' = .known e.meet.extreme.start →
      e.meet.extreme.Le e.meet.extreme.start b) : e.meet.extreme.Le a b := by
  have hn : e.direction.Region g seeding n :=
    lift_ne_unknown_iff.mp (Fact.ne_unknown_iff.mpr ⟨a, ha⟩)
  refine Extreme.le_of_imp fun htop => ?_
  obtain ⟨n', hrel, hn'⟩ := (lift_eq_start_iff hn).mp (htop ▸ ha)
  exact (e.meet.extreme.le_start b).antisymm (hb n' hrel hn')

namespace Dominates

/-- Lifted facts are at least as great as those that they are lifted from. -/
lemma le_lift (h : e.Dominates g seeding e' g' seeding' rel)
    (hy : ∀ n', e'.direction.Region g' seeding' n' → y n' ≠ .unknown) (hrel : rel n n') :
    (y n').Le e.meet.extreme (e.lift g seeding rel y n) := by
  cases hlift : e.lift g seeding rel y n with
  | unknown => trivial
  | known b =>
    have hn : e.direction.Region g seeding n :=
      lift_ne_unknown_iff.mp (Fact.ne_unknown_iff.mpr ⟨b, hlift⟩)
    obtain ⟨a, ha⟩ := Fact.ne_unknown_iff.mp (hy n' (h.region hrel hn))
    rw [ha]
    refine Extreme.le_of_imp fun htop => ?_
    have hstart := (lift_eq_start_iff hn).mpr ⟨n', hrel, htop ▸ ha⟩
    rwa [hlift, Fact.known.injEq] at hstart

/-- The greater equations support what is lifted from the end of a run of the lesser ones. -/
lemma supports_lift (h : e.Dominates g seeding e' g' seeding' rel) (he : e.IsMonotone g)
    (he' : e'.IsTotal g') {s' : SolverState} (h' : s'.Ends e' g' seeding') :
    e.Supports g e.meet.extreme (e.lift g seeding rel (factAt s'.facts)) := by
  intro n a b hb ha hright
  refine lift_le ha fun n' hrel htop => ?_
  have hn : e.direction.Region g seeding n :=
    lift_ne_unknown_iff.mp (Fact.ne_unknown_iff.mpr ⟨a, ha⟩)
  have hright' := h'.satisfies n' _ (mt (h.boundary_iff hrel).mpr hb) htop
  exact h.rightSide_le he he' (fun m => lift_ne_unknown_iff.mp)
    (fun m m' => h.le_lift fun _ => h'.known_iff.mpr) hrel hn hright hright'

lemma lift_boundary_le (h : e.Dominates g seeding e' g' seeding' rel) {s' : SolverState}
    (h' : s'.Ends e' g' seeding') :
    (e.lift g seeding rel (factAt s'.facts) (e.direction.boundary g)).Le e.meet.extreme
      (.known e.boundary) := by
  obtain ⟨a, ha⟩ := Fact.ne_unknown_iff.mp
    (lift_ne_unknown_iff.mpr (e.direction.region_boundary g seeding))
  rw [ha]
  refine lift_le ha fun n' hrel htop => ?_
  obtain rfl := (h.boundary_iff hrel).mp rfl
  rw [h'.invariants.1.fact_boundary, Fact.known.injEq] at htop
  exact htop ▸ h.boundary_le

end Dominates

end Equation

/-! ## Whole runs -/

namespace SolverState.Ends

variable {s s' : SolverState}

/-- The facts at which a run ends bound those of every run that its system dominates.

**Proof sketch.** Lift the facts of the other run to `g`. The equations of `e` support the lifted
facts: where one is the greatest value, some related node has that value, so the right-hand side
there is the greatest, and the right-hand side of `e` is no less. The run ends above all that its
equations support. -/
lemma le_of_dominates (h : s.Ends e g seeding) (he : e.IsMonotone g)
    (ho : e.origin seeding = e.meet.extreme) (h' : s'.Ends e' g' seeding') (he' : e'.IsTotal g')
    (hdom : e.Dominates g seeding e' g' seeding' rel) (hrel : rel n n') :
    (factAt s'.facts n').Le e.meet.extreme (factAt s.facts n) := by
  have hlift : (factAt s'.facts n').Le e.meet.extreme
      (e.lift g seeding rel (factAt s'.facts) n) :=
    hdom.le_lift (fun _ => h'.known_iff.mpr) hrel
  have hsupports := hdom.supports_lift he he' h'
  have hboundary := hdom.lift_boundary_le h'
  rw [← ho] at hlift hsupports hboundary ⊢
  exact hlift.trans (h.le he hsupports (fun _ => Equation.lift_ne_unknown_iff) hboundary n)

/-- Systems that dominate each other end with the same facts at related nodes. -/
lemma factAt_eq_of_dominates (h : s.Ends e g seeding) (he : e.IsMonotone g)
    (ho : e.origin seeding = e.meet.extreme) (h' : s'.Ends e' g' seeding') (he' : e'.IsMonotone g')
    (ho' : e'.origin seeding' = e'.meet.extreme)
    (hdom : e.Dominates g seeding e' g' seeding' rel)
    (hdom' : e'.Dominates g' seeding' e g seeding fun n' n => rel n n') (hrel : rel n n') :
    factAt s.facts n = factAt s'.facts n' := by
  have hle := h'.le_of_dominates he' ho' h he.isTotal hdom' hrel
  rw [hdom.meet_eq] at hle
  exact hle.antisymm (h.le_of_dominates he ho h' he'.isTotal hdom hrel)

/-- Two runs of one system that resolve the same nodes end with the same facts. -/
lemma facts_eq_of_region (h : s.Ends e g seeding) (he : e.IsMonotone g) (ho : e.Aligned)
    (h' : s'.Ends e g seeding')
    (hregion : ∀ n, e.direction.Region g seeding n ↔ e.direction.Region g seeding' n) :
    s.facts = s'.facts := by
  refine ext_factAt (h.invariants.1.size_facts.trans h'.invariants.1.size_facts.symm) fun n => ?_
  have hle : (factAt s.facts n).Le e.meet.extreme (factAt s'.facts n) :=
    h'.le_of_dominates he (ho.origin_eq seeding') h he.isTotal
      (.of_region e fun n => (hregion n).mpr) rfl
  exact hle.antisymm (h.le_of_dominates he (ho.origin_eq seeding) h' he.isTotal
    (.of_region e fun n => (hregion n).mp) rfl)

end SolverState.Ends

end PartialRedundancy
