import Mathlib.Logic.Function.Basic
import PartialRedundancy.Dataflow.Equation
import PartialRedundancy.Proofs.Failure

/-!
# What an equation says

The right-hand side of an equation, read off an arbitrary assignment of facts to nodes. Sources
of which nothing is known are left out of the meet.

## Main definitions

* `Direction.Source` — a node whose value an equation reads, in terms of edges.
* `factAt` — the assignment of facts that an array stands for.
* `Equation.Met`, `Equation.RightSide` — the meet of the contributions, and the value that an
  equation gives its node.
* `Rising`, `Equation.IsMonotone` — terms and applications that never turn from true to false as
  their argument rises.
* `Equation.IsTotal` — terms and applications that never fail.

## Main results

* `Equation.rightSide_of_evaluate` — an evaluation gives the value of the right-hand side.
* `Equation.evaluate_failsOnly` — an evaluation fails only as terms and applications do.
* `Equation.IsTotal.exists_evaluate` — the equations of a total system can be evaluated.
* `Equation.evaluate_congr` — an evaluation reads the facts of the sources and no others.
-/

namespace PartialRedundancy

/-! ## Sources and readers -/

namespace Direction

variable {d : Direction} {g : FlowGraph} {m n : Nat} {s : NodeSet}

/-- The equation of node `n` reads the value of node `m`. -/
def Source (d : Direction) (g : FlowGraph) (m n : Nat) : Prop :=
  match d with
  | backward => g.Edge n m
  | forward => g.Edge m n

/-- Sources and readers are nodes. -/
lemma Source.lt (h : d.Source g m n) : m < g.size ∧ n < g.size := by
  cases d with
  | backward => exact (FlowGraph.lt_of_edge h).symm
  | forward => exact FlowGraph.lt_of_edge h

/-- The boundary is a node. -/
lemma boundary_lt (d : Direction) (g : FlowGraph) : d.boundary g < g.size := by
  cases d with
  | backward => exact Nat.lt_succ_self _
  | forward => exact Nat.succ_pos _

/-- The listed sources of a node are its sources. -/
lemma sources_eq_ok_iff : d.sources g n = .ok s ↔ n < g.size ∧ ∀ m, m ∈ s ↔ d.Source g m n := by
  cases d with
  | backward => exact FlowGraph.succ_eq_ok_iff
  | forward => exact FlowGraph.pred_eq_ok_iff

/-- The listed readers of a node are those whose source it is. -/
lemma readers_eq_ok_iff : d.readers g m = .ok s ↔ m < g.size ∧ ∀ n, n ∈ s ↔ d.Source g m n := by
  cases d with
  | backward => exact FlowGraph.pred_eq_ok_iff
  | forward => exact FlowGraph.succ_eq_ok_iff

/-- A node of the graph has its sources listed. -/
lemma exists_sources (hn : n < g.size) : ∃ s, d.sources g n = .ok s := by
  have hsucc : n < g.adjacency.successors.size := Nat.lt_of_lt_of_eq hn g.size_adjacency.symm
  have hpred : n < g.adjacency.predecessors.size :=
    Nat.lt_of_lt_of_eq hsucc g.adjacency.size_predecessors.symm
  cases d with
  | backward => exact ⟨_, fetch_of_lt hsucc⟩
  | forward => exact ⟨_, fetch_of_lt hpred⟩

/-- A node of the graph has its readers listed. -/
lemma exists_readers (hm : m < g.size) : ∃ s, d.readers g m = .ok s := by
  cases d with
  | backward => exact exists_sources (d := .forward) hm
  | forward => exact exists_sources (d := .backward) hm

end Direction

/-! ## Assignments of facts -/

/-- A fact has a value unless it is unknown. -/
lemma Fact.ne_unknown_iff {f : Fact} : f ≠ .unknown ↔ ∃ b, f = .known b := by
  cases f <;> simp

/-- The fact of a node in an array of facts; nothing is known past the end. -/
def factAt (facts : Array Fact) (n : Nat) : Fact := facts[n]?.getD .unknown

section factAt

variable {facts : Array Fact} {n : Nat}

/-- Below the size a lookup gives the fact of the node. -/
lemma fetch_fact (hn : n < facts.size) : fetch facts n = .ok (factAt facts n) := by
  simp [fetch_of_lt hn, factAt, hn]

/-- A lookup that succeeds gives the fact of the node. -/
lemma factAt_of_fetch {f : Fact} (h : fetch facts n = .ok f) : factAt facts n = f := by
  rw [fetch_eq_ok_iff] at h
  simp [factAt, h]

/-- The nodes of the array whose fact is `f`. -/
lemma getElem?_eq_some_iff_factAt {f : Fact} :
    facts[n]? = some f ↔ n < facts.size ∧ factAt facts n = f := by
  by_cases hn : n < facts.size <;> simp [factAt, hn]

/-- Nothing is known past the end. -/
lemma lt_of_factAt_ne (h : factAt facts n ≠ .unknown) : n < facts.size := by
  by_contra hn
  exact h (by simp [factAt, hn])

/-- Facts of the same number of nodes are determined node by node. -/
lemma ext_factAt {facts' : Array Fact} (hsize : facts.size = facts'.size)
    (h : ∀ n, factAt facts n = factAt facts' n) : facts = facts' := by
  refine Array.ext_getElem? fun n => Option.ext fun f => ?_
  rw [getElem?_eq_some_iff_factAt, getElem?_eq_some_iff_factAt, hsize, h]

/-- Replacing the fact of a node changes the assignment there and nowhere else. -/
lemma factAt_setIfInBounds (hn : n < facts.size) (f : Fact) :
    factAt (facts.setIfInBounds n f) = Function.update (factAt facts) n f := by
  funext m
  unfold factAt
  by_cases h : m = n
  · subst h
    simp [hn]
  · rw [Function.update_of_ne h]
    simp [Array.getElem?_setIfInBounds_ne (Ne.symm h)]

/-- The assignment of an array that holds the same fact everywhere. -/
lemma factAt_replicate {size : Nat} (hn : n < size) (f : Fact) :
    factAt (Array.replicate size f) n = f := by
  simp [factAt, hn]

end factAt

/-! ## Right-hand sides -/

namespace Equation

variable {e : Equation} {g : FlowGraph} {facts : Array Fact} {x : Nat → Fact} {n : Nat}

/-- What source `m` contributes to the meet is true. Where nothing is known of the source, a
conjunction takes this for granted and a disjunction does not. -/
def Contributes (e : Equation) (x : Nat → Fact) (m : Nat) : Prop :=
  match e.meet with
  | .all => ∀ v, x m = .known v → e.term m v = .ok true
  | .any => ∃ v, x m = .known v ∧ e.term m v = .ok true

/-- The meet of the contributions of some sources is true. -/
def Met (e : Equation) (x : Nat → Fact) (source : Nat → Prop) : Prop :=
  match e.meet with
  | .all => ∀ m, source m → e.Contributes x m
  | .any => ∃ m, source m ∧ e.Contributes x m

/-- A conjunction is true if every known source contributes truth. -/
lemma met_all (h : e.meet = .all) {source : Nat → Prop} :
    e.Met x source ↔ ∀ m v, source m → x m = .known v → e.term m v = .ok true := by
  simp only [Met, Contributes, h]
  exact forall_congr' fun m => forall_comm

/-- A disjunction is true if some known source contributes truth. -/
lemma met_any (h : e.meet = .any) {source : Nat → Prop} :
    e.Met x source ↔ ∃ m v, source m ∧ x m = .known v ∧ e.term m v = .ok true := by
  simp only [Met, Contributes, h, exists_and_left]

/-- The equation of node `n` gives it the value `b`, if the other nodes have the facts `x`. -/
def RightSide (e : Equation) (g : FlowGraph) (x : Nat → Fact) (n : Nat) (b : Bool) : Prop :=
  ∃ met : Bool, (met = true ↔ e.Met x fun m => e.direction.Source g m n) ∧ e.apply n met = .ok b

/-- An equation gives at most one value. -/
lemma RightSide.unique {b c : Bool} (hb : e.RightSide g x n b) (hc : e.RightSide g x n c) :
    b = c := by
  obtain ⟨met, hmet, hb⟩ := hb
  obtain ⟨met', hmet', hc⟩ := hc
  obtain rfl : met = met' := Bool.eq_iff_iff.mpr (hmet.trans hmet'.symm)
  rw [hb] at hc
  exact Except.ok.inj hc

/-! ## Evaluations -/

/-- Taking one more source into the meet. -/
lemma contribute_eq_ok {met met' : Bool} {m : Nat}
    (h : e.contribute facts met m = .ok met') :
    met' = true ↔ match e.meet with
      | .all => met = true ∧ e.Contributes (factAt facts) m
      | .any => met = true ∨ e.Contributes (factAt facts) m := by
  simp only [contribute, bind_eq_ok_iff] at h
  obtain ⟨f, hf, h⟩ := h
  have hx := factAt_of_fetch hf
  cases f with
  | unknown =>
    rw [pure_eq_ok_iff] at h
    subst h
    cases hm : e.meet <;> simp [Contributes, hm, hx]
  | known v =>
    simp only [bind_eq_ok_iff, pure_eq_ok_iff] at h
    obtain ⟨t, ht, rfl⟩ := h
    cases hm : e.meet <;> cases t <;> simp [Contributes, hm, hx, ht, Meet.combine]

/-- The fold over a list of sources makes the meet of their contributions. -/
lemma foldlM_contribute {l : List Nat} {met met' : Bool}
    (h : l.foldlM (e.contribute facts) met = .ok met') :
    met' = true ↔ match e.meet with
      | .all => met = true ∧ e.Met (factAt facts) (· ∈ l)
      | .any => met = true ∨ e.Met (factAt facts) (· ∈ l) := by
  induction l generalizing met with
  | nil =>
    rw [List.foldlM_nil, pure_eq_ok_iff] at h
    subst h
    cases hm : e.meet <;> simp [Met, hm]
  | cons m l ih =>
    rw [List.foldlM_cons, bind_eq_ok_iff] at h
    obtain ⟨met₁, h₁, h⟩ := h
    have h₂ := ih h
    have h₃ := contribute_eq_ok h₁
    rw [h₂]
    cases hm : e.meet with
    | all =>
      simp only [hm] at h₃
      simp [h₃, Met, hm, and_assoc]
    | any =>
      simp only [hm] at h₃
      simp [h₃, Met, hm, or_assoc]

/-- An evaluation gives the value of the right-hand side. -/
lemma rightSide_of_evaluate {b : Bool} (h : e.evaluate g facts n = .ok b) :
    e.RightSide g (factAt facts) n b := by
  simp only [evaluate, bind_eq_ok_iff] at h
  obtain ⟨s, hs, met, hmet, hb⟩ := h
  obtain ⟨_, hmem⟩ := Direction.sources_eq_ok_iff.mp hs
  refine ⟨met, ?_, hb⟩
  have hfold := foldlM_contribute hmet
  have hsource : (· ∈ s.toList) = fun m => e.direction.Source g m n :=
    funext fun m => propext (hmem m)
  rw [hsource] at hfold
  rw [hfold]
  cases hm : e.meet <;> simp [Meet.identity]

/-- The fold over a list of sources reads their facts and no others. -/
lemma foldlM_contribute_congr {facts' : Array Fact} {l : List Nat} {met : Bool}
    (hsize : facts.size = facts'.size) (h : ∀ m ∈ l, factAt facts m = factAt facts' m) :
    l.foldlM (e.contribute facts) met = l.foldlM (e.contribute facts') met := by
  have hfetch (m : Nat) (hm : m ∈ l) : fetch facts m = fetch facts' m := by
    by_cases hlt : m < facts.size
    · rw [fetch_fact hlt, fetch_fact (hsize ▸ hlt), h m hm]
    · have hge := Nat.not_lt.mp hlt
      rw [fetch_eq_error_iff.mpr ⟨hge, rfl⟩, fetch_eq_error_iff.mpr ⟨hsize ▸ hge, rfl⟩, hsize]
  induction l generalizing met with
  | nil => rfl
  | cons m l ih =>
    have hstep : e.contribute facts met m = e.contribute facts' met m := by
      rw [contribute, contribute, hfetch m (by simp)]
    rw [List.foldlM_cons, List.foldlM_cons, hstep]
    congr 1
    funext met'
    exact ih (fun m' hm' => h m' (by simp [hm'])) fun m' hm' => hfetch m' (by simp [hm'])

/-- An evaluation reads the facts of the sources and no others. -/
lemma evaluate_congr {facts' : Array Fact} (hsize : facts.size = facts'.size)
    (h : ∀ m, e.direction.Source g m n → factAt facts m = factAt facts' m) :
    e.evaluate g facts n = e.evaluate g facts' n := by
  unfold evaluate
  cases hs : e.direction.sources g n with
  | error => rfl
  | ok s =>
    obtain ⟨_, hmem⟩ := Direction.sources_eq_ok_iff.mp hs
    have hfold : s.toList.foldlM (e.contribute facts) e.meet.identity =
        s.toList.foldlM (e.contribute facts') e.meet.identity :=
      foldlM_contribute_congr hsize fun m hm => h m ((hmem m).mp hm)
    change (s.toList.foldlM (e.contribute facts) _ >>= e.apply n) =
      (s.toList.foldlM (e.contribute facts') _ >>= e.apply n)
    rw [hfold]

/-- An evaluation fails as the terms of its known sources do, or as the application of its node. -/
lemma evaluate_failsOnly {P : OutOfBounds → Prop} (hsize : facts.size = g.size) (hn : n < g.size)
    (hterm : ∀ m v, e.direction.Source g m n → factAt facts m = .known v →
      FailsOnly P (e.term m v))
    (happly : ∀ met, FailsOnly P (e.apply n met)) : FailsOnly P (e.evaluate g facts n) := by
  obtain ⟨s, hs⟩ := Direction.exists_sources (d := e.direction) hn
  obtain ⟨_, hmem⟩ := Direction.sources_eq_ok_iff.mp hs
  have hcontribute (met : Bool) (m : Nat) (hm : m ∈ s.toList) :
      FailsOnly P (e.contribute facts met m) := by
    have hsource := (hmem m).mp hm
    refine (FailsOnly.of_ok (fetch_fact (hsize ▸ hsource.lt.1))).bind fun f hf => ?_
    cases f with
    | unknown => exact .of_ok rfl
    | known v => exact (hterm m v hsource (factAt_of_fetch hf)).bind fun _ _ => .of_ok rfl
  rw [evaluate, hs]
  exact (FailsOnly.foldlM hcontribute e.meet.identity).bind fun met _ => happly met

/-- If an evaluation succeeds, then every known source contributes something. -/
lemma exists_term_of_evaluate {b : Bool} (h : e.evaluate g facts n = .ok b) {m : Nat} {v : Bool}
    (hm : e.direction.Source g m n) (hv : factAt facts m = .known v) :
    ∃ t, e.term m v = .ok t := by
  simp only [evaluate, bind_eq_ok_iff] at h
  obtain ⟨s, hs, _, hmet, _⟩ := h
  obtain ⟨_, hmem⟩ := Direction.sources_eq_ok_iff.mp hs
  obtain ⟨_, _, hcontribute⟩ := exists_of_foldlM_eq_ok hmet ((hmem m).mpr hm)
  simp only [contribute, bind_eq_ok_iff] at hcontribute
  obtain ⟨f, hf, hcontribute⟩ := hcontribute
  obtain rfl : f = .known v := (factAt_of_fetch hf).symm.trans hv
  simp only [bind_eq_ok_iff] at hcontribute
  obtain ⟨t, ht, _⟩ := hcontribute
  exact ⟨t, ht⟩

end Equation

/-! ## Monotone systems and total systems -/

/-- A function of a boolean that always succeeds, and does not turn from true to false as its
argument rises. -/
def Rising (f : Bool → Except OutOfBounds Bool) : Prop :=
  ∃ low high, f false = .ok low ∧ f true = .ok high ∧ (low = true → high = true)

/-- A rising function has a value everywhere. -/
lemma Rising.exists_eq {f : Bool → Except OutOfBounds Bool} (hf : Rising f) (b : Bool) :
    ∃ c, f b = .ok c := by
  obtain ⟨low, high, hlow, hhigh, _⟩ := hf
  cases b with
  | false => exact ⟨low, hlow⟩
  | true => exact ⟨high, hhigh⟩

/-- The values of a rising function rise with its argument. -/
lemma Rising.imp {f : Bool → Except OutOfBounds Bool} (hf : Rising f) {a b c d : Bool}
    (hab : a = true → b = true) (hc : f a = .ok c) (hd : f b = .ok d) : c = true → d = true := by
  obtain ⟨low, high, hlow, hhigh, hle⟩ := hf
  cases a <;> cases b <;> simp_all

namespace Equation

variable {e : Equation} {g : FlowGraph} {facts : Array Fact} {x : Nat → Fact} {n : Nat}

/-- The terms and the applications of the nodes of a graph always succeed, and they are
monotone. -/
structure IsMonotone (e : Equation) (g : FlowGraph) : Prop where
  /-- What a source contributes rises with its value. -/
  term : ∀ m < g.size, Rising (e.term m)
  /-- The value of a node rises with the meet. -/
  apply : ∀ n < g.size, Rising (e.apply n)

/-- The terms and the applications of the nodes of a graph always succeed. -/
structure IsTotal (e : Equation) (g : FlowGraph) : Prop where
  /-- Every source contributes something, whatever its value is. -/
  term : ∀ m < g.size, ∀ v, ∃ t, e.term m v = .ok t
  /-- Every meet gives its node some value. -/
  apply : ∀ n < g.size, ∀ met, ∃ b, e.apply n met = .ok b

/-- Monotone systems are total. -/
lemma IsMonotone.isTotal (he : e.IsMonotone g) : e.IsTotal g where
  term m hm := (he.term m hm).exists_eq
  apply n hn := (he.apply n hn).exists_eq

/-- The equation of a node gives it some value. -/
lemma IsTotal.exists_rightSide (he : e.IsTotal g) (hn : n < g.size) (x : Nat → Fact) :
    ∃ b, e.RightSide g x n b := by
  classical
  obtain ⟨b, hb⟩ := he.apply n hn (decide (e.Met x fun m => e.direction.Source g m n))
  exact ⟨b, _, decide_eq_true_iff, hb⟩

/-- The equations of a total system can be evaluated. -/
lemma IsTotal.exists_evaluate (he : e.IsTotal g) (hsize : facts.size = g.size)
    (hn : n < g.size) : ∃ b, e.evaluate g facts n = .ok b :=
  FailsOnly.exists_ok <| evaluate_failsOnly hsize hn
    (fun m v hm _ => by
      obtain ⟨t, ht⟩ := he.term m hm.lt.1 v
      exact .of_ok ht)
    fun met => by
      obtain ⟨b, hb⟩ := he.apply n hn met
      exact .of_ok hb

end Equation

end PartialRedundancy
