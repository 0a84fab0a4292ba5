import PartialRedundancy.Proofs.Dataflow.Equation

/-!
# The order in which values are approached

A run starts from one extreme value and moves to the other. In the order in which the value it
starts from is the greatest, and an unknown fact is greater than both values, every run descends,
and the right-hand side of a monotone equation grows with the facts of its sources.

## Main definitions

* `Extreme.Le`, `Fact.Le` — the order of the values and of the facts.
* `Fact.rank` — how often a fact can still descend.
* `Meet.extreme` — the extreme from which a meet moves away as contributions are added.

## Main results

* `Equation.RightSide.le` — right-hand sides are monotone in the facts.
* `Fact.rank_lt` — descending lowers the rank.

## Design

An unknown source contributes nothing to a meet. That is monotone only if the order is the one of
the meet, in which contributing nothing is the greatest contribution; where the order is another
one, the facts that are compared have to be known.
-/

namespace PartialRedundancy

/-! ## Values -/

/-- The order of the values in which the one that the extreme starts from is the greatest. -/
def Extreme.Le (o : Extreme) (a b : Bool) : Prop :=
  match o with
  | greatest => a = true → b = true
  | least => b = true → a = true

namespace Extreme

variable {o : Extreme} {a b c : Bool}

/-- The order is reflexive. -/
lemma Le.refl (o : Extreme) (a : Bool) : o.Le a a := by
  cases o <;> exact id

/-- The order is transitive. -/
lemma Le.trans (hab : o.Le a b) (hbc : o.Le b c) : o.Le a c := by
  cases o with
  | greatest => exact fun h => hbc (hab h)
  | least => exact fun h => hab (hbc h)

/-- Values that bound each other are equal. -/
lemma Le.antisymm (hab : o.Le a b) (hba : o.Le b a) : a = b := by
  cases o with
  | greatest => exact Bool.eq_iff_iff.mpr ⟨hab, hba⟩
  | least => exact Bool.eq_iff_iff.mpr ⟨hba, hab⟩

/-- The value that the extreme starts from is the greatest. -/
lemma le_start (o : Extreme) (a : Bool) : o.Le a o.start := by
  cases o with
  | greatest => exact fun _ => rfl
  | least => exact fun h => absurd h Bool.false_ne_true

/-- A value is below another one if it is not the greatest, or if the other one is the greatest. -/
lemma le_of_imp (h : a = o.start → b = o.start) : o.Le a b := by
  cases o with
  | greatest => exact h
  | least =>
    intro hb
    by_contra ha
    rw [hb] at h
    exact absurd (h (Bool.eq_false_iff.mpr ha)) (by decide)

/-- A value below a different one is not the one that the extreme starts from. -/
lemma Le.eq_of_ne (hab : o.Le a b) (hne : a ≠ b) : a = !o.start ∧ b = o.start := by
  cases o <;> cases a <;> cases b <;> simp_all [Le, start]

end Extreme

/-- The extreme from which a meet moves away as contributions are added to it. -/
def Meet.extreme : Meet → Extreme
  | all => .greatest
  | any => .least

/-! ## Facts -/

namespace Fact

variable {o : Extreme} {f f' : Fact} {b : Bool}

/-- The order of the facts: known values are ordered as values, and an unknown fact is greater. -/
def Le (o : Extreme) : Fact → Fact → Prop
  | _, unknown => True
  | unknown, known _ => False
  | known a, known b => o.Le a b

/-- The order is reflexive. -/
lemma Le.refl (o : Extreme) (f : Fact) : f.Le o f := by
  cases f with
  | unknown => trivial
  | known a => exact Extreme.Le.refl o a

/-- What is below a known fact is known, and its value is below. -/
lemma Le.of_known (h : f.Le o (known b)) : ∃ a, f = known a ∧ o.Le a b := by
  cases f with
  | unknown => exact h.elim
  | known a => exact ⟨a, rfl, h⟩

/-- The order is transitive. -/
lemma Le.trans {f'' : Fact} (h : f.Le o f') (h' : f'.Le o f'') : f.Le o f'' := by
  cases f'' with
  | unknown => trivial
  | known c =>
    obtain ⟨b, rfl, hbc⟩ := h'.of_known
    obtain ⟨a, rfl, hab⟩ := h.of_known
    exact Extreme.Le.trans hab hbc

/-- Facts that bound each other are equal. -/
lemma Le.antisymm (h : f.Le o f') (h' : f'.Le o f) : f = f' := by
  cases f' with
  | unknown =>
    cases f with
    | unknown => rfl
    | known a => exact h'.elim
  | known b =>
    obtain ⟨a, rfl, hab⟩ := h.of_known
    rw [Extreme.Le.antisymm hab h']

/-- How often a fact can still descend. -/
def rank (o : Extreme) : Fact → Nat
  | unknown => 2
  | known b => if b = o.start then 1 else 0

/-- Descending lowers the rank. -/
lemma rank_lt (h : (known b).Le o f) (hne : f ≠ known b) : (known b).rank o < f.rank o := by
  cases f with
  | unknown =>
    simp only [rank]
    split <;> omega
  | known c =>
    obtain ⟨rfl, rfl⟩ := Extreme.Le.eq_of_ne h fun h' => hne (h' ▸ rfl)
    cases o <;> simp [rank, Extreme.start]

end Fact

/-! ## Right-hand sides -/

/-- A rising function is monotone in either order. -/
lemma Rising.le {f : Bool → Except OutOfBounds Bool} (hf : Rising f) {o : Extreme} {a b c d : Bool}
    (hab : o.Le a b) (hc : f a = .ok c) (hd : f b = .ok d) : o.Le c d := by
  cases o with
  | greatest => exact hf.imp hab hc hd
  | least => exact hf.imp hab hd hc

namespace Equation

variable {e : Equation} {g : FlowGraph} {o : Extreme} {x y : Nat → Fact} {n : Nat}

/-- The meet of the contributions of some sources is monotone in their facts.

**Proof sketch.** In a conjunction ordered from truth, a source that is known on the greater side
is known on the lesser side and contributes no more there. A disjunction ordered from falsehood
is the mirror image. In the two other cases the orders of the meet and of the facts point in
different directions, and the sources have to be known on both sides. -/
lemma Met.le (he : e.IsMonotone g) {source : Nat → Prop} (hsource : ∀ m, source m → m < g.size)
    (hxy : ∀ m, source m → (x m).Le o (y m))
    (hknown : o = e.meet.extreme ∨ ∀ m < g.size, y m ≠ .unknown) {met met' : Bool}
    (hmet : met = true ↔ e.Met x source) (hmet' : met' = true ↔ e.Met y source) :
    o.Le met met' := by
  have hterm (m : Nat) (hm : source m) {a v : Bool} (hav : a = true → v = true)
      (ha : e.term m a = .ok true) : e.term m v = .ok true := by
    obtain ⟨t, ht⟩ := (he.term m (hsource m hm)).exists_eq v
    rw [ht, (he.term m (hsource m hm)).imp hav ha ht rfl]
  -- a source that is known on the greater side is known on the lesser side, and the converse
  have hlow (m : Nat) (hm : source m) (v : Bool) (hv : y m = .known v) :
      ∃ a, x m = .known a ∧ o.Le a v := Fact.Le.of_known (hv ▸ hxy m hm)
  have hhigh (hne : o ≠ e.meet.extreme) (m : Nat) (hm : source m) (a : Bool)
      (ha : x m = .known a) : ∃ v, y m = .known v ∧ o.Le a v := by
    have hy := hknown.resolve_left hne m (hsource m hm)
    cases hv : y m with
    | unknown => exact absurd hv hy
    | known v =>
      obtain ⟨a', ha', hav⟩ := hlow m hm v hv
      obtain rfl : a' = a := Fact.known.inj (ha'.symm.trans ha)
      exact ⟨v, rfl, hav⟩
  cases hmeet : e.meet with
  | all =>
    rw [e.met_all hmeet] at hmet hmet'
    cases o with
    | greatest =>
      refine fun h => hmet'.mpr fun m v hm hv => ?_
      obtain ⟨a, ha, hav⟩ := hlow m hm v hv
      exact hterm m hm hav (hmet.mp h m a hm ha)
    | least =>
      refine fun h => hmet.mpr fun m a hm ha => ?_
      obtain ⟨v, hv, hav⟩ := hhigh (by rw [hmeet]; decide) m hm a ha
      exact hterm m hm hav (hmet'.mp h m v hm hv)
  | any =>
    rw [e.met_any hmeet] at hmet hmet'
    cases o with
    | greatest =>
      intro h
      obtain ⟨m, a, hm, ha, ht⟩ := hmet.mp h
      obtain ⟨v, hv, hav⟩ := hhigh (by rw [hmeet]; decide) m hm a ha
      exact hmet'.mpr ⟨m, v, hm, hv, hterm m hm hav ht⟩
    | least =>
      intro h
      obtain ⟨m, v, hm, hv, ht⟩ := hmet'.mp h
      obtain ⟨a, ha, hav⟩ := hlow m hm v hv
      exact hmet.mpr ⟨m, a, hm, ha, hterm m hm hav ht⟩

/-- The right-hand side of a monotone equation is monotone in the facts of the sources. -/
lemma RightSide.le (he : e.IsMonotone g) (hn : n < g.size)
    (hxy : ∀ m, e.direction.Source g m n → (x m).Le o (y m))
    (hknown : o = e.meet.extreme ∨ ∀ m < g.size, y m ≠ .unknown) {b c : Bool}
    (hb : e.RightSide g x n b) (hc : e.RightSide g y n c) : o.Le b c := by
  obtain ⟨met, hmet, hb⟩ := hb
  obtain ⟨met', hmet', hc⟩ := hc
  have hle := Met.le he (fun m hm => hm.lt.1) hxy hknown hmet hmet'
  exact (he.apply n hn).le hle hb hc

end Equation

end PartialRedundancy
