import PartialRedundancy.Proofs.Lookup

/-!
# How computations fail

A computation in several steps fails with the error of the first step that does. So it fails only
with errors of some kind if all its steps do, and its errors can be renamed step by step. If the
steps change a state, then what was changed before the failure stays changed.

## Main definitions

* `FailsOnly` — all errors of a computation are of some kind.
* `firstError` — the first of several errors, or else a value.
* `stateLeft` — the state that a computation leaves, whether it fails or not.

## Main results

* `FailsOnly.bind`, `FailsOnly.foldlM` — two steps in a row, and one step for each element of a
  list.
* `bind_eq_error_iff_of_exists` — two steps in a row, of which the second one succeeds.
* `mapError_bind`, `mapError_foldlM` — the errors of both, renamed.
* `foldlM_preserves` — what every step preserves.
* `foldlM_eq_ok_congr`, `foldlM_eq_ok_of_imp` — steps that succeed alike, and steps that succeed
  more often.
* `firstError_bind`, `foldlM_eq_firstError` — steps of which the errors are known.
* `bind_of_ok` — two steps in a row that change a state.
-/

namespace PartialRedundancy

variable {ε ε' α β : Type} {P : ε → Prop}

/-- A computation that fails only with errors of some kind. -/
def FailsOnly (P : ε → Prop) (x : Except ε α) : Prop := ∀ e, x = .error e → P e

/-- A computation that succeeds does not fail. -/
lemma FailsOnly.of_ok {x : Except ε α} {a : α} (h : x = .ok a) : FailsOnly P x := by
  intro e he
  rw [h] at he
  cases he

/-- A step after another one matters only if the first one succeeds. -/
lemma FailsOnly.bind {x : Except ε α} {k : α → Except ε β} (hx : FailsOnly P x)
    (hk : ∀ a, x = .ok a → FailsOnly P (k a)) : FailsOnly P (x >>= k) := by
  intro e h
  cases x with
  | error e' =>
    cases h
    exact hx e rfl
  | ok a => exact hk a rfl e h

/-- If the second of two steps succeeds, they fail as the first one does. -/
lemma bind_eq_error_iff_of_exists {x : Except ε α} {k : α → Except ε β} {e : ε}
    (hk : ∀ a, x = .ok a → ∃ b, k a = .ok b) : (x >>= k) = .error e ↔ x = .error e := by
  cases x with
  | error e' => simp [bind, Except.bind]
  | ok a =>
    obtain ⟨b, hb⟩ := hk a rfl
    exact iff_of_false (fun h => by cases hb.symm.trans h) (by simp)

/-- One step for each element of a list. -/
lemma FailsOnly.foldlM {k : β → α → Except ε β} {l : List α}
    (hk : ∀ b, ∀ a ∈ l, FailsOnly P (k b a)) (b : β) : FailsOnly P (l.foldlM k b) := by
  induction l generalizing b with
  | nil => exact .of_ok rfl
  | cons a l ih =>
    rw [List.foldlM_cons]
    exact (hk b a (by simp)).bind fun b' _ => ih (fun b a' ha' => hk b a' (by simp [ha'])) b'

/-- A computation that has no errors succeeds. -/
lemma FailsOnly.exists_ok {x : Except ε α} (h : FailsOnly (fun _ => False) x) :
    ∃ a, x = .ok a := by
  cases x with
  | error e => exact (h e rfl).elim
  | ok a => exact ⟨a, rfl⟩

/-- Renaming the errors does not matter where there are none. -/
lemma mapError_eq_ok_iff {f : ε → ε'} {x : Except ε α} {a : α} :
    x.mapError f = .ok a ↔ x = .ok a := by
  cases x <;> simp [Except.mapError]

/-- The errors of two steps in a row can be renamed in each of them. -/
lemma mapError_bind {f : ε → ε'} (x : Except ε α) (k : α → Except ε β) :
    (x >>= k).mapError f = x.mapError f >>= fun a => (k a).mapError f := by
  cases x <;> rfl

/-- The errors of one step for each element of a list can be renamed in each of them. -/
lemma mapError_foldlM {f : ε → ε'} (k : β → α → Except ε β) (l : List α) (b : β) :
    (l.foldlM k b).mapError f = l.foldlM (fun b a => (k b a).mapError f) b := by
  induction l generalizing b with
  | nil => rfl
  | cons a l ih =>
    rw [List.foldlM_cons, List.foldlM_cons, mapError_bind]
    simp only [ih]

/-- What the step for each element of a list preserves, all of them do. -/
lemma foldlM_preserves {Q : β → Prop} {k : β → α → Except ε β}
    (hk : ∀ b a c, Q b → k b a = .ok c → Q c) {l : List α} {b c : β} (hb : Q b)
    (h : l.foldlM k b = .ok c) : Q c := by
  induction l generalizing b with
  | nil =>
    cases h
    exact hb
  | cons a l ih =>
    rw [List.foldlM_cons, bind_eq_ok_iff] at h
    obtain ⟨d, hd, h⟩ := h
    exact ih (hk b a d hb hd) h

/-- Steps that succeed alike as long as something holds that they preserve, all of them succeed
alike. -/
lemma foldlM_eq_ok_congr {Q : β → Prop} {k : β → α → Except ε β} {k' : β → α → Except ε' β}
    (hQ : ∀ b a c, Q b → k b a = .ok c → Q c)
    (hk : ∀ b a c, Q b → (k b a = .ok c ↔ k' b a = .ok c)) (l : List α) {b c : β} (hb : Q b) :
    l.foldlM k b = .ok c ↔ l.foldlM k' b = .ok c := by
  induction l generalizing b with
  | nil => simp [pure, Except.pure]
  | cons a l ih =>
    rw [List.foldlM_cons, List.foldlM_cons, bind_eq_ok_iff, bind_eq_ok_iff]
    refine exists_congr fun d => ?_
    rw [← hk b a d hb]
    exact and_congr_right fun hd => ih (hQ b a d hb hd)

/-- Steps that succeed wherever other ones do, and alike, all of them do. -/
lemma foldlM_eq_ok_of_imp {k k' : β → α → Except ε β} (hk : ∀ b a c, k b a = .ok c → k' b a = .ok c)
    {l : List α} {b c : β} (h : l.foldlM k b = .ok c) : l.foldlM k' b = .ok c := by
  induction l generalizing b with
  | nil => exact h
  | cons a l ih =>
    rw [List.foldlM_cons, bind_eq_ok_iff] at h ⊢
    obtain ⟨d, hd, h⟩ := h
    exact ⟨d, hk b a d hd, ih h⟩

/-- If all steps succeed, then so does the one for each element. -/
lemma exists_of_foldlM_eq_ok {k : β → α → Except ε β} {l : List α} {b c : β}
    (h : l.foldlM k b = .ok c) {a : α} (ha : a ∈ l) : ∃ b' c', k b' a = .ok c' := by
  induction l generalizing b with
  | nil => exact absurd ha List.not_mem_nil
  | cons a' l ih =>
    rw [List.foldlM_cons, bind_eq_ok_iff] at h
    obtain ⟨d, hd, h⟩ := h
    rcases List.mem_cons.mp ha with rfl | ha
    · exact ⟨b, d, hd⟩
    · exact ih h ha

/-- One step for each element of each list. -/
lemma foldlM_flatMap {γ : Type} {f : γ → List α} (k : β → α → Except ε β) (l : List γ) (b : β) :
    (l.flatMap f).foldlM k b = l.foldlM (fun b a => (f a).foldlM k b) b := by
  induction l generalizing b with
  | nil => rfl
  | cons a l ih =>
    rw [List.flatMap_cons, List.foldlM_append, List.foldlM_cons]
    simp only [ih]

/-! ## Known errors -/

/-- The first of some errors, of which each one may be missing, or else a value. -/
def firstError (errors : List (Option ε)) (a : α) : Except ε α :=
  match errors.findSome? id with
  | some e => .error e
  | none => .ok a

/-- The errors of a step come before those of the next one. -/
lemma firstError_bind {k : α → Except ε β} {errors errors' : List (Option ε)} {a : α} {b : β}
    (hk : k a = firstError errors' b) :
    firstError errors a >>= k = firstError (errors ++ errors') b := by
  simp only [firstError, List.findSome?_append]
  cases errors.findSome? id with
  | some e => rfl
  | none => exact hk

/-- The errors of one step for each element of a list come in the order of the list, if what they
depend on is preserved. -/
lemma foldlM_eq_firstError {Q : β → Prop} {k : β → α → Except ε β} {errors : α → List (Option ε)}
    {f : β → α → β} (hk : ∀ b a, Q b → k b a = firstError (errors a) (f b a))
    (hQ : ∀ b a, Q b → Q (f b a)) (l : List α) {b : β} (hb : Q b) :
    l.foldlM k b = firstError (l.flatMap errors) (l.foldl f b) := by
  induction l generalizing b with
  | nil => rfl
  | cons a l ih =>
    rw [List.foldlM_cons, hk b a hb, List.flatMap_cons, List.foldl_cons]
    exact firstError_bind (ih (hQ b a hb))

/-! ## Changing a state -/

/-- The state that a computation leaves, whether it fails or not. -/
def stateLeft {σ : Type} : EStateM.Result ε σ α → σ
  | .ok _ s => s
  | .error _ s => s

section State

variable {σ : Type} {s s' : σ} {x : Except ε α} {y : EStateM ε σ α} {a : α} {e : ε}

/-- After a step that succeeds the next one goes on with the state that it leaves. -/
lemma bind_of_ok (h : y s = .ok a s') (k : α → EStateM ε σ β) : (y >>= k) s = k a s' := by
  simp only [bind, EStateM.bind, h]

/-- To look at the state changes nothing. -/
lemma bind_get (k : σ → EStateM ε σ β) : (get >>= k) s = k s s := rfl

/-- Neither does what succeeds without the state. -/
lemma bind_ofExcept_of_ok (h : x = .ok a) (k : α → EStateM ε σ β) :
    (MonadExcept.ofExcept x >>= k) s = k a s := by
  subst h
  rfl

/-- What fails without the state leaves it as it is. -/
lemma bind_ofExcept_of_error (h : x = .error e) (k : α → EStateM ε σ β) :
    (MonadExcept.ofExcept x >>= k) s = .error e s := by
  subst h
  rfl

end State

end PartialRedundancy
