/-!
# Checked lookups

Tables and fact vectors are indexed by node numbers, and a vector that comes from a caller may
be shorter than the graph it is used with. A lookup is therefore an operation that can fail,
and its failure says how long the table was and which place was asked for.

## Main definitions

* `OutOfBounds` — the failure of a lookup, with its wording `OutOfBounds.message`.
* `fetch` — the element of an array at a place, or the failure.
* `store` — the array with another element at a place, or the failure.

## Main results

* `fetch_eq_ok_iff`, `fetch_eq_error_iff` — a lookup succeeds exactly below the size, with the
  element that stands there.
* `store_eq_ok_iff` — so does a replacement, and it replaces that element alone.
-/

namespace PartialRedundancy

/-- A lookup at place `index` of a table of `size` elements, with `size ≤ index`. -/
structure OutOfBounds where
  /-- The number of elements of the table. -/
  size : Nat
  /-- The place that was asked for. -/
  index : Nat
deriving DecidableEq, Repr

/-- The wording of a failed lookup. -/
def OutOfBounds.message (e : OutOfBounds) : String :=
  s!"index out of bounds: the len is {e.size} but the index is {e.index}"

variable {α : Type}

/-- The element of `xs` at place `i`. -/
def fetch (xs : Array α) (i : Nat) : Except OutOfBounds α :=
  match xs[i]? with
  | some x => .ok x
  | none => .error ⟨xs.size, i⟩

/-- A lookup succeeds with `x` exactly when `x` stands at the place asked for. -/
theorem fetch_eq_ok_iff {xs : Array α} {i : Nat} {x : α} :
    fetch xs i = .ok x ↔ xs[i]? = some x := by
  unfold fetch
  cases xs[i]? <;> simp

/-- A lookup fails exactly at the places past the end, and reports size and place. -/
theorem fetch_eq_error_iff {xs : Array α} {i : Nat} {e : OutOfBounds} :
    fetch xs i = .error e ↔ xs.size ≤ i ∧ e = ⟨xs.size, i⟩ := by
  unfold fetch
  by_cases h : i < xs.size
  · simp [h, Nat.not_le.mpr h]
  · simp [h, Nat.not_lt.mp h, eq_comm]

/-- Below the size a lookup succeeds. -/
theorem fetch_of_lt {xs : Array α} {i : Nat} (h : i < xs.size) : fetch xs i = .ok xs[i] := by
  simp [fetch, h]

/-- The array `xs` with `x` at place `i`. -/
def store (xs : Array α) (i : Nat) (x : α) : Except OutOfBounds (Array α) :=
  if i < xs.size then .ok (xs.setIfInBounds i x) else .error ⟨xs.size, i⟩

/-- A replacement succeeds exactly below the size, and replaces the element at its place. -/
theorem store_eq_ok_iff {xs ys : Array α} {i : Nat} {x : α} :
    store xs i x = .ok ys ↔ i < xs.size ∧ ys = xs.setIfInBounds i x := by
  unfold store
  split
  · rename_i h
    simp [h, eq_comm]
  · rename_i h
    simp [h]

end PartialRedundancy
