/-!
# Finite sets of nodes

A finite set of node numbers, stored as its members in ascending order. The order is part of
the type, so two sets are equal exactly when they have the same members, and a listing of a
set is always sorted and never repeats a node.

## Main definitions

* `NodeSet` — a strictly ascending list of numbers.
* `NodeSet.insert`, `NodeSet.ofList`, `NodeSet.union`, `NodeSet.filter`, `NodeSet.interval` — the
  operations.

## Main results

* `NodeSet.ext`, `NodeSet.eq_of_toList` — a set is determined by its members, and by its listing.
* `NodeSet.mem_insert`, `NodeSet.mem_ofList`, `NodeSet.mem_union`, `NodeSet.mem_filter` — the
  members of the result of each operation.
-/

namespace PartialRedundancy

/-- A finite set of nodes. -/
structure NodeSet where
  /-- The members, in ascending order. -/
  toList : List Nat
  /-- Each member is smaller than those that stand after it. -/
  ascending : toList.Pairwise (· < ·)
deriving DecidableEq, Repr

namespace NodeSet

instance : Membership Nat NodeSet := ⟨fun s n => n ∈ s.toList⟩

instance (n : Nat) (s : NodeSet) : Decidable (n ∈ s) :=
  inferInstanceAs (Decidable (n ∈ s.toList))

/-- Membership is membership in the listing. -/
theorem mem_toList {n : Nat} {s : NodeSet} : n ∈ s.toList ↔ n ∈ s := Iff.rfl

/-- The set without members. -/
def empty : NodeSet := ⟨[], .nil⟩

instance : EmptyCollection NodeSet := ⟨empty⟩

instance : Inhabited NodeSet := ⟨empty⟩

/-- A set is contained in another one if all its members are members of the other one. -/
instance : HasSubset NodeSet := ⟨fun s t => ∀ n ∈ s.toList, n ∈ t⟩

instance (s t : NodeSet) : Decidable (s ⊆ t) :=
  inferInstanceAs (Decidable (∀ n ∈ s.toList, n ∈ t))

/-- Whether the set has no members. -/
def isEmpty (s : NodeSet) : Bool := s.toList.isEmpty

/-- The empty set has no members. -/
@[simp] theorem notMem_empty (n : Nat) : n ∉ (∅ : NodeSet) := List.not_mem_nil

/-! ## Insertion -/

/-- Puts `n` at its place in an ascending list that may already hold it. -/
def insertAscending (n : Nat) : List Nat → List Nat
  | [] => [n]
  | m :: rest =>
    if n < m then n :: m :: rest
    else if n = m then m :: rest
    else m :: insertAscending n rest

/-- Insertion adds its node and nothing else. -/
theorem mem_insertAscending {n m : Nat} {l : List Nat} :
    m ∈ insertAscending n l ↔ m = n ∨ m ∈ l := by
  induction l with
  | nil => simp [insertAscending]
  | cons x rest ih =>
    simp only [insertAscending]
    split
    · simp
    · split
      · rename_i h
        subst h
        simp
      · simp only [List.mem_cons, ih]
        exact ⟨fun h => by rcases h with h | h | h <;> simp [h],
          fun h => by rcases h with h | h | h <;> simp [h]⟩

/-- Insertion keeps a list ascending. -/
theorem pairwise_insertAscending {n : Nat} {l : List Nat} (h : l.Pairwise (· < ·)) :
    (insertAscending n l).Pairwise (· < ·) := by
  induction l with
  | nil => simp [insertAscending]
  | cons x rest ih =>
    obtain ⟨hx, hrest⟩ := List.pairwise_cons.mp h
    simp only [insertAscending]
    split
    · rename_i hn
      refine List.pairwise_cons.mpr ⟨fun y hy => ?_, h⟩
      rcases List.mem_cons.mp hy with rfl | hy
      · exact hn
      · exact Nat.lt_trans hn (hx y hy)
    · split
      · exact h
      · refine List.pairwise_cons.mpr ⟨fun y hy => ?_, ih hrest⟩
        rcases mem_insertAscending.mp hy with rfl | hy
        · omega
        · exact hx y hy

/-- The set with `n` added. -/
def insert (n : Nat) (s : NodeSet) : NodeSet :=
  ⟨insertAscending n s.toList, pairwise_insertAscending s.ascending⟩

/-- The members after an insertion. -/
@[simp] theorem mem_insert {n m : Nat} {s : NodeSet} : m ∈ s.insert n ↔ m = n ∨ m ∈ s :=
  mem_insertAscending

/-- The set of the nodes of a list, in whatever order and however often they stand there. -/
def ofList (l : List Nat) : NodeSet := l.foldr insert ∅

/-- The members of the set of a list are those of the list. -/
@[simp] theorem mem_ofList {n : Nat} {l : List Nat} : n ∈ ofList l ↔ n ∈ l := by
  induction l with
  | nil => simp [ofList]
  | cons m rest ih =>
    change n ∈ (ofList rest).insert m ↔ _
    simp [ih]

/-- The members of either of two sets. -/
def union (s t : NodeSet) : NodeSet := s.toList.foldr insert t

/-- The members of a union. -/
@[simp] theorem mem_union {n : Nat} {s t : NodeSet} : n ∈ s.union t ↔ n ∈ s ∨ n ∈ t := by
  have key (l : List Nat) : n ∈ l.foldr insert t ↔ n ∈ l ∨ n ∈ t := by
    induction l with
    | nil => simp
    | cons m rest ih => simp [ih, or_assoc]
  exact key s.toList

/-- The members that satisfy a condition. -/
def filter (p : Nat → Bool) (s : NodeSet) : NodeSet :=
  ⟨s.toList.filter p, s.ascending.filter p⟩

/-- The members of a filtered set. -/
@[simp] theorem mem_filter {n : Nat} {p : Nat → Bool} {s : NodeSet} :
    n ∈ s.filter p ↔ n ∈ s ∧ p n = true :=
  List.mem_filter

/-- The `count` nodes from `first` on. -/
def interval (first count : Nat) : NodeSet := ⟨List.range' first count, List.pairwise_lt_range'⟩

/-- The members of an interval. -/
@[simp] theorem mem_interval {first count n : Nat} :
    n ∈ interval first count ↔ first ≤ n ∧ n < first + count :=
  List.mem_range'_1

/-! ## Extensionality -/

/-- Two ascending lists with the same members are equal. -/
theorem eq_of_pairwise {l k : List Nat} (hl : l.Pairwise (· < ·)) (hk : k.Pairwise (· < ·))
    (h : ∀ n, n ∈ l ↔ n ∈ k) : l = k := by
  induction l generalizing k with
  | nil =>
    cases k with
    | nil => rfl
    | cons y _ => exact absurd ((h y).mpr (.head _)) List.not_mem_nil
  | cons x l ih =>
    cases k with
    | nil => exact absurd ((h x).mp (.head _)) List.not_mem_nil
    | cons y k =>
      obtain ⟨hx, hl'⟩ := List.pairwise_cons.mp hl
      obtain ⟨hy, hk'⟩ := List.pairwise_cons.mp hk
      have hxy : x = y := by
        rcases List.mem_cons.mp ((h x).mp (.head _)) with e | hxk
        · exact e
        · rcases List.mem_cons.mp ((h y).mpr (.head _)) with e | hyl
          · exact e.symm
          · exact absurd (Nat.lt_trans (hy x hxk) (hx y hyl)) (Nat.lt_irrefl y)
      subst hxy
      congr 1
      refine ih hl' hk' fun n => ⟨fun hn => ?_, fun hn => ?_⟩
      · rcases List.mem_cons.mp ((h n).mp (.tail _ hn)) with e | hn'
        · exact absurd (hx n hn) (by omega)
        · exact hn'
      · rcases List.mem_cons.mp ((h n).mpr (.tail _ hn)) with e | hn'
        · exact absurd (hy n hn) (by omega)
        · exact hn'

/-- A set is determined by its listing. -/
theorem eq_of_toList {s t : NodeSet} (h : s.toList = t.toList) : s = t := by
  cases s
  cases t
  simp only at h
  subst h
  rfl

/-- A set is determined by its members. -/
theorem ext {s t : NodeSet} (h : ∀ n, n ∈ s ↔ n ∈ t) : s = t :=
  eq_of_toList (eq_of_pairwise s.ascending t.ascending h)

/-- A set without members has an empty listing. -/
theorem isEmpty_iff {s : NodeSet} : s.isEmpty = true ↔ s.toList = [] := List.isEmpty_iff

/-- There is only one set without members. -/
theorem eq_of_isEmpty {s t : NodeSet} (hs : s.isEmpty = true) (ht : t.isEmpty = true) : s = t :=
  eq_of_toList ((isEmpty_iff.mp hs).trans (isEmpty_iff.mp ht).symm)

end NodeSet

end PartialRedundancy
