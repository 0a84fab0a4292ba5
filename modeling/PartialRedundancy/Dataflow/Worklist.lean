import PartialRedundancy.Lookup
import PartialRedundancy.NodeSet

/-!
# Worklists

A first-in first-out queue of nodes that holds each node at most once. One mark for each node
says whether it waits in the queue, so that it is not queued twice.

## Main definitions

* `Worklist` — the queue with its marks, and its listing `Worklist.toList`.
* `Worklist.push`, `Worklist.pushAll`, `Worklist.pop` — the operations.

## Main results

* `Worklist.toList_push` — a node that does not wait is added at the end.
* `Worklist.pop_eq_none_iff`, `Worklist.toList_of_pop` — the first node is taken, if there is one.
-/

namespace PartialRedundancy

/-- A queue of nodes, each at most once. -/
structure Worklist where
  /-- The nodes that are taken next, in order. -/
  front : List Nat
  /-- The nodes that are taken after those, the last of all first. -/
  back : List Nat
  /-- Whether each node waits in the queue. -/
  queued : Array Bool
deriving DecidableEq, Repr

namespace Worklist

/-- The nodes in the order in which they will be taken. -/
def toList (w : Worklist) : List Nat := w.front ++ w.back.reverse

/-- The queue in which none of `size` nodes waits. -/
def empty (size : Nat) : Worklist := ⟨[], [], Array.replicate size false⟩

/-- Whether no node waits. -/
def isEmpty (w : Worklist) : Bool := w.front.isEmpty && w.back.isEmpty

/-- A queue is empty exactly if its listing is. -/
theorem isEmpty_iff {w : Worklist} : w.isEmpty = true ↔ w.toList = [] := by
  simp [isEmpty, toList]

/-- Adds a node at the end, unless it waits already. -/
def push : Worklist → Nat → Except OutOfBounds Worklist
  | ⟨front, back, queued⟩, n => do
    if ← fetch queued n then return ⟨front, back, queued⟩
    else return ⟨front, n :: back, queued.setIfInBounds n true⟩

/-- Adds the nodes of a list one after the other. -/
def pushAll (w : Worklist) (ns : List Nat) : Except OutOfBounds Worklist := ns.foldlM push w

/-- Takes the first node, if there is one. It no longer waits, so it can be added again. -/
def pop : Worklist → Except OutOfBounds (Option Nat × Worklist)
  | ⟨n :: front, back, queued⟩ => do return (some n, ⟨front, back, ← store queued n false⟩)
  | ⟨[], back, queued⟩ =>
    match back.reverse with
    | n :: front => do return (some n, ⟨front, [], ← store queued n false⟩)
    | [] => return (none, ⟨[], [], queued⟩)

/-- The listing after a push. -/
theorem toList_push {w v : Worklist} {n : Nat} (h : w.push n = .ok v) :
    v.toList = if w.queued[n]? = some true then w.toList else w.toList ++ [n] := by
  obtain ⟨front, back, queued⟩ := w
  simp only [push, fetch] at h
  cases hq : queued[n]? with
  | none =>
    rw [hq] at h
    cases h
  | some b =>
    rw [hq] at h
    cases b <;> cases h <;> simp [toList]

/-- Nothing is taken exactly from the empty queue, which stays as it is. -/
theorem pop_eq_none_iff {w v : Worklist} : w.pop = .ok (none, v) ↔ w.toList = [] ∧ v = w := by
  obtain ⟨front, back, queued⟩ := w
  cases front with
  | cons n front =>
    simp only [pop, store, toList, List.cons_append, reduceCtorEq, false_and, iff_false]
    split <;> simp [bind, Except.bind, pure, Except.pure]
  | nil =>
    simp only [pop, store, toList, List.nil_append]
    cases hb : back.reverse with
    | nil =>
      obtain rfl := List.reverse_eq_nil_iff.mp hb
      simp [pure, Except.pure, eq_comm]
    | cons n front =>
      simp only [reduceCtorEq, false_and, iff_false]
      split <;> simp [bind, Except.bind, pure, Except.pure]

/-- What is taken is the first node, and the others are left in their order. -/
theorem toList_of_pop {w v : Worklist} {n : Nat} (h : w.pop = .ok (some n, v)) :
    w.toList = n :: v.toList := by
  obtain ⟨front, back, queued⟩ := w
  cases front with
  | cons m front =>
    simp only [pop, store] at h
    split at h <;> simp [bind, Except.bind, pure, Except.pure] at h
    obtain ⟨rfl, rfl⟩ := h
    simp [toList]
  | nil =>
    simp only [pop, store] at h
    cases hb : back.reverse with
    | nil =>
      rw [hb] at h
      cases h
    | cons m front =>
      rw [hb] at h
      simp only at h
      split at h <;> simp [bind, Except.bind, pure, Except.pure] at h
      obtain ⟨rfl, rfl⟩ := h
      simp [toList, hb]

end Worklist

end PartialRedundancy
