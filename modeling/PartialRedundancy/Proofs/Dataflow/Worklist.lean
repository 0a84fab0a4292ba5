import Mathlib.Data.List.Perm.Subperm
import PartialRedundancy.Dataflow.Worklist
import PartialRedundancy.Proofs.Lookup

/-!
# Worklists hold each node once

The marks of a worklist and its listing say the same, and no node is listed twice.

## Main definitions

* `Worklist.Consistent` — the marks tell which nodes are listed, each of them once.

## Main results

* `Worklist.Consistent.push`, `Worklist.Consistent.pushAll`, `Worklist.Consistent.pop` — the
  operations keep a worklist consistent.
* `Worklist.Consistent.length_le` — no more nodes wait than there are.
-/

namespace PartialRedundancy.Worklist

/-- The marks of the `size` nodes tell exactly which of them are listed, and none is listed
twice. -/
structure Consistent (w : Worklist) (size : Nat) : Prop where
  /-- Each node has its mark. -/
  size_queued : w.queued.size = size
  /-- The marked nodes are those that are listed. -/
  queued_iff : ∀ n, w.queued[n]? = some true ↔ n ∈ w.toList
  /-- No node is listed twice. -/
  nodup : w.toList.Nodup

variable {w v : Worklist} {size n : Nat} {ns : List Nat}

/-- The listed nodes are nodes. -/
lemma Consistent.lt (hw : w.Consistent size) (hn : n ∈ w.toList) : n < size := by
  rw [← hw.queued_iff, Array.getElem?_eq_some_iff] at hn
  obtain ⟨h, _⟩ := hn
  rwa [hw.size_queued] at h

/-- No more nodes wait than there are. -/
lemma Consistent.length_le (hw : w.Consistent size) : w.toList.length ≤ size := by
  have hsub : w.toList ⊆ List.range size := fun n hn => List.mem_range.mpr (hw.lt hn)
  have := (List.subperm_of_subset hw.nodup hsub).length_le
  rwa [List.length_range] at this

/-- The empty worklist is consistent. -/
lemma consistent_empty (size : Nat) : (empty size).Consistent size where
  size_queued := Array.size_replicate
  queued_iff n := by simp [empty, toList, Array.getElem?_replicate]
  nodup := by simp [empty, toList]

/-! ## Adding nodes -/

/-- Only nodes can be added. -/
lemma lt_of_push (h : w.push n = .ok v) : n < w.queued.size := by
  simp only [push, bind_eq_ok_iff] at h
  obtain ⟨_, hb, _⟩ := h
  rw [fetch_eq_ok_iff, Array.getElem?_eq_some_iff] at hb
  exact hb.1

/-- A node that waits already is not added again. -/
lemma Consistent.toList_push (hw : w.Consistent size) (h : w.push n = .ok v) :
    v.toList = if n ∈ w.toList then w.toList else w.toList ++ [n] := by
  rw [Worklist.toList_push h]
  exact if_congr (hw.queued_iff n) rfl rfl

/-- A node that is added waits afterwards, and so do those that waited before. -/
lemma Consistent.mem_push (hw : w.Consistent size) (h : w.push n = .ok v) {m : Nat} :
    m ∈ v.toList ↔ m ∈ w.toList ∨ m = n := by
  rw [hw.toList_push h]
  split
  · rename_i hn
    constructor
    · exact Or.inl
    · rintro (hm | rfl)
      · exact hm
      · exact hn
  · simp

/-- The marks after a push. -/
lemma queued_of_push (h : w.push n = .ok v) : v.queued = w.queued.setIfInBounds n true := by
  obtain ⟨front, back, queued⟩ := w
  simp only [push, bind_eq_ok_iff] at h
  obtain ⟨b, hb, h⟩ := h
  rw [fetch_eq_ok_iff] at hb
  cases b with
  | true =>
    obtain rfl : (⟨front, back, queued⟩ : Worklist) = v := by simpa using h
    obtain ⟨hn, hb⟩ := Array.getElem?_eq_some_iff.mp hb
    rw [Array.setIfInBounds_def, dif_pos hn]
    conv_rhs => rw [← hb]
    exact (Array.set_getElem_self hn).symm
  | false =>
    obtain rfl : (⟨front, n :: back, queued.setIfInBounds n true⟩ : Worklist) = v := by
      simpa using h
    rfl

/-- Adding a node keeps a worklist consistent. -/
lemma Consistent.push (hw : w.Consistent size) (h : w.push n = .ok v) : v.Consistent size where
  size_queued := by rw [queued_of_push h, Array.size_setIfInBounds, hw.size_queued]
  queued_iff m := by
    rw [queued_of_push h, hw.mem_push h, ← hw.queued_iff, Array.getElem?_setIfInBounds]
    have hn := lt_of_push h
    split
    · subst_vars
      simp [hn]
    · rename_i hne
      simp [Ne.symm hne]
  nodup := by
    rw [hw.toList_push h]
    split
    · exact hw.nodup
    · rename_i hn
      rw [List.nodup_append]
      refine ⟨hw.nodup, by simp, fun a ha b hb => ?_⟩
      rintro rfl
      exact hn (List.mem_singleton.mp hb ▸ ha)

/-- A node can always be added. -/
lemma Consistent.exists_push (hw : w.Consistent size) (hn : n < size) : ∃ v, w.push n = .ok v := by
  obtain ⟨front, back, queued⟩ := w
  have hn' : n < queued.size := Nat.lt_of_lt_of_eq hn hw.size_queued.symm
  cases hb : queued[n] with
  | true => exact ⟨_, by rw [Worklist.push, fetch_of_lt hn', hb]; rfl⟩
  | false => exact ⟨_, by rw [Worklist.push, fetch_of_lt hn', hb]; rfl⟩

/-- Adding nodes keeps a worklist consistent, and they wait afterwards together with those that
waited before. -/
lemma Consistent.pushAll (hw : w.Consistent size) (h : w.pushAll ns = .ok v) :
    v.Consistent size ∧ ∀ m, m ∈ v.toList ↔ m ∈ w.toList ∨ m ∈ ns := by
  unfold Worklist.pushAll at h
  induction ns generalizing w with
  | nil =>
    obtain rfl : w = v := by simpa using h
    exact ⟨hw, by simp⟩
  | cons n ns ih =>
    rw [List.foldlM_cons, bind_eq_ok_iff] at h
    obtain ⟨u, hu, h⟩ := h
    obtain ⟨hv, hmem⟩ := ih (hw.push hu) h
    refine ⟨hv, fun m => ?_⟩
    rw [hmem, hw.mem_push hu, List.mem_cons, or_assoc]

/-- Nodes can always be added. -/
lemma Consistent.exists_pushAll (hw : w.Consistent size) (hns : ∀ n ∈ ns, n < size) :
    ∃ v, w.pushAll ns = .ok v := by
  unfold Worklist.pushAll
  induction ns generalizing w with
  | nil => exact ⟨w, rfl⟩
  | cons n ns ih =>
    obtain ⟨u, hu⟩ := hw.exists_push (hns n (by simp))
    obtain ⟨v, hv⟩ := ih (hw.push hu) fun m hm => hns m (by simp [hm])
    exact ⟨v, by rw [List.foldlM_cons, hu]; exact hv⟩

/-! ## Taking a node -/

/-- The marks after a node was taken. -/
lemma queued_of_pop (h : w.pop = .ok (some n, v)) : v.queued = w.queued.setIfInBounds n false := by
  obtain ⟨front, back, queued⟩ := w
  cases front with
  | cons m front =>
    simp only [pop, bind_eq_ok_iff, pure_eq_ok_iff, store_eq_ok_iff] at h
    obtain ⟨_, ⟨_, rfl⟩, h⟩ := h
    cases h
    rfl
  | nil =>
    simp only [pop] at h
    cases hb : back.reverse with
    | nil => simp [hb] at h
    | cons m front =>
      simp only [hb, bind_eq_ok_iff, pure_eq_ok_iff, store_eq_ok_iff] at h
      obtain ⟨_, ⟨_, rfl⟩, h⟩ := h
      cases h
      rfl

/-- The node that is taken waited before. -/
lemma mem_of_pop (h : w.pop = .ok (some n, v)) : n ∈ w.toList := by
  rw [toList_of_pop h]
  exact List.mem_cons_self

/-- The nodes that wait afterwards waited before. -/
lemma mem_of_mem_pop (h : w.pop = .ok (some n, v)) {m : Nat} (hm : m ∈ v.toList) :
    m ∈ w.toList := by
  rw [toList_of_pop h]
  exact List.mem_cons_of_mem n hm

/-- Taking a node keeps a worklist consistent, and the node waits no longer. -/
lemma Consistent.pop (hw : w.Consistent size) (h : w.pop = .ok (some n, v)) :
    v.Consistent size ∧ n ∉ v.toList := by
  have hl := toList_of_pop h
  have hnodup := hw.nodup
  rw [hl, List.nodup_cons] at hnodup
  obtain ⟨hn, hnodup⟩ := hnodup
  refine ⟨⟨?_, fun m => ?_, hnodup⟩, hn⟩
  · rw [queued_of_pop h, Array.size_setIfInBounds, hw.size_queued]
  · have hm := hw.queued_iff m
    rw [hl, List.mem_cons] at hm
    rw [queued_of_pop h, Array.getElem?_setIfInBounds]
    split
    · rename_i hnm
      subst hnm
      simp [hn]
    · rename_i hnm
      rw [hm]
      simp [Ne.symm hnm]

/-- A consistent worklist can always be asked for its next node. -/
lemma Consistent.exists_pop (hw : w.Consistent size) : ∃ r, w.pop = .ok r := by
  have hlt := fun m hm => hw.size_queued.symm ▸ hw.lt (n := m) hm
  obtain ⟨front, back, queued⟩ := w
  cases front with
  | cons m front =>
    have hm : m < queued.size := hlt m (by simp [toList])
    exact ⟨_, by rw [Worklist.pop, store_of_lt hm]; rfl⟩
  | nil =>
    simp only [Worklist.pop]
    cases hb : back.reverse with
    | nil => exact ⟨_, rfl⟩
    | cons m front =>
      have hm : m < queued.size := hlt m (by simp [toList, hb])
      simp only [store_of_lt hm]
      exact ⟨_, rfl⟩

end PartialRedundancy.Worklist
