import Mathlib.Data.Nat.Count
import PartialRedundancy.Proofs.Motion.Insertion

/-!
# What lazy code motion costs on a path

On a path from the entry to the exit, lazy code motion computes the expression at most once for
each use on the path and once for each step at which branches and joins force an insertion on the
path that only other paths need. If the joins of the graph are split there are no such steps, and
lazy code motion makes no path more expensive. In general it does, since an insertion goes into a
node and not onto an edge.

## Main definitions

* `FlowGraph.Joined`, `FlowGraph.Branches` — control arrives from elsewhere, or leaves to elsewhere.
* `FlowGraph.Shares` — a step of a path from which or into which another path forces an insertion.
* `FlowGraph.JoinsSplit` — an edge into a join comes from a node with no other purpose.
* `Vectors.Pending` — the value is available and still to be used.

## Main results

* `Vectors.Computed.lazy_or_pending` — what one step of a path preserves.
* `count_lazy_le` — the bound for every path.
* `not_count_lazy_le_count_used` — without the shared steps there is no such bound.

## Design

The proof is an amortised count. Where the value of the expression is available and still to be
used, the path is in debt for the insertion that made it available, and the next use pays. At the
exit, which is not down-safe, nothing is owed.
-/

namespace PartialRedundancy

/-! ## Shared steps -/

/-- Control arrives at node `n` otherwise than from `m`: it is the entry, or it has another
predecessor. -/
def FlowGraph.Joined (g : FlowGraph) (m n : Nat) : Prop :=
  n = g.entry ∨ ∃ r < g.size, g.Edge r n ∧ r ≠ m

instance (g : FlowGraph) (m n : Nat) : Decidable (g.Joined m n) :=
  inferInstanceAs (Decidable (_ ∨ _))

/-- Control leaves node `m` otherwise than to `n`. -/
def FlowGraph.Branches (g : FlowGraph) (m n : Nat) : Prop := ∃ s < g.size, g.Edge m s ∧ s ≠ n

instance (g : FlowGraph) (m n : Nat) : Decidable (g.Branches m n) :=
  inferInstanceAs (Decidable (∃ s < g.size, _))

/-- The step from `m` to `n` of a path may meet an insertion that only other paths need. Either the
insertion is at `m`, which does not use the expression, and is made there for the sake of another
successor, at which control from elsewhere arrives as well. Or the insertion of busy code motion is
at `n`, for the sake of another predecessor, which changes an operand, or is the exit, or leads
elsewhere as well. -/
def FlowGraph.Shares (g : FlowGraph) (P : Placement) (m n : Nat) : Prop :=
  (m ∈ P.lazy ∧ m ∉ g.usedNodes ∧ ∃ s < g.size, g.Edge m s ∧ s ≠ n ∧ g.Joined m s) ∨
  (n ∈ P.busy ∧ ∃ q < g.size, g.Edge q n ∧ q ≠ m ∧
    (q ∈ g.killedNodes ∨ q = g.exit ∨ g.Branches q n))

instance (g : FlowGraph) (P : Placement) (m n : Nat) : Decidable (g.Shares P m n) :=
  inferInstanceAs (Decidable (_ ∨ _))

/-- Every edge into a join comes from a node that leads nowhere else, changes no operand and is not
the exit. -/
def FlowGraph.JoinsSplit (g : FlowGraph) : Prop :=
  ∀ m < g.size, ∀ n < g.size, g.Edge m n ∧ g.Joined m n →
    m ∉ g.killedNodes ∧ m ≠ g.exit ∧ ¬ g.Branches m n

instance (g : FlowGraph) : Decidable g.JoinsSplit :=
  inferInstanceAs (Decidable (∀ m < g.size, ∀ n < g.size, _))

/-- If the joins are split, no step is shared. -/
lemma FlowGraph.JoinsSplit.not_shares {g : FlowGraph} (h : g.JoinsSplit) {P : Placement} {m n : Nat}
    (hmn : g.Edge m n) : ¬ g.Shares P m n := by
  obtain ⟨hm, hn⟩ := lt_of_edge hmn
  rintro (⟨_, _, s, hslt, hs, hsn, hjoin⟩ | ⟨_, q, hqlt, hq, hqm, hshare⟩)
  · obtain ⟨_, _, honly⟩ := h m hm s hslt ⟨hs, hjoin⟩
    exact honly ⟨n, hn, hmn, hsn.symm⟩
  · obtain ⟨hkill, hexit, honly⟩ := h q hqlt n hn ⟨hq, Or.inr ⟨m, hm, hmn, hqm.symm⟩⟩
    rcases hshare with hk | he | hbranch
    · exact hkill hk
    · exact hexit he
    · exact honly hbranch

namespace Vectors

/-- The value of the expression is available at node `n` and sure to be used: the node is down-safe,
and no insertion can be put off to it. -/
def Pending (V : Vectors) (n : Nat) : Prop := V.downSafety.Holds n ∧ ¬ V.delay.Holds n

instance (V : Vectors) (n : Nat) : Decidable (V.Pending n) := inferInstanceAs (Decidable (_ ∧ _))

namespace Computed

variable {g : FlowGraph} {V : Vectors} {P : Placement} {m n : Nat} {p : Nat → Nat} {i k : Nat}

/-! ## One step -/

/-- An insertion that is neither for a use of its own node nor for the sake of another successor
makes the value available at the next node. -/
lemma pending_of_lazy (h : V.Computed g .eager) (hP : Placement.classify g V = .ok P)
    (hmn : g.Edge m n) (hsafe : V.downSafety.Holds m) (hm : m ∈ P.lazy) (hu : m ∉ g.usedNodes)
    (hshare : ¬ g.Shares P m n) : V.Pending n := by
  obtain ⟨_, hd, hlast⟩ := h.holds_latest.mp ((Placement.mem_lazy_of_classify h hP).mp hm)
  obtain ⟨s, hs, hds⟩ := hlast.resolve_left hu
  refine ⟨(h.safe_of_edge hsafe hu).2 n hmn (FlowGraph.lt_of_edge hmn).2,
    fun hdn => hshare (Or.inl ⟨hm, hu, s, ?_⟩)⟩
  have hlt := (FlowGraph.lt_of_edge hs).2
  refine ⟨hlt, hs, fun hsn => hds (hsn ▸ hdn), ?_⟩
  by_contra hjoin
  rw [FlowGraph.Joined] at hjoin
  push Not at hjoin
  -- all control arrives from `m`, past which the insertion could be put off
  refine hds ((h.holds_delay hlt hjoin.1).mpr (Or.inr fun r hr hrlt => ?_))
  obtain rfl := hjoin.2 r hrlt hr
  exact ⟨hu, hd⟩

/-- A value that is available, and not used, stays available, if no insertion is made for the sake
of another predecessor of the next node. -/
lemma pending_of_pending (h : V.Computed g .eager) (hP : Placement.classify g V = .ok P)
    (hmn : g.Edge m n) (hm : V.Pending m) (hu : m ∉ g.usedNodes) (hshare : ¬ g.Shares P m n) :
    V.Pending n := by
  obtain ⟨hsafe, hd⟩ := hm
  obtain ⟨hmlt, hnlt⟩ := FlowGraph.lt_of_edge hmn
  obtain ⟨hkill, hsucc⟩ := h.safe_of_edge hsafe hu
  refine ⟨hsucc n hmn hnlt, fun hdn => hshare (Or.inr ?_)⟩
  have hentry := h.ne_entry_of_delay hdn
  -- the insertion is not put off to `n` from `m`, so it is moved there in the first place
  obtain ⟨hsn, hen⟩ : V.downSafety.Holds n ∧ V.earliest.Holds n := by
    refine ((h.holds_delay hnlt hentry).mp hdn).resolve_right fun hpred => ?_
    exact hd (hpred m hmn hmlt).2
  refine ⟨Placement.mem_busy_of_classify h hP hsn hen hentry, ?_⟩
  obtain ⟨q, hq, hqlt, hstop⟩ := (h.holds_earliest hnlt hentry).mp hen
  refine ⟨q, hqlt, hq, ?_, ?_⟩
  · rintro rfl
    rcases hstop with ⟨hns, _⟩ | hk
    · exact hns hsafe
    · exact hkill hk
  · rcases hstop with ⟨hns, _⟩ | hk
    · by_cases hqexit : q = g.exit
      · exact Or.inr (Or.inl hqexit)
      · rw [h.holds_downSafety hqlt hqexit] at hns
        push Not at hns
        by_cases hk : q ∈ g.killedNodes
        · exact Or.inl hk
        · obtain ⟨s, hs, hslt, hns⟩ := hns.2 hk
          refine Or.inr (Or.inr ⟨s, hslt, hs, ?_⟩)
          rintro rfl
          exact hns hsn
    · exact Or.inl hk

/-- What one step of a path preserves: an insertion at a node, or a value that is available there,
is used at the node, or it is available at the next node, or the step is shared. No value is
available where an insertion is made. -/
lemma lazy_or_pending (h : V.Computed g .eager) (hP : Placement.classify g V = .ok P)
    (hmn : g.Edge m n) (hsafe : V.delay.Holds m → V.downSafety.Holds m) :
    (m ∈ P.lazy ∨ V.Pending m → m ∈ g.usedNodes ∨ g.Shares P m n ∨ V.Pending n) ∧
      ¬ (m ∈ P.lazy ∧ V.Pending m) := by
  have hdelay (hm : m ∈ P.lazy) : V.delay.Holds m :=
    (h.holds_latest.mp ((Placement.mem_lazy_of_classify h hP).mp hm)).2.1
  refine ⟨fun hm => ?_, fun ⟨hm, hpending⟩ => hpending.2 (hdelay hm)⟩
  by_cases hu : m ∈ g.usedNodes
  · exact Or.inl hu
  by_cases hshare : g.Shares P m n
  · exact Or.inr (Or.inl hshare)
  refine Or.inr (Or.inr ?_)
  rcases hm with hm | hm
  · exact h.pending_of_lazy hP hmn (hsafe (hdelay hm)) hm hu hshare
  · exact h.pending_of_pending hP hmn hm hu hshare

/-! ## A whole path -/

/-- The insertions on the first part of a path are paid for by the uses and the shared steps there,
up to one if a value is available at its end.

**Proof sketch.** Induction on the length of the part. By `lazy_or_pending` every node is charged
at most once, for an insertion or for a value that is available there, and the charge is paid by a
use, by a shared step or by the value that is available at the next node. -/
lemma count_lazy_prefix_le (h : V.Computed g .eager) (hP : Placement.classify g V = .ok P)
    (hp : g.Path p k) (h0 : p 0 = g.entry) (hi : i ≤ k) :
    Nat.count (fun j => p j ∈ P.lazy) i ≤ Nat.count (fun j => p j ∈ g.usedNodes) i +
      Nat.count (fun j => g.Shares P (p j) (p (j + 1))) i + if V.Pending (p i) then 1 else 0 := by
  induction i with
  | zero => simp
  | succ i ih =>
    have hstep := ih (by omega)
    obtain ⟨hpay, hdisjoint⟩ :=
      h.lazy_or_pending hP (hp i hi) (h.safe_of_delay (hp.of_le (by omega)) h0
        (FlowGraph.lt_of_edge (hp i hi)).1)
    rw [Nat.count_succ, Nat.count_succ, Nat.count_succ]
    by_cases hl : p i ∈ P.lazy
    · have hn : ¬ V.Pending (p i) := fun hn => hdisjoint ⟨hl, hn⟩
      rw [if_neg hn] at hstep
      rcases hpay (Or.inl hl) with hu | hshare | hnext
      · rw [if_pos hl, if_pos hu]
        omega
      · rw [if_pos hl, if_pos hshare]
        omega
      · rw [if_pos hl, if_pos hnext]
        omega
    · rw [if_neg hl]
      by_cases hn : V.Pending (p i)
      · rw [if_pos hn] at hstep
        rcases hpay (Or.inr hn) with hu | hshare | hnext
        · rw [if_pos hu]
          omega
        · rw [if_pos hshare]
          omega
        · rw [if_pos hnext]
          omega
      · rw [if_neg hn] at hstep
        omega

end Computed

end Vectors

/-- **What lazy code motion costs on a path.** Every graph has finished eager sessions. In each of
them, every path from the entry to the exit has at most as many insertions of lazy code motion as
it has uses and shared steps. If the joins of the graph are split, it has at most as many
insertions as uses. -/
theorem count_lazy_le (g : FlowGraph) :
    (∃ V P, Finished g .eager V P) ∧
    ∀ V P, Finished g .eager V P → ∀ (p : Nat → Nat) (k : Nat), g.Path p k →
      p 0 = g.entry → p k = g.exit →
      Nat.count (fun i => p i ∈ P.lazy) (k + 1) ≤ Nat.count (fun i => p i ∈ g.usedNodes) (k + 1) +
        Nat.count (fun i => g.Shares P (p i) (p (i + 1))) k ∧
      (g.JoinsSplit → Nat.count (fun i => p i ∈ P.lazy) (k + 1) ≤
        Nat.count (fun i => p i ∈ g.usedNodes) (k + 1)) := by
  refine ⟨exists_finished g .eager, fun V P hfinished p k hp h0 hk => ?_⟩
  obtain ⟨hV, hP⟩ := hfinished.computed
  have hprefix := hV.count_lazy_prefix_le hP hp h0 le_rfl
  have hexit : ¬ V.Pending (p k) := by
    rintro ⟨hs, _⟩
    exact hV.ne_exit_of_safe hs hk
  have hlast : p k ∉ P.lazy := by
    intro hl
    obtain ⟨hreal, _⟩ := hV.holds_latest.mp ((Placement.mem_lazy_of_classify hV hP).mp hl)
    exact ((FlowGraph.isReal_iff (hk ▸ Nat.lt_succ_self _)).mp hreal).2 hk
  rw [if_neg hexit] at hprefix
  have hbound : Nat.count (fun i => p i ∈ P.lazy) (k + 1) ≤
      Nat.count (fun i => p i ∈ g.usedNodes) (k + 1) +
        Nat.count (fun i => g.Shares P (p i) (p (i + 1))) k := by
    rw [Nat.count_succ, Nat.count_succ, if_neg hlast]
    omega
  refine ⟨hbound, fun hsplit => ?_⟩
  have hnone : Nat.count (fun i => g.Shares P (p i) (p (i + 1))) k = 0 := by
    rw [Nat.count_iff_forall_not]
    exact fun i hi => hsplit.not_shares (hp i hi)
  omega

/-- A branch with a use in one arm, and a use after the join. -/
def diamond : FlowGraph :=
  [Declaration.edge 1 2, .edge 1 3, .edge 2 4, .edge 3 4, .killed 1, .used 2, .used 4].foldl
    FlowGraph.attempt (.bare 4)

/-- The insertion in the other arm pays for the use after the join. -/
theorem count_lazy_diamond : diamond.JoinsSplit ∧ ∃ V,
    Finished diamond .eager V ⟨.ofList [2, 3], .ofList [2, 3], ∅, .ofList [2, 4]⟩ ∧
      Nat.count (fun i => [0, 1, 3, 4, 5].getD i 0 ∈ NodeSet.ofList [2, 3]) 5 ≤
        Nat.count (fun i => [0, 1, 3, 4, 5].getD i 0 ∈ diamond.usedNodes) 5 := by
  have hsplit : diamond.JoinsSplit := by decide
  have hplacement : ((Session.new diamond ⟨.eager⟩).after [.runAll]).placement =
      .ok ⟨.ofList [2, 3], .ofList [2, 3], ∅, .ofList [2, 4]⟩ := rfl
  obtain ⟨V, hV⟩ := exists_finished_of_placement _ hplacement
  have hpath : diamond.Path (fun i => [0, 1, 3, 4, 5].getD i 0) 4 := by
    unfold FlowGraph.Path
    decide
  exact ⟨hsplit, V, hV, ((count_lazy_le diamond).2 V _ hV _ 4 hpath rfl rfl).2 hsplit⟩

/-- A branch that leads to a join directly: node 2 leads to the join 4 and to the use 5. -/
def shortcut : FlowGraph :=
  [Declaration.edge 1 2, .edge 1 3, .edge 2 4, .edge 2 5, .edge 3 4, .edge 4 6, .killed 1, .used 3,
    .used 4, .used 5].foldl FlowGraph.attempt (.bare 5)

/-- Without regard to the shared steps there is no bound. The insertion at node 2 serves the use at
the join, and the way past the join has a use of its own, which does not read it. -/
theorem not_count_lazy_le_count_used : ¬ ∀ (g : FlowGraph) (V : Vectors) (P : Placement),
    Finished g .eager V P → ∀ (p : Nat → Nat) (k : Nat), g.Path p k → p 0 = g.entry →
      p k = g.exit → Nat.count (fun i => p i ∈ P.lazy) (k + 1) ≤
        Nat.count (fun i => p i ∈ g.usedNodes) (k + 1) := by
  intro hbound
  have hplacement : ((Session.new shortcut ⟨.eager⟩).after [.runAll]).placement =
      .ok ⟨.ofList [2, 3], .ofList [2, 3], .ofList [5], .ofList [3, 4]⟩ := rfl
  obtain ⟨V, hV⟩ := exists_finished_of_placement _ hplacement
  have hpath : shortcut.Path (fun i => [0, 1, 2, 5, 6].getD i 0) 4 := by
    unfold FlowGraph.Path
    decide
  have hcount := hbound shortcut V _ hV _ 4 hpath rfl rfl
  revert hcount
  decide

end PartialRedundancy
