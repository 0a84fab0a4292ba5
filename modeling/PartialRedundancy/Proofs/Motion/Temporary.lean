import PartialRedundancy.Proofs.Motion.Insertion

/-!
# Every read of the temporary finds its value

On every path from the entry to a use that lazy code motion turns into a read of the temporary,
the temporary is set before, and no operand changes in between.

## Main results

* `Vectors.Computed.exists_latest` — lazy code motion inserts at the node at which busy code motion
  does, or later.
* `Vectors.Computed.not_isolated` — the last insertion on the path is not made for its own node
  alone.
* `exists_optimal_of_mem_redundant` — so it sets the temporary.

## Design

The exception is the entry. If it is down-safe, busy code motion would insert there, but only real
nodes take insertions.
-/

namespace PartialRedundancy

namespace Vectors.Computed

variable {g : FlowGraph} {seeding : Seeding} {V : Vectors} {m n : Nat} {p : Nat → Nat} {i k l : Nat}

/-! ## Along an edge -/

/-- An insertion at a node that is not latest is put off to every successor. -/
lemma delay_of_not_latest (h : V.Computed g seeding) (hmn : g.Edge m n) (hexit : m ≠ g.exit)
    (hd : V.delay.Holds m) (hl : ¬ V.latest.Holds m) : m ∉ g.usedNodes ∧ V.delay.Holds n := by
  have hreal := (FlowGraph.isReal_iff (FlowGraph.lt_of_edge hmn).1).mpr
    ⟨h.ne_entry_of_delay hd, hexit⟩
  refine ⟨fun hu => hl (h.holds_latest.mpr ⟨hreal, hd, Or.inl hu⟩), ?_⟩
  by_contra hn
  exact hl (h.holds_latest.mpr ⟨hreal, hd, Or.inr ⟨n, hmn, hn⟩⟩)

/-- Isolation passes on to every successor at which there is no new insertion. -/
lemma isolated_of_not_latest (h : V.Computed g seeding) (hmn : g.Edge m n) (hexit : m ≠ g.exit)
    (hn : Direction.backward.Region g seeding n) (hi : V.isolated.Holds m)
    (hl : ¬ V.latest.Holds n) : n ∉ g.usedNodes ∧ V.isolated.Holds n := by
  have hm : Direction.backward.Region g seeding m := hn.reader hmn
  exact ((h.holds_isolated hm hexit).mp hi n hmn hn).resolve_left hl

/-! ## Along a path -/

/-- Between a node that an insertion can be put off to and a use, lazy code motion makes a last
insertion. -/
lemma exists_latest (h : V.Computed g seeding) (hp : g.Path p k)
    (hexit : ∀ j ≤ k, p j ≠ g.exit) (hik : i ≤ k) (hd : V.delay.Holds (p i))
    (hu : p k ∈ g.usedNodes) :
    ∃ l, i ≤ l ∧ l ≤ k ∧ V.latest.Holds (p l) ∧ ∀ j, l < j → j ≤ k → ¬ V.latest.Holds (p j) := by
  obtain ⟨l₀, hil, hlk, hl⟩ : ∃ l, i ≤ l ∧ l ≤ k ∧ V.latest.Holds (p l) := by
    by_contra hnone
    push Not at hnone
    -- as long as there is no insertion, it is put off further
    have hdelay (j : Nat) (hij : i ≤ j) (hjk : j ≤ k) : V.delay.Holds (p j) := by
      induction j, hij using Nat.le_induction with
      | base => exact hd
      | succ j hij ih =>
        exact (h.delay_of_not_latest (hp j hjk) (hexit j (by omega)) (ih (by omega))
          (hnone j hij (by omega))).2
    have hdk := hdelay k hik le_rfl
    have hreal := (FlowGraph.isReal_iff (FlowGraph.mem_usedNodes.mp hu).1).mpr
      ⟨h.ne_entry_of_delay hdk, hexit k le_rfl⟩
    exact hnone k hik le_rfl (h.holds_latest.mpr ⟨hreal, hdk, Or.inl hu⟩)
  obtain ⟨l, hl₀, hlk', hlast⟩ := exists_last (Q := fun j => V.latest.Holds (p j)) hlk hl
  exact ⟨l, hil.trans hl₀, hlk', hlast⟩

/-- An insertion with a use after it, and no other insertion up to that use, is not isolated. -/
lemma not_isolated (h : V.Computed g seeding) (hp : g.Path p k) (hexit : ∀ j ≤ k, p j ≠ g.exit)
    (hk : Direction.backward.Region g seeding (p k)) (hlk : l ≤ k)
    (hlast : ∀ j, l < j → j ≤ k → ¬ V.latest.Holds (p j)) (hl : V.latest.Holds (p l))
    (hu : p k ∈ g.usedNodes) (hread : ¬ (V.latest.Holds (p k) ∧ V.isolated.Holds (p k))) :
    ¬ V.isolated.Holds (p l) := by
  intro hi
  have hstep (j : Nat) (hlj : l ≤ j) (hjk : j < k) (hj : V.isolated.Holds (p j)) :=
    h.isolated_of_not_latest (hp j hjk) (hexit j hjk.le) (hp.region_backward hk hjk) hj
      (hlast (j + 1) (by omega) hjk)
  have hisolated (j : Nat) (hlj : l ≤ j) (hjk : j ≤ k) : V.isolated.Holds (p j) := by
    induction j, hlj using Nat.le_induction with
    | base => exact hi
    | succ j hlj ih => exact (hstep j hlj hjk (ih (by omega))).2
  rcases hlk.lt_or_eq with hlt | rfl
  · obtain ⟨j, rfl⟩ : ∃ j, k = j + 1 := ⟨k - 1, by omega⟩
    exact (hstep j (by omega) (by omega) (hisolated j (by omega) (by omega))).1 hu
  · exact hread ⟨hl, hi⟩

end Vectors.Computed

/-- **Lazy code motion never reads a stale or unset temporary.** Every graph has finished sessions.
In each of them, take a use that is turned into a read of the temporary and that is down-safe, as
it always is if all nodes are resolved. Then every path to it from the entry that avoids the exit
sets the temporary at some node after which no operand changes, or it does so from the entry on,
and the entry is down-safe. -/
theorem exists_optimal_of_mem_redundant (g : FlowGraph) (seeding : Seeding) :
    (∃ V P, Finished g seeding V P) ∧
    ∀ V P, Finished g seeding V P → ∀ n ∈ P.redundant,
      (seeding = .eager → V.downSafety.Holds n) ∧
      (V.downSafety.Holds n → ∀ (p : Nat → Nat) (k : Nat), g.Path p k → p 0 = g.entry → p k = n →
        (∀ i ≤ k, p i ≠ g.exit) →
        ∃ i ≤ k, (∀ j, i ≤ j → j < k → p j ∉ g.killedNodes) ∧
          (p i ∈ P.optimal ∨ (p i = g.entry ∧ V.downSafety.Holds g.entry))) := by
  refine ⟨exists_finished g seeding, fun V P hfinished n hn => ?_⟩
  obtain ⟨hV, hP⟩ := hfinished.computed
  obtain ⟨_, _, _, hredundant⟩ := Placement.mem_of_classify (n := n) hV hP
  obtain ⟨hreal, hused, hread⟩ := hredundant.mp hn
  have hlt := FlowGraph.lt_of_mem_realNodes (FlowGraph.mem_realNodes.mpr hreal)
  refine ⟨?_, fun hsafe p k hp h0 hk hexit => ?_⟩
  · rintro rfl
    exact (hV.holds_downSafety hlt ((FlowGraph.isReal_iff hlt).mp hreal).2).mpr (Or.inl hused)
  · subst hk
    have hregion : Direction.backward.Region g seeding (p k) :=
      hV.solves_downSafety.region_of_holds hsafe
    obtain ⟨i, hik, hsi, hei, hkill⟩ := hV.exists_busy hp h0 (Or.inl hsafe)
    by_cases hentry : p i = g.entry
    · exact ⟨i, hik, hkill, Or.inr ⟨hentry, hentry ▸ hsi⟩⟩
    · have hdelay : V.delay.Holds (p i) :=
        (hV.holds_delay (hp.region_forward h0 hik) hentry).mpr (Or.inl ⟨hsi, hei⟩)
      obtain ⟨l, hil, hlk, hl, hlast⟩ := hV.exists_latest hp hexit hik hdelay hused
      have hni := hV.not_isolated hp hexit hregion hlk hlast hl hused hread
      obtain ⟨_, hoptimal, _, _⟩ := Placement.mem_of_classify (n := p l) hV hP
      exact ⟨l, hlk, fun j hlj => hkill j (hil.trans hlj), Or.inl (hoptimal.mpr ⟨hl, hni⟩)⟩

/-- Three real nodes in a row: one that changes an operand, and two that use the expression. -/
def useTwice : FlowGraph :=
  [Declaration.edge 1 2, .edge 2 3, .killed 1, .used 2, .used 3].foldl FlowGraph.attempt (.bare 3)

/-- The second use reads what is set at the first one. -/
theorem exists_optimal_useTwice : ∃ V,
    Finished useTwice .eager V ⟨.ofList [2], .ofList [2], ∅, .ofList [2, 3]⟩ ∧
      ∃ i ≤ 3, (∀ j, i ≤ j → j < 3 → j ∉ useTwice.killedNodes) ∧ i ∈ NodeSet.ofList [2] := by
  have hplacement : ((Session.new useTwice ⟨.eager⟩).after [.runAll]).placement =
      .ok ⟨.ofList [2], .ofList [2], ∅, .ofList [2, 3]⟩ := rfl
  obtain ⟨V, hV⟩ := exists_finished_of_placement _ hplacement
  obtain ⟨hsafe, hpaths⟩ :=
    (exists_optimal_of_mem_redundant useTwice .eager).2 V _ hV 3 (by decide)
  obtain ⟨i, hi, hkill, hset⟩ := hpaths (hsafe rfl) id 3 (by unfold FlowGraph.Path; decide) rfl rfl
    (by decide)
  refine ⟨V, hV, i, hi, hkill, ?_⟩
  rcases hset with hset | ⟨hentry, _⟩
  · exact hset
  · -- the entry is followed by the change of an operand
    exact absurd (show 1 ∈ useTwice.killedNodes by decide)
      (hkill 1 (by rw [show i = 0 from hentry]; decide) (by decide))

end PartialRedundancy
