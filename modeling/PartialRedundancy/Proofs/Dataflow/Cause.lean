import PartialRedundancy.Proofs.Dataflow.Extremal

/-!
# Why a node leaves the extreme value

A run of a monotone system starts from one extreme value, and a node has the other value at the end
only if the equations force it to. So the other value never supports itself: along a cycle of the
graph it comes in from somewhere.

## Main results

* `SolverState.Ends.induction_other` — what the equations pass on to every node that is forced from
  the extreme value is true of all nodes that have left it.

## Design

The equations are read on an assignment that gives values to the same nodes as the run does, and the
other value to those of them that have the property.
-/

namespace PartialRedundancy.SolverState

variable {e : Equation} {g : FlowGraph} {seeding : Seeding} {s : SolverState} {n : Nat}

/-- Take a property that the boundary has, if its value is not the one that the run starts from, and
that every node has whose equation gives it the other value as soon as the sources with the other
value have the property. Then all nodes that have the other value at the end have the property.

**Proof sketch.** Give the other value to the nodes with the property, and the extreme value to the
rest. The equations support this assignment, since a node without the property is not forced from
the extreme value. So the last facts bound it, and a node that has the other value at the end has it
in the assignment as well. -/
lemma Ends.induction_other (h : s.Ends e g seeding) (he : e.IsMonotone g) {P : Nat → Prop}
    (hboundary : e.boundary = (!(e.origin seeding).start) → P (e.direction.boundary g))
    (hequation : ∀ n, e.direction.Region g seeding n → n ≠ e.direction.boundary g →
      ∀ x : Nat → Fact, (∀ m b, x m = .known b →
        e.direction.Region g seeding m ∧ (b = (!(e.origin seeding).start) → P m)) →
      e.RightSide g x n (!(e.origin seeding).start) → P n)
    (hn : factAt s.facts n = .known (!(e.origin seeding).start)) : P n := by
  classical
  generalize ho : e.origin seeding = o at *
  obtain ⟨x, hx⟩ := exists_facts (e.direction.Region g seeding)
    fun m => if P m then !o.start else o.start
  have hvalue (m : Nat) (b : Bool) (hm : x m = .known b) :
      e.direction.Region g seeding m ∧ (b = (!o.start) → P m) := by
    obtain ⟨hr, hb⟩ := (hx m b).mp hm
    refine ⟨hr, fun hother => ?_⟩
    by_contra hP
    rw [if_neg hP, hother] at hb
    exact Bool.not_ne_self _ hb.symm
  have hsupports : e.Supports g o x := by
    intro m a b hb ha hright
    obtain ⟨hr, hwm⟩ := (hx m a).mp ha
    refine Extreme.le_of_imp fun hstart => ?_
    by_contra hne
    obtain rfl : b = !o.start := Bool.eq_not.mpr hne
    rw [if_pos (hequation m hr hb x hvalue hright), hstart] at hwm
    exact Bool.not_ne_self _ hwm
  have hxb : (x (e.direction.boundary g)).Le o (.known e.boundary) := by
    rw [(hx _ _).mpr ⟨e.direction.region_boundary g seeding, rfl⟩]
    refine Extreme.le_of_imp fun hstart => ?_
    by_contra hne
    rw [if_pos (hboundary (Bool.eq_not.mpr hne))] at hstart
    exact Bool.not_ne_self _ hstart
  have hle := h.le he (ho.symm ▸ hsupports) (fun _ => facts_ne_unknown_iff hx) (ho.symm ▸ hxb) n
  rw [ho, hn] at hle
  obtain ⟨a, ha, hle⟩ := hle.of_known
  refine (hvalue n a ha).2 ?_
  by_contra hne
  exact Bool.not_ne_self _ (Extreme.Le.eq_of_ne hle hne).2

end PartialRedundancy.SolverState
