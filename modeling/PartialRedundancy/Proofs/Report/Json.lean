import Mathlib.Data.List.Basic
import PartialRedundancy.Proofs.Json.Pretty
import PartialRedundancy.Report.Json

/-!
# The JSON text of a report tells the report

Two reports with the same JSON text are the same report, although the field for unknown nodes is
left out where there are none.

## Main results

* `Report.toJson_injective` — the value of a report tells the report.
* `Report.plain_toJson` — all names in it are plain.
* `Report.json_injective` — the JSON text of a report tells the report.
-/

namespace PartialRedundancy

open Json (Unquoted Value)

/-! ## Values -/

/-- The array of a set tells the set. -/
lemma NodeSet.toJson_injective : Function.Injective NodeSet.toJson := by
  intro s t h
  have hmap : s.toList.map Value.number = t.toList.map Value.number := Value.list.inj h
  have hlist := List.map_injective_iff.mpr (fun _ _ => Value.number.inj) hmap
  exact eq_of_toList hlist

/-- The name of an analysis tells the analysis. -/
lemma Analysis.name_injective : Function.Injective Analysis.name := by
  intro a b h
  cases a <;> cases b <;> first | rfl | exact absurd h (by decide)

/-- The name of a seeding tells the seeding. -/
lemma Seeding.name_injective : Function.Injective Seeding.name := by
  intro a b h
  cases a <;> cases b <;> first | rfl | exact absurd h (by decide)

/-- The object of a vector tells the vector: it has a third field exactly if there are unknown
nodes. -/
lemma VectorReport.toJson_injective : Function.Injective VectorReport.toJson := by
  intro v w h
  have hfields := Value.record.inj h
  have hparts : v.analysis = w.analysis ∧ v.holding = w.holding ∧ v.unknown = w.unknown := by
    split at hfields <;> split at hfields
    case isTrue.isTrue hv hw =>
      simp only [List.append_nil, List.cons.injEq, Prod.mk.injEq, Value.name.injEq, true_and,
        and_true, Analysis.name_injective.eq_iff, NodeSet.toJson_injective.eq_iff] at hfields
      exact ⟨hfields.1, hfields.2, NodeSet.eq_of_isEmpty hv hw⟩
    case isTrue.isFalse => exact absurd (congrArg List.length hfields) (by simp)
    case isFalse.isTrue => exact absurd (congrArg List.length hfields) (by simp)
    case isFalse.isFalse =>
      simpa [Analysis.name_injective.eq_iff, NodeSet.toJson_injective.eq_iff] using hfields
  cases v
  cases w
  exact (VectorReport.mk.injEq ..).mpr hparts

/-- Placements are equal exactly if their four sets are. -/
lemma Placement.eq_iff {P P' : Placement} : P = P' ↔ P.busy = P'.busy ∧ P.optimal = P'.optimal ∧
    P.isolated = P'.isolated ∧ P.redundant = P'.redundant := by
  cases P
  cases P'
  exact iff_of_eq (Placement.mk.injEq ..)

/-- The object of a placement tells the placement. -/
lemma Placement.toJson_injective : Function.Injective Placement.toJson := by
  intro p q h
  simp only [Placement.toJson, Value.record.injEq, List.cons.injEq, Prod.mk.injEq, true_and,
    and_true, NodeSet.toJson_injective.eq_iff] at h
  exact Placement.eq_iff.mpr h

/-- The object of a report tells the report. -/
lemma Report.toJson_injective : Function.Injective Report.toJson := by
  intro r s h
  simp only [Report.toJson, Value.record.injEq, List.cons.injEq, Prod.mk.injEq, true_and, and_true,
    Value.name.injEq, Value.number.injEq, Value.list.injEq, NodeSet.toJson_injective.eq_iff,
    Seeding.name_injective.eq_iff, Placement.toJson_injective.eq_iff,
    (List.map_injective_iff.mpr VectorReport.toJson_injective).eq_iff] at h
  obtain ⟨hs, hN, hu, hk, hv, hp⟩ := h
  cases r
  cases s
  exact (Report.mk.injEq ..).mpr ⟨hs, hN, hu, hk, hv, hp⟩

/-! ## Names -/

/-- A set has no names. -/
lemma NodeSet.plain_toJson (s : NodeSet) : s.toJson.Plain :=
  .list fun v hv => by
    obtain ⟨n, _, rfl⟩ := List.mem_map.mp hv
    exact .number n

/-- The name of an analysis is plain. -/
lemma Analysis.unquoted_name (a : Analysis) : Unquoted a.name := by
  cases a <;> decide

/-- The name of a seeding is plain. -/
lemma Seeding.unquoted_name (s : Seeding) : Unquoted s.name := by
  cases s <;> decide

/-- The names in the object of a vector are plain. -/
lemma VectorReport.plain_toJson (v : VectorReport) : v.toJson.Plain := by
  have hname : (Value.name v.analysis.name).Plain := .name v.analysis.unquoted_name
  have hholding := v.holding.plain_toJson
  have hunknown := v.unknown.plain_toJson
  unfold toJson
  split
  · exact .record (by simp; decide) (by simp [hname, hholding])
  · exact .record (by simp; decide) (by simp [hname, hholding, hunknown])

/-- The names in the object of a placement are plain. -/
lemma Placement.plain_toJson (p : Placement) : p.toJson.Plain :=
  .record (by simp; decide) (by simp [NodeSet.plain_toJson])

/-- The names in the object of a report are plain. -/
lemma Report.plain_toJson (r : Report) : r.toJson.Plain := by
  have hseeding : (Value.name r.seeding.name).Plain := .name r.seeding.unquoted_name
  have hvectors : (Value.list (r.vectors.map VectorReport.toJson)).Plain :=
    .list fun v hv => by
      obtain ⟨v, _, rfl⟩ := List.mem_map.mp hv
      exact v.plain_toJson
  exact .record (by simp; decide)
    (by simp [hseeding, hvectors, Value.Plain.number, NodeSet.plain_toJson, Placement.plain_toJson])

/-! ## Texts -/

/-- **Two reports with the same JSON text are the same report.** -/
theorem Report.json_injective : Function.Injective Report.json := fun r s h =>
  Report.toJson_injective (Value.eq_of_pretty_eq r.plain_toJson s.plain_toJson h)

end PartialRedundancy
