import PartialRedundancy.Proofs.Text.Unambiguous
import PartialRedundancy.Report.Text

/-!
# The text of a report tells the report

Two reports with the same text are the same report: the separators of a listing, the word for an
empty listing and the line that is only there if something is unknown leave no choice in reading it.

## Main definitions

* `Text.lines` — lines, each with its line feed.
* `Analysis.opening` — what the lines of a vector start with.

## Main results

* `NodeSet.unambiguous_listing`, `NodeSet.unambiguous_braced` — sets of nodes.
* `VectorReport.unambiguous_lines` — vectors.
* `Report.text_injective` — whole reports.

## Design

The line that reports unknown nodes is recognised by its first characters, and so the lines of a
vector are unambiguous in front of everything that is not such a line. The lines of the next vector
and those of the placement are not.
-/

namespace PartialRedundancy

open Text (Avoids Begins Unambiguous)

/-! ## Lines -/

namespace Text

variable {α : Type}

/-- Lines, each with its line feed. -/
def lines (all : List String) : String := String.join (all.map fun line => line ++ "\n")

/-- No lines. -/
@[simp] lemma lines_nil : lines [] = "" := by simp [lines]

/-- The first line and the others. -/
@[simp] lemma lines_cons (line : String) (rest : List String) :
    lines (line :: rest) = line ++ "\n" ++ lines rest := by simp [lines]

/-- Lines and more lines. -/
@[simp] lemma lines_append (first second : List String) :
    lines (first ++ second) = lines first ++ lines second := by
  induction first with
  | nil => simp
  | cons line rest ih => simp [ih, String.append_assoc]

/-- The lines of several things. -/
lemma lines_flatMap (f : α → List String) (l : List α) :
    lines (l.flatMap f) = String.join (l.map fun a => lines (f a)) := by
  induction l with
  | nil => simp
  | cons a l ih => simp [ih]

end Text

/-! ## Sets of nodes -/

namespace NodeSet

variable {s t : NodeSet} {P : String → Prop}

/-- The characters with which a listing can go on. -/
def goesOn (c : Char) : Bool := c.isDigit || c == ','

/-- A listing of some nodes begins with a digit. -/
lemma begins_commaSeparated (hs : s.toList ≠ []) : Begins Char.isDigit s.commaSeparated := by
  obtain ⟨n, rest, h⟩ := List.exists_cons_of_ne_nil hs
  rw [commaSeparated, h, Text.intercalate_cons]
  exact (Text.begins_toString n).append

/-- Where the listing of some nodes may stand, no other listing ends. -/
lemma unambiguous_of_empty {A : Prop} (hs : s.toList = []) (ht : t.toList ≠ []) :
    Unambiguous (Avoids goesOn) s.commaSeparated t.commaSeparated A := by
  rw [show s.commaSeparated = "" by simp [commaSeparated, hs]]
  exact .empty_left fun r u hr =>
    (hr.mono fun c hc => by simp [goesOn, hc]).ne_append (begins_commaSeparated ht)

/-- **Numbers with commas between them**, with something else behind them. -/
lemma unambiguous_commaSeparated (s t : NodeSet) :
    Unambiguous (Avoids goesOn) s.commaSeparated t.commaSeparated (s.toList = t.toList) := by
  by_cases hempty : s.toList = [] ↔ t.toList = []
  · have hcomma (r : String) : Avoids Char.isDigit (", " ++ r) := .append (by decide) (by decide)
    exact (Unambiguous.intercalate (fun m _ n _ => .number m n) hcomma hempty).restrict fun r hr =>
      ⟨hr.mono fun c hc => by simp [goesOn, hc], fun w => hr.ne_append (by decide)⟩
  · by_cases hs : s.toList = []
    · exact unambiguous_of_empty hs fun ht => hempty ⟨fun _ => ht, fun _ => hs⟩
    · have ht : t.toList = [] := by_contra fun ht => hempty ⟨(absurd · hs), (absurd · ht)⟩
      exact (unambiguous_of_empty ht hs).symm

/-- **The nodes between braces.** -/
lemma unambiguous_braced (s t : NodeSet) : Unambiguous P s.braced t.braced (s = t) :=
  ((unambiguous_commaSeparated s t).literal_append.append_literal fun _ =>
    .append (by decide) (by decide)).imp eq_of_toList

/-- **The nodes, or a word if there are none**, with something else behind them. -/
lemma unambiguous_listing (s t : NodeSet) :
    Unambiguous (Avoids goesOn) s.listing t.listing (s = t) := by
  have hnone {s : NodeSet} {A : Prop} (hs : s.toList ≠ []) :
      Unambiguous (Avoids goesOn) s.commaSeparated "none" A :=
    .of_begins (begins_commaSeparated hs) (by decide) (by decide)
  unfold listing
  split <;> split
  case isTrue.isTrue hs ht =>
    exact (Unambiguous.literal "none").imp fun _ => eq_of_isEmpty hs ht
  case isTrue.isFalse hs ht => exact (hnone (mt isEmpty_iff.mpr ht)).symm
  case isFalse.isTrue hs ht => exact hnone (mt isEmpty_iff.mpr hs)
  case isFalse.isFalse hs ht => exact (unambiguous_commaSeparated s t).imp eq_of_toList

/-- **A line that ends with a listing.** -/
lemma unambiguous_line (w : String) (s t : NodeSet) :
    Unambiguous P (w ++ s.listing ++ "\n") (w ++ t.listing ++ "\n") (s = t) :=
  (unambiguous_listing s t).literal_append.append_literal fun _ => .append (by decide) (by decide)

end NodeSet

/-! ## Vectors -/

/-- The headline of an analysis and the start of the line after it. -/
def Analysis.opening (a : Analysis) : String :=
  Text.lines a.headline ++ "[" ++ a.name ++ " Result]: "

/-- The start of the line that reports unknown nodes. -/
def Analysis.unknownOpening (a : Analysis) : String := "[" ++ a.name ++ " Unknown]: "

/-- The starts tell the analysis. -/
lemma Analysis.unambiguous_opening {P : String → Prop} (a b : Analysis) :
    Unambiguous P a.opening b.opening (a = b) :=
  .of_prefixFree (fun a b => by cases a <;> cases b <;> decide) a b

namespace VectorReport

/-- The line that reports unknown nodes, if there are any. -/
def unknownLine (a : Analysis) (unknown : NodeSet) : String :=
  if unknown.isEmpty then "" else a.unknownOpening ++ unknown.listing ++ "\n"

/-- No line that reports unknown nodes follows. -/
def NothingUnknown (r : String) : Prop := ∀ (a : Analysis) (t : String), r ≠ a.unknownOpening ++ t

/-- What the lines of a vector are made of. -/
lemma lines_lines (v : VectorReport) : Text.lines v.lines =
    v.analysis.opening ++ v.holding.listing ++ "\n" ++ unknownLine v.analysis v.unknown := by
  unfold VectorReport.lines unknownLine Analysis.opening Analysis.unknownOpening
  split <;> simp [String.append_assoc, toString]

/-- The lines of a vector do not start as the line that reports unknown nodes does. -/
lemma nothingUnknown_lines (v : VectorReport) (r : String) :
    NothingUnknown (Text.lines v.lines ++ r) := by
  intro a t
  rw [lines_lines, String.append_assoc, String.append_assoc, String.append_assoc]
  refine Text.append_ne_append ?_ ?_ <;> cases a <;> cases v.analysis <;> decide

/-- The lines of the unknown nodes of one analysis. -/
lemma unambiguous_unknownLine (a : Analysis) (s t : NodeSet) :
    Unambiguous NothingUnknown (unknownLine a s) (unknownLine a t) (s = t) := by
  have hnone {s : NodeSet} {A : Prop} :
      Unambiguous NothingUnknown "" (a.unknownOpening ++ s.listing ++ "\n") A :=
    .empty_left fun r u hr => by
      rw [String.append_assoc, String.append_assoc]
      exact hr a _
  unfold unknownLine
  split <;> split
  case isTrue.isTrue hs ht =>
    exact (Unambiguous.literal "").imp fun _ => NodeSet.eq_of_isEmpty hs ht
  case isTrue.isFalse => exact hnone
  case isFalse.isTrue => exact hnone.symm
  case isFalse.isFalse => exact NodeSet.unambiguous_line a.unknownOpening s t

/-- **The lines of vectors**, with something else behind them. -/
lemma unambiguous_lines (v w : VectorReport) :
    Unambiguous NothingUnknown (Text.lines v.lines) (Text.lines w.lines) (v = w) := by
  have hresult : Unambiguous Text.Anything (v.analysis.opening ++ v.holding.listing ++ "\n")
      (w.analysis.opening ++ w.holding.listing ++ "\n")
      (v.analysis = w.analysis ∧ v.holding = w.holding) :=
    ((Analysis.unambiguous_opening v.analysis w.analysis).append_of_anything fun _ =>
      NodeSet.unambiguous_listing v.holding w.holding).append_literal fun _ =>
        .append (by decide) (by decide)
  have hunknown (h : v.analysis = w.analysis ∧ v.holding = w.holding) :
      Unambiguous NothingUnknown (unknownLine v.analysis v.unknown)
        (unknownLine w.analysis w.unknown) (v.unknown = w.unknown) :=
    h.1 ▸ unambiguous_unknownLine v.analysis v.unknown w.unknown
  rw [lines_lines, lines_lines]
  refine (hresult.append_of_anything hunknown).imp ?_
  rintro ⟨⟨ha, hh⟩, hu⟩
  cases v
  cases w
  exact (VectorReport.mk.injEq ..).mpr ⟨ha, hh, hu⟩

end VectorReport

/-! ## Reports -/

namespace Report

/-- The lines of all vectors of a report. -/
def vectorLines (r : Report) : String := String.join (r.vectors.map fun v => Text.lines v.lines)

/-- What the text of a report is made of: the first line, the vectors and the placement. -/
lemma text_eq (r : Report) :
    r.text = r.summary ++ "\n" ++ (r.vectorLines ++ Text.lines r.placement.lines) := by
  change Text.lines r.lines = _
  rw [Report.lines, List.cons_append, Text.lines_cons, Text.lines_append, Text.lines_flatMap,
    vectorLines]

/-- **The first line.** -/
lemma unambiguous_summary {P : String → Prop} (r s : Report) :
    Unambiguous P (r.summary ++ "\n") (s.summary ++ "\n")
      (r.realCount = s.realCount ∧ r.used = s.used ∧ r.killed = s.killed ∧
        r.seeding = s.seeding) := by
  have hcount : Unambiguous Text.Anything (toString r.realCount ++ " real nodes, used ")
      (toString s.realCount ++ " real nodes, used ") (r.realCount = s.realCount) :=
    (Unambiguous.number r.realCount s.realCount).append_literal fun _ =>
      .append (by decide) (by decide)
  have hname : Unambiguous Text.Anything r.seeding.name s.seeding.name (r.seeding = s.seeding) :=
    .of_prefixFree (fun a b => by cases a <;> cases b <;> decide) _ _
  have hwhole := hcount.append_of_anything fun _ =>
    (NodeSet.unambiguous_braced r.used s.used).append_of_anything fun _ =>
      Unambiguous.literal_append (w := ", killed ") <|
        (NodeSet.unambiguous_braced r.killed s.killed).append_of_anything fun _ =>
          Unambiguous.literal_append (w := ", ") <| Unambiguous.literal_append (w := "seeding ") <|
            hname.append_literal (w := "\n") (Q := P) fun _ => trivial
  unfold summary
  simpa [toString, String.append_assoc] using hwhole

/-- **The lines of a placement.** -/
lemma unambiguous_placement (p q : Placement) :
    Unambiguous Text.Anything (Text.lines p.lines) (Text.lines q.lines) (p = q) := by
  have hline := NodeSet.unambiguous_line (P := Text.Anything)
  have hwhole :=
    Unambiguous.literal_append (w := "Step 5: Classify Placement\n") <|
      (hline "[BCM]: " p.busy q.busy).append_of_anything fun _ =>
        (hline "[Optimal Computation Points]: " p.optimal q.optimal).append_of_anything fun _ =>
          (hline "[Isolated Computation]: " p.isolated q.isolated).append_of_anything fun _ =>
            hline "[Redundant Occurrence]: " p.redundant q.redundant
  cases p
  cases q
  simpa [Placement.lines, toString, String.append_assoc] using hwhole

/-- The lines of a placement are not those of a vector. -/
lemma endsRow_placement (p : Placement) (r : String) :
    Text.EndsRow VectorReport.NothingUnknown (fun v : VectorReport => Text.lines v.lines)
      (Text.lines p.lines ++ r) := by
  rw [show p.lines = "Step 5: Classify Placement" :: p.lines.tail from rfl, Text.lines_cons,
    String.append_assoc, String.append_assoc]
  refine ⟨fun a t => ?_, fun v t => ?_⟩
  · refine Text.append_ne_append ?_ ?_ <;> cases a <;> decide
  · change _ ≠ Text.lines v.lines ++ t
    rw [VectorReport.lines_lines, String.append_assoc, String.append_assoc, String.append_assoc]
    refine Text.append_ne_append ?_ ?_ <;> cases v.analysis <;> decide

/-- **Two reports with the same text are the same report.**

**Proof sketch.** The first line ends with its line feed, so it is read first. Then the lines of the
vectors are read one vector after the other, until the headline of the placement. -/
theorem text_injective : Function.Injective Report.text := by
  intro r s h
  have hvectors : Unambiguous _ r.vectorLines s.vectorLines (r.vectors = s.vectors) :=
    .join (fun v _ w _ => VectorReport.unambiguous_lines v w) VectorReport.nothingUnknown_lines
  have hwhole := (unambiguous_summary r s).append_of_anything fun _ =>
    hvectors.append (fun _ => unambiguous_placement r.placement s.placement)
      (fun t _ => endsRow_placement _ t) fun t _ => endsRow_placement _ t
  rw [text_eq, text_eq] at h
  obtain ⟨⟨hN, hu, hk, hs⟩, hv, hp⟩ := hwhole.of_eq trivial h
  cases r
  cases s
  exact (Report.mk.injEq ..).mpr ⟨hs, hN, hu, hk, hv, hp⟩

end Report

end PartialRedundancy
