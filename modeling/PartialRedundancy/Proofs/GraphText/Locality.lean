import PartialRedundancy.Proofs.GraphText.Attempts
import PartialRedundancy.Proofs.GraphText.Tree

/-!
# Rejections are local

A text that is no description is rejected at the furthest place where a rule was tried and did not
match. After the failure the grammar still tries line ends and the end of the text, but none of this
looks past the line of the failure or moves the place. So all texts that start alike up to a line
end behind the failure are rejected alike.

## Main results

* `read_eq_of_append` — what is read of texts that start alike.
* `ofText_rejected_of_prefix` — texts that start alike are rejected alike.
-/

namespace PartialRedundancy.GraphText

/-- A text is rejected exactly if the reader fails, and it is cut in two where the reader does. -/
lemma ofText_eq_rejected_iff [Memory] {text : String} {e : SyntaxError} :
    FlowGraph.ofText text = .error (.rejected e) ↔
      read text.toList = .error ⟨e.after, e.expected⟩ ∧ e.before ++ e.after = text.toList := by
  unfold FlowGraph.ofText
  cases hread : read text.toList with
  | error r =>
    obtain ⟨before, hbefore⟩ := suffix_of_read hread
    have hlocate : r.locate text.toList = ⟨before, r.rest, r.expected⟩ := by
      simp [Rejection.locate, ← hbefore]
    simp only
    rw [hlocate, ← hbefore]
    constructor
    · intro h
      cases h
      exact ⟨rfl, rfl⟩
    · rintro ⟨hr, hcut⟩
      cases hr
      obtain rfl := List.append_cancel_right hcut
      rfl
  | ok d => exact iff_of_false (fun h => graph_failsOnly d _ h e rfl) (by simp)

/-- Of two texts that start alike up to a line end behind the failure, the same is left up to that
line end. -/
lemma read_eq_of_append {before line rest : List Char} {c : Char} {expected : Expected}
    (hc : isLineEnd c = true)
    (h : read (before ++ line ++ c :: rest) = .error ⟨line ++ c :: rest, expected⟩)
    (rest' : List Char) :
    read (before ++ line ++ c :: rest') = .error ⟨line ++ c :: rest', expected⟩ := by
  have hlt : rest.length < (line ++ c :: rest).length := by simp; omega
  obtain ⟨e, he, hall⟩ := exists_of_read_append hc h hlt
  simp only [Rejection.append, Rejection.mk.injEq] at he
  obtain ⟨hline, rfl⟩ := he
  obtain rfl := List.append_cancel_right hline
  exact hall rest'

/-- **Rejections are local.** A rejected text is cut in two at the furthest place where the grammar
tried rules that did not match, and these are the rules that are expected there. Every text that
starts with it up to some line end behind that place, such as the first one, is rejected at the same
place, and the same is expected there. -/
theorem ofText_rejected_of_prefix [Memory] {text : String} {e : SyntaxError}
    (h : FlowGraph.ofText text = .error (.rejected e)) :
    e.before ++ e.after = text.toList ∧
    Grammar.graph.attempts Grammar.skipped text.toList ⟨text.toList, []⟩ =
      ⟨e.after, e.expected.rules⟩ ∧
    ∀ (line : List Char) (c : Char) (text' : String), isLineEnd c = true →
      line ++ [c] <+: e.after → e.before ++ line ++ [c] <+: text'.toList →
      ∃ e', FlowGraph.ofText text' = .error (.rejected e') ∧ e'.before = e.before ∧
        e'.offset = e.offset ∧ e'.line = e.line ∧ e'.column = e.column ∧
        e'.expected = e.expected := by
  obtain ⟨hread, hcut⟩ := ofText_eq_rejected_iff.mp h
  refine ⟨hcut, Grammar.attempts_graph hread, ?_⟩
  rintro line c text' hc ⟨rest, hrest⟩ ⟨rest', hrest'⟩
  have hafter : e.after = line ++ c :: rest := by simpa using hrest.symm
  have htext' : text'.toList = e.before ++ line ++ c :: rest' := by simpa using hrest'.symm
  rw [← hcut, hafter, ← List.append_assoc] at hread
  have hread' := read_eq_of_append hc hread rest'
  exact ⟨⟨e.before, line ++ c :: rest', e.expected⟩,
    ofText_eq_rejected_iff.mpr ⟨by rw [htext', hread'], by rw [htext', List.append_assoc]⟩,
    rfl, rfl, rfl, rfl, rfl⟩

/-- A list without numbers, in front of which and behind which there are other lines. -/
def brokenText : String := "nodes 2\r\nused x # 3\rkilled 1\n"

/-- Text that starts with the same lines up to the broken one. -/
def brokenText' : String := "nodes 2\r\nused x # 3\r\nloop"

/-- The failure is at the place of the missing number, on the second line, whatever follows. -/
theorem ofText_brokenText :
    ∃ e e', @FlowGraph.ofText (.upTo 4) brokenText = .error (.rejected e) ∧
      @FlowGraph.ofText (.upTo 4) brokenText' = .error (.rejected e') ∧
      e.offset = 14 ∧ e'.offset = 14 ∧ e'.line = 2 ∧ e'.column = 6 ∧ e'.expected = .number := by
  let memory : Memory := .upTo 4
  have h : FlowGraph.ofText brokenText =
      .error (.rejected ⟨"nodes 2\r\nused ".toList, "x # 3\rkilled 1\n".toList, .number⟩) := by
    decide +kernel
  obtain ⟨_, _, hlocal⟩ := ofText_rejected_of_prefix h
  obtain ⟨e', he', -, hoffset, hline, hcolumn, hexpected⟩ :=
    hlocal "x # 3".toList '\r' brokenText' (by decide)
      ⟨"killed 1\n".toList, by decide +kernel⟩ ⟨"\nloop".toList, by decide +kernel⟩
  exact ⟨_, e', h, he', by decide +kernel, hoffset.trans (by decide +kernel),
    hline.trans (by decide +kernel), hcolumn.trans (by decide +kernel), hexpected⟩

end PartialRedundancy.GraphText
