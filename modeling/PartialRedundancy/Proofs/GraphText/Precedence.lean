import PartialRedundancy.Proofs.GraphText.Rearrangement

/-!
# Which error of a description is reported

Many things can be wrong with a description at once. It is gone through step by step, from the
beginning to the end, and the first step that fails tells the error. Both numbers of an edge are
read before either of them is looked for in the graph, and the numbers of a list are read and looked
for one at a time. None of these steps is made before the whole text has been found to be a
description.

## Main definitions

* `Step`, `Step.error?` — one step on the way to a graph, and what can be wrong with it.
* `Statement.steps`, `Document.steps` — the steps of a statement and of a document, in their order.

## Main results

* `declare_eq_firstError` — a declaration looks for its nodes, one after the other.
* `Document.graph_eq_firstError` — the graph of a document, or the error of its first failing step.
* `ofText_eq_firstError` — the same for texts.
-/

namespace PartialRedundancy.GraphText

/-! ## Steps -/

/-- One step on the way from a description to its graph. -/
inductive Step
  /-- A number is read. -/
  | read (n : Numeral)
  /-- The graph is begun. -/
  | start
  /-- A node is looked for in the graph. -/
  | check (node : Nat)

/-- What is wrong with a step on the way to a graph with `realCount` real nodes: a number is too
large for a word, the graph has too many nodes for a word or for the memory, or a node is behind the
exit. -/
def Step.error? [Memory] (realCount : Nat) : Step → Option GraphTextError
  | read n => if n.value < numeralBound then none else some (.number n.digits)
  | start =>
    if realCount + 2 < FlowGraph.wordBound ∧ Memory.hasSpace (realCount + 2) then none
    else some (.graph (.tooManyNodes realCount))
  | check node =>
    if node ≤ realCount + 1 then none
    else some (.graph (.nodeOutOfRange node (realCount + 1)))

/-- The steps of a statement. -/
def Statement.steps : Statement → List Step
  | edge source target => [.read source, .read target, .check source.value, .check target.value]
  | used first more => (first :: more).flatMap fun n => [.read n, .check n.value]
  | killed first more => (first :: more).flatMap fun n => [.read n, .check n.value]

/-- The steps of a document. -/
def Document.steps (d : Document) : List Step :=
  .read d.count :: .start :: d.statements.flatMap Statement.steps

/-! ## The errors of the steps -/

section

variable [Memory] {realCount : Nat} {g : FlowGraph}

/-- A number is read in one step. -/
lemma Numeral.toNat_eq_firstError (n : Numeral) (realCount : Nat) :
    n.toNat = firstError [(Step.read n).error? realCount] n.value := by
  unfold Numeral.toNat
  have hstep : (Step.read n).error? realCount =
      if n.value < numeralBound then none else some (.number n.digits) := rfl
  rw [hstep]
  by_cases hn : n.value < numeralBound
  · rw [if_pos hn, if_pos hn]
    rfl
  · rw [if_neg hn, if_neg hn]
    rfl

/-- A graph is begun in one step. -/
lemma ofRealCount_eq_firstError (realCount : Nat) :
    (FlowGraph.ofRealCount realCount).mapError .graph =
      firstError [Step.start.error? realCount] (.bare realCount) := by
  unfold FlowGraph.ofRealCount Step.error?
  split <;> rfl

/-- A declaration looks for its nodes, one after the other. -/
lemma declare_eq_firstError (hg : g.realCount = realCount) (d : Declaration) :
    GraphText.declare g d =
      firstError (d.nodes.map fun n => (Step.check n).error? realCount) (g.attempt d) := by
  subst hg
  have hfind : (d.nodes.map fun n => (Step.check n).error? g.realCount).findSome? id =
      (d.nodes.find? fun n => g.exit < n).map fun n => .graph (.nodeOutOfRange n g.exit) := by
    rw [List.findSome?_map, List.find?_eq_findSome?_guard, List.map_findSome?]
    congr 1
    funext n
    by_cases hn : n ≤ g.realCount + 1
    · simp [Step.error?, Option.guard, FlowGraph.exit, hn, Nat.not_lt.mpr hn]
    · simp [Step.error?, Option.guard, FlowGraph.exit, hn, Nat.not_le.mp hn]
  unfold firstError GraphText.declare FlowGraph.attempt
  rw [hfind]
  cases hd : g.declare d with
  | error e =>
    obtain ⟨n, hn, rfl⟩ := FlowGraph.declare_eq_error_iff.mp hd
    rw [hn]
    rfl
  | ok h =>
    have hnone : d.nodes.find? (fun n => g.exit < n) = none := by
      refine Option.eq_none_iff_forall_ne_some.mpr fun n hn => ?_
      cases hd.symm.trans (FlowGraph.declare_eq_error_iff.mpr ⟨n, hn, rfl⟩)
    rw [hnone]
    rfl

/-- A number of a list is read and then looked for. -/
lemma declareNode_eq_firstError {make : Nat → Declaration} (hmake : ∀ n, (make n).nodes = [n])
    (hg : g.realCount = realCount) (n : Numeral) :
    declareNode make g n =
      firstError ([Step.read n, .check n.value].map (Step.error? realCount))
        (g.attempt (make n.value)) := by
  have hdeclare := declare_eq_firstError hg (make n.value)
  rw [hmake] at hdeclare
  rw [declareNode, n.toNat_eq_firstError realCount]
  exact firstError_bind hdeclare

/-- The numbers of a list are read and looked for one at a time. -/
lemma foldlM_declareNode_eq_firstError {make : Nat → Declaration}
    (hmake : ∀ n, (make n).nodes = [n]) (hg : g.realCount = realCount) (ns : List Numeral) :
    ns.foldlM (declareNode make) g =
      firstError ((ns.flatMap fun n => [Step.read n, .check n.value]).map (Step.error? realCount))
        ((ns.map fun n => make n.value).foldl FlowGraph.attempt g) := by
  rw [List.map_flatMap, List.foldl_map]
  exact foldlM_eq_firstError (Q := fun g => g.realCount = realCount)
    (fun _ n hg => declareNode_eq_firstError hmake hg n)
    (fun g n hg => (g.realCount_attempt _).trans hg) ns hg

/-- What a statement says is added to a graph, or its first failing step tells the error. -/
lemma Statement.declare_eq_firstError (hg : g.realCount = realCount) (st : Statement) :
    st.declare g = firstError (st.steps.map (Step.error? realCount))
      (st.declarations.foldl FlowGraph.attempt g) := by
  cases st with
  | edge source target =>
    rw [Statement.declare, source.toNat_eq_firstError realCount]
    refine firstError_bind ?_
    rw [target.toNat_eq_firstError realCount]
    exact firstError_bind (GraphText.declare_eq_firstError hg _)
  | used first more => exact foldlM_declareNode_eq_firstError (fun _ => rfl) hg (first :: more)
  | killed first more => exact foldlM_declareNode_eq_firstError (fun _ => rfl) hg (first :: more)

/-- The graph of a document, or the error of the first of its steps that fails. -/
lemma Document.graph_eq_firstError (d : Document) :
    d.graph = firstError (d.steps.map (Step.error? d.count.value))
      (d.declarations.foldl FlowGraph.attempt (.bare d.count.value)) := by
  rw [Document.graph, d.count.toNat_eq_firstError d.count.value]
  refine firstError_bind ?_
  rw [ofRealCount_eq_firstError]
  refine firstError_bind ?_
  rw [Document.declarations, List.map_flatMap, List.foldl_flatMap]
  exact foldlM_eq_firstError (Q := fun g => g.realCount = d.count.value)
    (fun _ st hg => st.declare_eq_firstError hg)
    (fun g st hg => (g.realCount_foldl_attempt st.declarations).trans hg) d.statements rfl

/-! ## Texts -/

/-- **The first error is reported.** If a text lays out a document, the first step that fails tells
the error, and without such a step the text describes the graph that all declarations of the
document make. The steps go from the beginning of the document to its end: the count is read, the
graph is begun, if the memory has space for it, both numbers of an edge are read and then both of
its nodes are looked for, and the numbers of a list are read and looked for one at a time. A text
that lays out no document is rejected, whatever numbers and nodes there are in it. -/
theorem ofText_eq_firstError (text : String) :
    (∀ d, Layout d text.toList →
      FlowGraph.ofText text = firstError (d.steps.map (Step.error? d.count.value))
        (d.declarations.foldl FlowGraph.attempt (.bare d.count.value))) ∧
    ((¬ ∃ d, Layout d text.toList) → ∃ e, FlowGraph.ofText text = .error (.rejected e)) := by
  constructor
  · intro d hd
    rw [← d.graph_eq_firstError]
    unfold FlowGraph.ofText
    rw [read_eq_ok_iff.mpr hd]
  · intro hnone
    unfold FlowGraph.ofText
    cases hread : read text.toList with
    | error r => exact ⟨_, rfl⟩
    | ok d => exact absurd ⟨d, read_eq_ok_iff.mp hread⟩ hnone

end

/-- An edge of which one end is behind the exit and the other one is too large for a word, and a
list of which the same is true. -/
def faultyText : String :=
  "nodes 2\nedge 9 -> 99999999999999999999\nused 7 88888888888888888888\n"

/-- What the faulty description says. -/
def faultyDocument : Document where
  count := .ofDigits 2 []
  statements := [
    .edge (.ofDigits 9 []) (.ofDigits 9 (List.replicate 19 9)),
    .used (.ofDigits 7 []) [.ofDigits 8 (List.replicate 19 8)]]

/-- If there is space for its nodes, the large number of the edge is the first of the four errors in
the faulty description. Without that space the graph is not even begun, and with another line that
is no statement the description is rejected all the same. -/
theorem ofText_faultyText :
    @FlowGraph.ofText (.upTo 4) faultyText = .error (.number (List.replicate 20 '9')) ∧
    @FlowGraph.ofText (.upTo 3) faultyText = .error (.graph (.tooManyNodes 2)) ∧
    ∃ e, @FlowGraph.ofText (.upTo 3) (faultyText ++ "loop 3\n") = .error (.rejected e) := by
  have hlayout : Layout faultyDocument faultyText.toList := read_eq_ok_iff.mp (by decide +kernel)
  have hread : read (faultyText ++ "loop 3\n").toList =
      .error ⟨"loop 3\n".toList, .endingOrStatement⟩ := by decide +kernel
  have hfirst (memory : Memory) := (ofText_eq_firstError faultyText).1 _ hlayout
  refine ⟨(hfirst (.upTo 4)).trans (by decide +kernel),
    (hfirst (.upTo 3)).trans (by decide +kernel), (@ofText_eq_firstError (.upTo 3) _).2 ?_⟩
  rintro ⟨d, hd⟩
  cases hread.symm.trans (read_eq_ok_iff.mpr hd)

end PartialRedundancy.GraphText
