import PartialRedundancy.Proofs.Failure
import PartialRedundancy.Proofs.GraphText.Grammar

/-!
# From trees to graphs

A match of the grammar of graph descriptions becomes a graph by a walk over its tree. The walk takes
the tree to have the shape that the grammar gives it, and there is nothing to be done with any other
tree; it is never asked to. So a text describes the graph of the one document that it lays out, and
a text that is no layout is rejected.

## Main definitions

* `WalkError` — how a walk can end without a graph.
* `Pair.numeral`, `Pair.declare`, `walk` — the walk over a number, a statement and a whole match.

## Main results

* `walk_pair` — the tree of a document becomes the graph of the document.
* `ofText_eq_walk` — describing a graph is matching the grammar and walking over the match.
* `ofText_of_layout` — the texts that describe graphs are the layouts of documents.
-/

namespace PartialRedundancy.GraphText

/-! ## The walk -/

/-- How a walk can end without a graph. -/
inductive WalkError
  /-- The tree does not have the shape that the grammar gives it. -/
  | misshapen
  /-- The description is of no graph. -/
  | text (error : GraphTextError)
deriving DecidableEq

/-- The number of a token. -/
def Pair.numeral : Pair → Except WalkError Numeral
  | .token .number text =>
    if h : text ≠ [] ∧ text.all Char.isDigit = true then .ok ⟨text, h.1, List.all_eq_true.mp h.2⟩
    else .error .misshapen
  | _ => .error .misshapen

/-- The node that a number names. -/
def Pair.toNat (p : Pair) : Except WalkError Nat := do (← p.numeral).toNat.mapError .text

/-- Reads and adds one number of a list. -/
def Pair.declareNode (make : Nat → Declaration) (g : FlowGraph) (p : Pair) :
    Except WalkError FlowGraph := do
  (GraphText.declare g (make (← p.toNat))).mapError .text

/-- Adds what a match says to a graph; the end of the text says nothing. -/
def Pair.declare (g : FlowGraph) : Pair → Except WalkError FlowGraph
  | .node .edge (source :: target :: _) => do
    let u ← source.toNat
    let v ← target.toNat
    (GraphText.declare g (.edge u v)).mapError .text
  | .node .used inner => inner.foldlM (Pair.declareNode .used) g
  | .node .killed inner => inner.foldlM (Pair.declareNode .killed) g
  | .node .ending _ => .ok g
  | _ => .error .misshapen

/-- The graph of a match. -/
def walk [Memory] : List Pair → Except WalkError FlowGraph
  | .node .graph (.node .nodes (count :: _) :: statements) :: _ => do
    let count ← count.toNat
    let g ← (FlowGraph.ofRealCount count).mapError fun e => .text (.graph e)
    statements.foldlM Pair.declare g
  | _ => .error .misshapen

/-! ## The walk over a tree of the grammar -/

/-- The token of a number gives the number back. -/
lemma Numeral.toNat_pair (n : Numeral) : n.pair.toNat = n.toNat.mapError .text := by
  have hnumeral : n.pair.numeral = .ok n :=
    dif_pos ⟨n.ne_nil, List.all_eq_true.mpr n.isDigit_of_mem⟩
  rw [Pair.toNat, hnumeral]
  rfl

/-- The walk over the numbers of a list. -/
lemma foldlM_declareNode (make : Nat → Declaration) (ns : List Numeral) (g : FlowGraph) :
    (ns.map Numeral.pair).foldlM (Pair.declareNode make) g =
      (ns.foldlM (GraphText.declareNode make) g).mapError .text := by
  rw [mapError_foldlM, List.foldlM_map]
  congr 1
  funext g n
  rw [Pair.declareNode, Numeral.toNat_pair, GraphText.declareNode, mapError_bind]

/-- The walk over a statement. -/
lemma declare_pair (st : Statement) (g : FlowGraph) :
    st.pair.declare g = (st.declare g).mapError .text := by
  cases st with
  | edge source target =>
    rw [Statement.pair, Pair.declare, Statement.declare, Numeral.toNat_pair, Numeral.toNat_pair,
      mapError_bind]
    congr 1
    funext u
    rw [mapError_bind]
  | used first more => exact foldlM_declareNode .used (first :: more) g
  | killed first more => exact foldlM_declareNode .killed (first :: more) g

/-- The tree of a document becomes the graph of the document. -/
lemma walk_pair [Memory] (d : Document) : walk [d.pair] = d.graph.mapError .text := by
  rw [Document.pair, walk, Document.graph, Numeral.toNat_pair, mapError_bind]
  congr 1
  funext count
  have hcount : ((FlowGraph.ofRealCount count).mapError GraphTextError.graph).mapError .text =
      (FlowGraph.ofRealCount count).mapError fun e => WalkError.text (.graph e) := by
    cases FlowGraph.ofRealCount count <;> rfl
  rw [mapError_bind, hcount]
  congr 1
  funext g
  rw [mapError_foldlM, List.foldlM_append, List.foldlM_map]
  simp only [declare_pair]
  -- the end of the text adds nothing
  exact bind_pure (m := Except WalkError) _

/-! ## Texts -/

/-- The text is a description, whatever else may be wrong with it. -/
def NotRejected (e : GraphTextError) : Prop := ∀ r, e ≠ .rejected r

/-- A number may be too large. -/
lemma toNat_failsOnly (n : Numeral) : FailsOnly NotRejected n.toNat := by
  intro e h r
  unfold Numeral.toNat at h
  split at h <;> cases h
  simp

/-- A graph may not exist. -/
lemma mapError_failsOnly {α : Type} (x : Except GraphError α) :
    FailsOnly NotRejected (x.mapError .graph) := by
  intro e h r
  cases x <;> cases h
  simp

/-- The graph of a document may be missing, but not because its text is no description. -/
lemma graph_failsOnly [Memory] (d : Document) : FailsOnly NotRejected d.graph := by
  have hnode (make : Nat → Declaration) (g : FlowGraph) (n : Numeral) :
      FailsOnly NotRejected (GraphText.declareNode make g n) :=
    (toNat_failsOnly n).bind fun _ _ => mapError_failsOnly _
  have hstatement (g : FlowGraph) (st : Statement) : FailsOnly NotRejected (st.declare g) := by
    cases st with
    | edge source target =>
      exact (toNat_failsOnly source).bind fun _ _ => (toNat_failsOnly target).bind fun _ _ =>
        mapError_failsOnly _
    | used first more => exact .foldlM (fun g n _ => hnode .used g n) g
    | killed first more => exact .foldlM (fun g n _ => hnode .killed g n) g
  exact (toNat_failsOnly d.count).bind fun _ _ => (mapError_failsOnly _).bind fun g _ =>
    .foldlM (fun g st _ => hstatement g st) g

/-- Describing a graph is matching the grammar and walking over the match. -/
lemma ofText_eq_walk [Memory] (text : String) :
    match Grammar.graph.run Grammar.skipped text.toList with
    | none => ∃ e, FlowGraph.ofText text = .error (.rejected e)
    | some (pairs, _) => (FlowGraph.ofText text).mapError .text = walk pairs := by
  rw [Grammar.run_graph]
  unfold FlowGraph.ofText
  cases read text.toList with
  | error r => exact ⟨_, rfl⟩
  | ok d => exact (walk_pair d).symm

/-- **The reader accepts exactly its grammar, unambiguously.** A text is rejected exactly if the
grammar does not match it, and exactly if it is no layout of a document. A text lays out one
document at most; the match of the grammar is its tree, and the text describes the graph that comes
from the statements of this document, one after the other. -/
theorem ofText_of_layout [Memory] (text : String) :
    ((∃ e, FlowGraph.ofText text = .error (.rejected e)) ↔
      Grammar.graph.run Grammar.skipped text.toList = none) ∧
    ((∃ e, FlowGraph.ofText text = .error (.rejected e)) ↔ ¬ ∃ d, Layout d text.toList) ∧
    ∀ d, Layout d text.toList →
      (∀ d', Layout d' text.toList → d' = d) ∧
      Grammar.graph.run Grammar.skipped text.toList = some ([d.pair], []) ∧
      walk [d.pair] = (FlowGraph.ofText text).mapError .text ∧
      FlowGraph.ofText text = d.graph := by
  have hrun := Grammar.run_graph text.toList
  have hlayout (d : Document) := read_eq_ok_iff (s := text.toList) (d := d)
  unfold FlowGraph.ofText
  cases hread : read text.toList with
  | error r =>
    rw [hread] at hrun hlayout
    have hnone : ¬ ∃ d, Layout d text.toList := by
      rintro ⟨d, hd⟩
      cases (hlayout d).mpr hd
    exact ⟨⟨fun _ => hrun, fun _ => ⟨_, rfl⟩⟩, ⟨fun _ => hnone, fun _ => ⟨_, rfl⟩⟩,
      fun d hd => absurd ⟨d, hd⟩ hnone⟩
  | ok d =>
    rw [hread] at hrun hlayout
    have hd : Layout d text.toList := (hlayout d).mp rfl
    have hgraph : ¬ ∃ e, d.graph = .error (.rejected e) := by
      rintro ⟨e, he⟩
      exact graph_failsOnly d _ he e rfl
    refine ⟨⟨fun h => absurd h hgraph, fun h => ?_⟩, ⟨fun h => absurd h hgraph, fun h => ?_⟩, ?_⟩
    · rw [hrun] at h
      cases h
    · exact absurd ⟨d, hd⟩ h
    · intro d' hd'
      obtain rfl := hd.unique hd'
      exact ⟨fun _ h => h.unique hd, hrun, walk_pair d, rfl⟩

/-- A description with a comment before and after its words, all kinds of line ends, and words next
to each other. -/
def crowdedText : String :=
  "# a graph\r\n\tnodes2 # real\n\r edge 1->2#again\r\n\nused1 02\t\rkilled 1 \n#end"

/-- What the description says. -/
def crowdedDocument : Document where
  count := ⟨['2'], by decide, List.all_eq_true.mp rfl⟩
  statements := [
    .edge ⟨['1'], by decide, List.all_eq_true.mp rfl⟩ ⟨['2'], by decide, List.all_eq_true.mp rfl⟩,
    .used ⟨['1'], by decide, List.all_eq_true.mp rfl⟩
      [⟨['0', '2'], by decide, List.all_eq_true.mp rfl⟩],
    .killed ⟨['1'], by decide, List.all_eq_true.mp rfl⟩ []]

/-- The description is read as the three statements that it makes, and as nothing else. -/
theorem ofText_crowdedText : Layout crowdedDocument crowdedText.toList ∧
    (∀ d, Layout d crowdedText.toList → d = crowdedDocument) ∧
    @FlowGraph.ofText (.upTo 4) crowdedText = .ok
      ([Declaration.edge 1 2, .used 1, .used 2, .killed 1].foldl FlowGraph.attempt (.bare 2)) := by
  let memory : Memory := .upTo 4
  have hlayout : Layout crowdedDocument crowdedText.toList := read_eq_ok_iff.mp (by decide +kernel)
  obtain ⟨_, _, htext⟩ := ofText_of_layout crowdedText
  obtain ⟨hunique, _, _, hgraph⟩ := htext crowdedDocument hlayout
  exact ⟨hlayout, hunique, hgraph.trans (by decide +kernel)⟩

end PartialRedundancy.GraphText
