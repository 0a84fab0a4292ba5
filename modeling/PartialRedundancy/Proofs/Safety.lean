import PartialRedundancy.Proofs.Graph.Tables
import PartialRedundancy.Proofs.GraphText.Tree
import PartialRedundancy.Proofs.Motion.Bounds
import PartialRedundancy.Proofs.Report.Diagram

/-!
# No input leads to a failed lookup

Whatever text describes a graph or whatever declarations it is built from, and whatever is then
asked of its sessions: everything that is looked up on the way is there. Only a number that a caller
hands over can be one that no node has.

## Main definitions

* `FlowGraph.InBounds` — everything that is looked up in a graph and in its sessions is there.

## Main results

* `FlowGraph.built_of_ofText` — what a text describes can be built.
* `FlowGraph.Built.inBounds` — what can be built is in bounds.
* `input_inBounds` — both, with the walk over the match of a text.
-/

namespace PartialRedundancy

/-- Everything that is looked up in a graph and in its sessions is there, but for what a caller
looks up. -/
structure FlowGraph.InBounds (g : FlowGraph) : Prop where
  /-- A word can hold the numbers of the nodes and how many there are. -/
  word : g.exit < g.size ∧ g.size < wordBound
  /-- A declaration that is accepted can be written into the tables. -/
  declare : ∀ d h, g.declare d = .ok h → g.tables.declare d = .ok h.tables
  /-- The neighbours of a node are found, and they are nodes. -/
  neighbours : ∀ n < g.size, (∃ s, g.succ n = .ok s ∧ ∀ m ∈ s, m < g.size) ∧
    ∃ s, g.pred n = .ok s ∧ ∀ m ∈ s, m < g.size
  /-- The marks of a node are found, and the sets of marked nodes are made from them. -/
  marks : ∀ n ∈ g.nodes, g.isUsed n = .ok (decide (n ∈ g.usedNodes)) ∧
    g.isKilled n = .ok (decide (n ∈ g.killedNodes))
  /-- A session is in bounds after any commands. -/
  session : ∀ options cs, ((Session.new g options).after cs).InBounds g
  /-- There is a diagram with any placement. -/
  diagram : ∀ placement, ∃ text, Diagram.render g placement = .ok text
  /-- What a caller looks up is missing only if no node has the number. -/
  lookup : ∀ n e, (g.succ n = .error e ↔ g.size ≤ n ∧ e = ⟨g.size, n⟩) ∧
    (g.pred n = .error e ↔ g.size ≤ n ∧ e = ⟨g.size, n⟩) ∧
    (g.isUsed n = .error e ↔ g.size ≤ n ∧ e = ⟨g.size, n⟩) ∧
    (g.isKilled n = .error e ↔ g.size ≤ n ∧ e = ⟨g.size, n⟩)

namespace FlowGraph

variable {g h : FlowGraph}

/-- What can be built is in bounds. -/
lemma Built.inBounds (hg : g.Built) : g.InBounds where
  word := ⟨Nat.lt_succ_self _, hg.size_lt⟩
  declare _ _ := tables_declare
  neighbours n hn := by
    obtain ⟨s, hs⟩ := Direction.exists_sources (d := .backward) hn
    obtain ⟨p, hp⟩ := Direction.exists_sources (d := .forward) hn
    have hsucc := (succ_eq_ok_iff.mp hs).2
    have hpred := (pred_eq_ok_iff.mp hp).2
    exact ⟨⟨s, hs, fun m hm => (lt_of_edge ((hsucc m).mp hm)).2⟩,
      p, hp, fun m hm => (lt_of_edge ((hpred m).mp hm)).1⟩
  marks n hn := by
    have hlt : n < g.size := by simpa [nodes] using hn
    exact ⟨isUsed_eq hlt, isKilled_eq hlt⟩
  session := Session.inBounds_after g
  diagram placement := ⟨_, Diagram.render_eq g placement⟩
  lookup n e := ⟨fetch_eq_error_iff_of_size g.size_adjacency,
    fetch_eq_error_iff_of_size (g.adjacency.size_predecessors.trans g.size_adjacency),
    fetch_eq_error_iff_of_size g.size_used, fetch_eq_error_iff_of_size g.size_killed⟩

/-- A statement that is accepted makes declarations that are accepted. -/
lemma Built.statement (hg : g.Built) {st : GraphText.Statement} (hd : st.declare g = .ok h) :
    h.Built := by
  have hdeclare {g h : FlowGraph} {d : Declaration} (hg : g.Built)
      (hd : GraphText.declare g d = .ok h) : h.Built :=
    hg.declare (mapError_eq_ok_iff.mp hd)
  have hnode (make : Nat → Declaration) (g : FlowGraph) (n : GraphText.Numeral) (h : FlowGraph)
      (hg : g.Built) (hd : GraphText.declareNode make g n = .ok h) : h.Built := by
    obtain ⟨_, _, hd⟩ := bind_eq_ok_iff.mp hd
    exact hdeclare hg hd
  cases st with
  | edge source target =>
    obtain ⟨_, _, hd⟩ := bind_eq_ok_iff.mp hd
    obtain ⟨_, _, hd⟩ := bind_eq_ok_iff.mp hd
    exact hdeclare hg hd
  | used first more => exact foldlM_preserves (hnode .used) hg hd
  | killed first more => exact foldlM_preserves (hnode .killed) hg hd

/-- What a text describes can be built. -/
lemma built_of_ofText [Memory] {text : String} (h : ofText text = .ok g) : g.Built := by
  unfold ofText at h
  split at h
  · cases h
  · obtain ⟨_, _, h⟩ := bind_eq_ok_iff.mp h
    obtain ⟨bare, hbare, h⟩ := bind_eq_ok_iff.mp h
    exact foldlM_preserves (fun _ _ _ hg hd => Built.statement hg hd)
      (.of_ofRealCount (mapError_eq_ok_iff.mp hbare)) h

end FlowGraph

open GraphText in
/-- **No input leads to a failed lookup.** If the grammar does not match a text, the text is
rejected; otherwise the walk over the match finds the shape that it expects, and what it ends with
is what the text describes, which can be built. When a graph is begun, a word can hold the number of
its nodes, and its tables can be made. And whatever declarations come after that, accepted or not:
the tables, every session after any commands, with either seeding, and every diagram only look up
what is there. What is left are the numbers that a caller looks up, and of these those fail that no
node has. -/
theorem input_inBounds [Memory] :
    (∀ text, match Grammar.graph.run Grammar.skipped text.toList with
      | none => ∃ e, FlowGraph.ofText text = .error (.rejected e)
      | some (pairs, _) => walk pairs ≠ .error .misshapen ∧
          (FlowGraph.ofText text).mapError .text = walk pairs) ∧
    (∀ text g, FlowGraph.ofText text = .ok g → g.Built) ∧
    (∀ realCount g, FlowGraph.ofRealCount realCount = .ok g →
      realCount + 2 < FlowGraph.wordBound ∧ Tables.new realCount = .ok g.tables ∧ g.Built) ∧
    ∀ g : FlowGraph, g.Built → g.InBounds := by
  refine ⟨fun text => ?_, fun _ _ => FlowGraph.built_of_ofText, fun realCount g h => ?_,
    fun _ => FlowGraph.Built.inBounds⟩
  · have hwalk := ofText_eq_walk text
    cases hrun : Grammar.graph.run Grammar.skipped text.toList with
    | none =>
      rw [hrun] at hwalk
      exact hwalk
    | some p =>
      rw [hrun] at hwalk
      refine ⟨?_, hwalk⟩
      -- an error of the text is not a misshapen tree
      rw [← hwalk]
      cases FlowGraph.ofText text <;> simp [Except.mapError]
  · obtain ⟨hcount, rfl⟩ := FlowGraph.eq_bare_of_ofRealCount h
    exact ⟨hcount, FlowGraph.tables_bare realCount, .bare hcount⟩

/-- A description of two nodes in a row, the second of which uses the expression. -/
def lineText : String := "nodes 2\nedge 1->2\nused 2"

/-- What the description says. -/
def lineGraph : FlowGraph := [Declaration.edge 1 2, .used 2].foldl FlowGraph.attempt (.bare 2)

/-- The description becomes a graph that is in bounds. A placement is not there before it is made,
and a fifth node is not there at all. -/
theorem inBounds_lineText : @FlowGraph.ofText (.upTo 4) lineText = .ok lineGraph ∧
    lineGraph.InBounds ∧
    (Session.new lineGraph ⟨.eager⟩).placement = .error (.outOfOrder .placement .downSafety) ∧
    lineGraph.isUsed 4 = .error ⟨4, 4⟩ := by
  let memory : Memory := .upTo 4
  obtain ⟨_, hofText, _, hinBounds⟩ := input_inBounds
  have htext : FlowGraph.ofText lineText = .ok lineGraph := by decide +kernel
  have hline := hinBounds lineGraph (hofText lineText lineGraph htext)
  exact ⟨htext, hline, rfl, (hline.lookup 4 ⟨4, 4⟩).2.2.1.mpr ⟨Nat.le_refl 4, rfl⟩⟩

end PartialRedundancy
