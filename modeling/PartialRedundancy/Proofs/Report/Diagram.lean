import PartialRedundancy.Proofs.Graph.Declaration
import PartialRedundancy.Proofs.Text.Unambiguous
import PartialRedundancy.Report.Diagram

/-!
# A diagram shows exactly what can be seen

Two diagrams are the same text exactly if the graphs have the same nodes and edges, the real nodes
have the same attributes, and the placements decide the same of the real nodes. What a placement
says of other numbers leaves no trace.

## Main definitions

* `Diagram.Marks` — what the line of a real node shows besides its number.
* `Diagram.line` — the line of a real node, from its number and its marks.

## Main results

* `Diagram.Marks.tags_injective` — the tags tell the marks.
* `Diagram.unambiguous_line` — the line of a real node tells its number and its marks.
* `Diagram.render_eq_render_iff` — when two diagrams are the same.

## Design

The label of the exit starts with a letter where that of a real node starts with a digit, so its
line ends the lines of the real nodes. A tag holds neither a space nor a quotation mark, and one of
these stands behind it.
-/

namespace PartialRedundancy.Diagram

open Text (Anything Avoids Begins Unambiguous)

variable {g g' : FlowGraph} {p p' : Option Placement}

/-! ## Marks -/

/-- What the line of a real node shows besides its number. -/
@[ext] structure Marks where
  /-- The node uses the expression. -/
  used : Bool
  /-- The node changes an operand. -/
  killed : Bool
  /-- Busy code motion inserts here. -/
  busy : Bool
  /-- Lazy code motion sets the temporary here. -/
  optimal : Bool
  /-- Lazy code motion computes the expression here, for this node alone. -/
  isolated : Bool
  /-- A use here becomes a read of the temporary. -/
  redundant : Bool

/-- The marks of a node. -/
def marks (g : FlowGraph) (p : Placement) (n : Nat) : Marks where
  used := n ∈ g.usedNodes
  killed := n ∈ g.killedNodes
  busy := n ∈ p.busy
  optimal := n ∈ p.optimal
  isolated := n ∈ p.isolated
  redundant := n ∈ p.redundant

/-- The tags of a node with some marks. -/
def Marks.tags (m : Marks) : List String :=
  tag m.used "use" ++ tag m.killed "kill" ++
    (tag m.busy "bcm" ++ tag m.optimal "insert" ++ tag m.isolated "isolated" ++
      tag m.redundant "redundant")

/-- The style of a node with some marks. -/
def Marks.style (m : Marks) : String :=
  if m.optimal = true ∨ m.isolated = true then " style=bold" else ""

/-- The line of a node up to its label. -/
def start (n : Nat) : String := "\nn" ++ toString n ++ " [label = \""

/-- The line of a real node with some marks. -/
def line (a : Nat × Marks) : String :=
  start a.1 ++ (label a.1 a.2.tags ++ ("\"" ++ (a.2.style ++ "];\n")))

/-- A node has a tag exactly if the condition for it holds. -/
lemma mem_tag {condition : Bool} {word w : String} :
    w ∈ tag condition word ↔ condition = true ∧ w = word := by
  unfold tag
  split <;> simp_all

/-- **The tags tell the marks.** -/
lemma Marks.tags_injective : Function.Injective Marks.tags := by
  intro m m' h
  have hmem (w : String) : w ∈ m.tags ↔ w ∈ m'.tags := by rw [h]
  have hused := hmem "use"
  have hkilled := hmem "kill"
  have hbusy := hmem "bcm"
  have hoptimal := hmem "insert"
  have hisolated := hmem "isolated"
  have hredundant := hmem "redundant"
  simp [tags, mem_tag] at hused hkilled hbusy hoptimal hisolated hredundant
  exact Marks.ext hused hkilled hbusy hoptimal hisolated hredundant

/-- The line of a real node shows its marks. -/
lemma realLine_eq {q : Placement} {n : Nat} (hn : n < g.size) :
    realLine g q n = .ok (line (n, marks g q n)) := by
  simp [realLine, Diagram.tags, FlowGraph.isUsed_eq hn, FlowGraph.isKilled_eq hn, line, start,
    marks, Marks.tags, Marks.style, placementTags, bind, Except.bind, pure, Except.pure, toString,
    String.append_assoc]

/-! ## Labels -/

/-- The characters of tags. -/
def isTagChar (c : Char) : Bool := c != ' ' && c != '"'

/-- The part of a label behind the number. -/
def tagPart (tags : List String) : String :=
  if tags.isEmpty then "" else "\\n" ++ " ".intercalate tags

/-- A label is a number and what stands behind it. -/
lemma label_eq (n : Nat) (tags : List String) : label n tags = toString n ++ tagPart tags := by
  unfold label tagPart
  split <;> simp [String.append_assoc]

/-- Tags hold neither spaces nor quotation marks. -/
lemma Marks.all_isTagChar_of_mem_tags {m : Marks} {w : String} (hw : w ∈ m.tags) :
    w.toList.all isTagChar = true := by
  simp only [tags, List.mem_append, mem_tag] at hw
  obtain (⟨-, rfl⟩ | ⟨-, rfl⟩) | ((⟨-, rfl⟩ | ⟨-, rfl⟩) | ⟨-, rfl⟩) | ⟨-, rfl⟩ := hw <;> decide

/-- **The tags in a label**, with a quotation mark behind them. -/
lemma unambiguous_tagPart (m m' : Marks) :
    Unambiguous (Avoids (· != '"')) (tagPart m.tags) (tagPart m'.tags) (m = m') := by
  have hone {m : Marks} {A : Prop} :
      Unambiguous (Avoids (· != '"')) "" ("\\n" ++ " ".intercalate m.tags) A :=
    .empty_left fun r t hr => by
      rw [String.append_assoc]
      exact hr.ne_append (by decide)
  unfold tagPart
  split <;> split
  case isTrue.isTrue h h' =>
    exact (Unambiguous.literal "").imp fun _ =>
      Marks.tags_injective ((List.isEmpty_iff.mp h).trans (List.isEmpty_iff.mp h').symm)
  case isTrue.isFalse => exact hone
  case isFalse.isTrue => exact hone.symm
  case isFalse.isFalse h h' =>
    have hwords : Unambiguous _ (" ".intercalate (m.tags.map id)) (" ".intercalate (m'.tags.map id))
        (m.tags = m'.tags) :=
      .intercalate (fun w hw w' hw' => .span (Marks.all_isTagChar_of_mem_tags hw)
        (Marks.all_isTagChar_of_mem_tags hw')) (fun _ => .append (by decide) (by decide))
        (iff_of_false (mt List.isEmpty_iff.mpr h) (mt List.isEmpty_iff.mpr h'))
    rw [List.map_id, List.map_id] at hwords
    refine ((hwords.restrict fun r hr => ⟨?_, fun t => ?_⟩).imp
      fun h => Marks.tags_injective h).literal_append
    · exact hr.mono fun c hc => by simp_all [isTagChar]
    · exact hr.ne_append (by decide)

/-- What may stand behind a label may stand behind its number. -/
lemma avoids_tagPart (tags : List String) {r : String} (hr : Avoids (· != '"') r) :
    Avoids Char.isDigit (tagPart tags ++ r) := by
  unfold tagPart
  split
  · rw [String.empty_append]
    exact hr.mono fun c hc => bne_iff_ne.mpr fun h => by simp [h] at hc
  · rw [String.append_assoc]
    exact .append (by decide) (by decide)

/-- **A label** tells the number and the marks, with a quotation mark behind it. -/
lemma unambiguous_label (a b : Nat × Marks) :
    Unambiguous (Avoids (· != '"')) (label a.1 a.2.tags) (label b.1 b.2.tags) (a = b) := by
  rw [label_eq, label_eq]
  exact ((Unambiguous.number a.1 b.1).append (fun _ => unambiguous_tagPart a.2 b.2)
    (fun _ hr => avoids_tagPart _ hr) fun _ hr => avoids_tagPart _ hr).imp
    fun ⟨hn, hm⟩ => Prod.ext hn hm

/-! ## Lines -/

/-- The line of a node tells its number before the label. -/
lemma unambiguous_start (m n : Nat) : Unambiguous Anything (start m) (start n) (m = n) :=
  (Unambiguous.number m n).literal_append.append_literal fun _ => .append (by decide) (by decide)

/-- **The line of a real node** tells its number and its marks. -/
lemma unambiguous_line (a b : Nat × Marks) : Unambiguous Anything (line a) (line b) (a = b) := by
  have hrest (h : a = b) : Unambiguous Anything ("\"" ++ (a.2.style ++ "];\n"))
      ("\"" ++ (b.2.style ++ "];\n")) True := h ▸ .literal _
  have hquote (w r : String) : Avoids (· != '"') ("\"" ++ w ++ r) := by
    rw [String.append_assoc]
    exact .append (by decide) (by decide)
  exact ((unambiguous_start a.1 b.1).append_of_anything fun _ =>
    (unambiguous_label a b).append hrest (fun _ _ => hquote _ _) fun _ _ => hquote _ _).imp
      fun h => h.2.1

/-- The line of the exit is not one of a real node: its label starts with a letter. -/
lemma endLine_ne_line (n : Nat) (a : Nat × Marks) (r t : String) :
    endLine n "exit" ++ r ≠ line a ++ t := by
  have hend : endLine n "exit" ++ r = start n ++ ("exit" ++ ("\" shape=circle];\n" ++ r)) := by
    simp [← String.toList_inj, endLine, start, toString]
  have hline : line a ++ t = start a.1 ++ (toString a.1 ++
      (tagPart a.2.tags ++ ("\"" ++ (a.2.style ++ ("];\n" ++ t))))) := by
    simp [line, label_eq, String.append_assoc]
  rw [hend, hline]
  intro h
  obtain ⟨_, hlabel⟩ := unambiguous_start n a.1 trivial trivial h
  exact (Avoids.append (p := Char.isDigit) (by decide) (by decide)).ne_append
    (Text.begins_toString a.1) hlabel

/-- **The line of an edge** tells the edge. -/
lemma unambiguous_edgeLine (a b : Nat × Nat) :
    Unambiguous Anything (edgeLine a) (edgeLine b) (a = b) := by
  have hsource : Unambiguous Anything ("\nn" ++ toString a.1 ++ " -> n")
      ("\nn" ++ toString b.1 ++ " -> n") (a.1 = b.1) :=
    (Unambiguous.number a.1 b.1).literal_append.append_literal fun _ =>
      .append (by decide) (by decide)
  have htarget : Unambiguous Anything (toString a.2 ++ " [color=black];\n")
      (toString b.2 ++ " [color=black];\n") (a.2 = b.2) :=
    (Unambiguous.number a.2 b.2).append_literal fun _ => .append (by decide) (by decide)
  have hboth := (hsource.append_of_anything fun _ => htarget).imp fun ⟨h, h'⟩ => Prod.ext h h'
  simpa [edgeLine, toString, String.append_assoc] using hboth

/-! ## Diagrams -/

/-- The real nodes with their marks. -/
def marked (g : FlowGraph) (p : Option Placement) : List (Nat × Marks) :=
  g.realNodes.toList.map fun n => (n, marks g (p.getD Placement.empty) n)

/-- The text of a diagram. -/
def text (g : FlowGraph) (p : Option Placement) : String :=
  "digraph flow \x7b\nnode [shape=box];\n" ++ (endLine 0 "entry" ++
    (String.join ((marked g p).map line) ++ (endLine g.exit "exit" ++ ("\n" ++
      (String.join (g.edges.map edgeLine) ++ "\n\x7d\n")))))

/-- **Every graph has a diagram**, with any placement. -/
lemma render_eq (g : FlowGraph) (p : Option Placement) : render g p = .ok (text g p) := by
  have hlines : g.realNodes.toList.mapM (realLine g (p.getD Placement.empty)) =
      .ok ((marked g p).map line) := by
    rw [mapM_eq_ok_iff, marked, List.map_map, List.forall₂_map_right_iff, List.forall₂_same]
    exact fun n hn => realLine_eq (FlowGraph.lt_of_mem_realNodes hn)
  simp only [render, bind_eq_ok_iff, pure_eq_ok_iff]
  refine ⟨_, hlines, ?_⟩
  unfold text FlowGraph.entry
  simp only [String.append_assoc]

/-- The real nodes tell how many of them there are. -/
lemma realCount_eq_of_marked (h : marked g p = marked g' p') : g.realCount = g'.realCount := by
  have hlength := congrArg List.length h
  simpa [marked, FlowGraph.realNodes, NodeSet.interval] using hlength

/-- The real nodes tell which node is the exit. -/
lemma exit_eq_of_marked (h : marked g p = marked g' p') : g.exit = g'.exit :=
  congrArg (· + 1) (realCount_eq_of_marked h)

/-- **A diagram tells the marked nodes and the edges.**

**Proof sketch.** The text is taken apart from the left: the lines of the real nodes end where the
line of the exit starts, and those of the edges where a brace stands on a line. -/
lemma text_eq_text_iff :
    text g p = text g' p' ↔ marked g p = marked g' p' ∧ g.edges = g'.edges := by
  constructor
  · intro h
    have hedges : Unambiguous Anything (String.join (g.edges.map edgeLine) ++ "\n\x7d\n")
        (String.join (g'.edges.map edgeLine) ++ "\n\x7d\n") (g.edges = g'.edges) := by
      refine (Unambiguous.join (P := Anything) (fun e _ e' _ => unambiguous_edgeLine e e')
        fun _ _ => trivial).append_literal fun r => ⟨trivial, fun e t h => ?_⟩
      simp [← String.toList_inj, edgeLine, toString] at h
    have hexit (hmarked : marked g p = marked g' p') :
        Unambiguous Anything (endLine g.exit "exit" ++ ("\n" ++
            (String.join (g.edges.map edgeLine) ++ "\n\x7d\n")))
          (endLine g'.exit "exit" ++ ("\n" ++
            (String.join (g'.edges.map edgeLine) ++ "\n\x7d\n"))) (g.edges = g'.edges) := by
      rw [exit_eq_of_marked hmarked]
      exact hedges.literal_append.literal_append
    have hnodes := Unambiguous.join (P := Anything) (l := marked g p) (k := marked g' p')
      (fun a _ b _ => unambiguous_line a b) fun _ _ => trivial
    have hfollow (g : FlowGraph) (w r : String) :
        Text.EndsRow Anything line (endLine g.exit "exit" ++ w ++ r) :=
      ⟨trivial, fun a t => String.append_assoc ▸ endLine_ne_line g.exit a (w ++ r) t⟩
    exact ((hnodes.append hexit (fun _ _ => hfollow g _ _)
      fun _ _ => hfollow g' _ _).literal_append.literal_append).of_eq trivial h
  · rintro ⟨hmarked, hedges⟩
    unfold text
    rw [hmarked, hedges, exit_eq_of_marked hmarked]

/-- The real nodes are marked alike exactly if there are as many, each with the same marks. -/
lemma marked_eq_marked_iff : marked g p = marked g' p' ↔ g.realCount = g'.realCount ∧
    ∀ n, g.isReal n = true →
      marks g (p.getD Placement.empty) n = marks g' (p'.getD Placement.empty) n := by
  have hpair (hcount : g.realCount = g'.realCount) : marked g p = marked g' p' ↔
      ∀ n, g.isReal n = true →
        marks g (p.getD Placement.empty) n = marks g' (p'.getD Placement.empty) n := by
    rw [marked, marked, show g'.realNodes = g.realNodes by simp [FlowGraph.realNodes, hcount],
      List.map_inj_left]
    simp [FlowGraph.mem_realNodes, NodeSet.mem_toList]
  exact ⟨fun h => ⟨realCount_eq_of_marked h, (hpair (realCount_eq_of_marked h)).mp h⟩,
    fun h => (hpair h.1).mpr h.2⟩

/-- A missing placement is one of four empty sets. -/
lemma mem_getD (kind : Placement → NodeSet) (hempty : kind Placement.empty = ∅) {n : Nat} :
    n ∈ kind (p.getD Placement.empty) ↔ ∃ q ∈ p, n ∈ kind q := by
  cases p <;> simp [hempty]

/-- Two nodes have the same marks exactly if their attributes are the same and the placements decide
the same of them. -/
lemma marks_eq_marks_iff {n : Nat} (hn : n < g.size) (hn' : n < g'.size) :
    marks g (p.getD Placement.empty) n = marks g' (p'.getD Placement.empty) n ↔
      (g.isUsed n = g'.isUsed n ∧ g.isKilled n = g'.isKilled n) ∧
        ((∃ q ∈ p, n ∈ q.busy) ↔ ∃ q ∈ p', n ∈ q.busy) ∧
        ((∃ q ∈ p, n ∈ q.optimal) ↔ ∃ q ∈ p', n ∈ q.optimal) ∧
        ((∃ q ∈ p, n ∈ q.isolated) ↔ ∃ q ∈ p', n ∈ q.isolated) ∧
        ((∃ q ∈ p, n ∈ q.redundant) ↔ ∃ q ∈ p', n ∈ q.redundant) := by
  rw [Marks.ext_iff, FlowGraph.isUsed_eq_iff hn hn', FlowGraph.isKilled_eq_iff hn hn', and_assoc]
  simp only [marks, decide_eq_decide, mem_getD Placement.busy rfl, mem_getD Placement.optimal rfl,
    mem_getD Placement.isolated rfl, mem_getD Placement.redundant rfl]

/-- **Diagrams show exactly what can be seen.** Every graph has a diagram, and two graphs with
placements have the same one exactly if they have the same nodes and edges, and at every real node
the same attributes and the same decisions. A missing placement decides nothing.

**Proof sketch.** The text of a diagram tells the marked real nodes and the listing of the edges.
The listing tells the edges, since it holds all of them in one order. -/
theorem render_eq_render_iff (g g' : FlowGraph) (p p' : Option Placement) :
    (∃ text, render g p = .ok text) ∧
    (render g p = render g' p' ↔ g.realCount = g'.realCount ∧
      (∀ u v, g.Edge u v ↔ g'.Edge u v) ∧
      ∀ n, g.isReal n = true →
        (g.isUsed n = g'.isUsed n ∧ g.isKilled n = g'.isKilled n) ∧
        ((∃ q ∈ p, n ∈ q.busy) ↔ ∃ q ∈ p', n ∈ q.busy) ∧
        ((∃ q ∈ p, n ∈ q.optimal) ↔ ∃ q ∈ p', n ∈ q.optimal) ∧
        ((∃ q ∈ p, n ∈ q.isolated) ↔ ∃ q ∈ p', n ∈ q.isolated) ∧
        ((∃ q ∈ p, n ∈ q.redundant) ↔ ∃ q ∈ p', n ∈ q.redundant)) := by
  refine ⟨⟨_, render_eq g p⟩, ?_⟩
  rw [render_eq, render_eq, Except.ok.injEq, text_eq_text_iff, marked_eq_marked_iff, and_assoc,
    and_congr_right_iff]
  intro hcount
  rw [and_comm, FlowGraph.edges_eq_iff hcount]
  exact and_congr_right fun _ => forall₂_congr fun n hn =>
    marks_eq_marks_iff (FlowGraph.lt_of_isReal hn rfl) (FlowGraph.lt_of_isReal hn hcount)

/-- An insertion at the entry and at a number that no node has cannot be seen, but one at a real
node can. -/
theorem render_busy_bare :
    render (.bare 2) (some ⟨.ofList [0, 1, 7], ∅, ∅, ∅⟩) =
      render (.bare 2) (some ⟨.ofList [1], ∅, ∅, ∅⟩) ∧
    render (.bare 2) (some ⟨.ofList [1], ∅, ∅, ∅⟩) ≠ render (.bare 2) none := by
  constructor
  · refine (render_eq_render_iff (.bare 2) (.bare 2) _ _).2.mpr ⟨rfl, fun _ _ => Iff.rfl, ?_⟩
    intro n hn
    have hrange : 1 ≤ n ∧ n ≤ 1 + 1 :=
      (Bool.and_eq_true_iff.mp hn).imp of_decide_eq_true of_decide_eq_true
    obtain rfl | rfl : n = 1 ∨ n = 2 := by omega
    all_goals exact ⟨⟨rfl, rfl⟩, by decide⟩
  · intro h
    have hsame := ((render_eq_render_iff (.bare 2) (.bare 2) _ _).2.mp h).2.2 1 (by decide)
    have hmem : ∃ q ∈ (none : Option Placement), 1 ∈ q.busy :=
      hsame.2.1.mp ⟨_, rfl, by decide⟩
    simp at hmem

end PartialRedundancy.Diagram
