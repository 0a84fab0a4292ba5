import Mathlib.Data.Set.Basic
import PartialRedundancy.Proofs.Graph.Declaration
import PartialRedundancy.Proofs.GraphText.Tree

/-!
# Descriptions of one graph

A graph is a value: graphs are equal if they have as many nodes, the same edges and the same marks,
whatever declarations have made them. The statements of a text are declarations that may not fail,
so they can be put into another order, and lists of nodes can be split, without changing the graph
that the text describes.

## Main definitions

* `Statement.declarations`, `Document.declarations` — what is declared one by one.
* `describedEdges` — the edges that a sequence of declarations describes.
* `Rearranged` — statements in another order, with lists of nodes split or put together.

## Main results

* `Document.graph_eq_ok_iff` — the graph of a document is built from its declarations.
* `Rearranged.perm_declarations` — statements that are rearranged declare the same.
* `beq_foldl_attempt_iff` — equal graphs are those that are described by the same sets.
-/

namespace PartialRedundancy.GraphText

/-! ## Declarations -/

/-- What a statement declares, one by one. -/
def Statement.declarations : Statement → List Declaration
  | .edge source target => [.edge source.value target.value]
  | .used first more => (first :: more).map fun n => .used n.value
  | .killed first more => (first :: more).map fun n => .killed n.value

/-- What a document declares, one by one. -/
def Document.declarations (d : Document) : List Declaration :=
  d.statements.flatMap Statement.declarations

section

variable {g h : FlowGraph}

/-- A numeral denotes a number if it is small enough. -/
lemma Numeral.toNat_eq_ok_iff {n : Numeral} {k : Nat} :
    n.toNat = .ok k ↔ n.value < numeralBound ∧ n.value = k := by
  unfold Numeral.toNat
  split
  · rename_i hn
    simp [hn]
  · rename_i hn
    simp [hn]

/-- The nodes of a declaration that is accepted can be written. -/
lemma Numeral.toNat_of_declare {n : Numeral} {d : Declaration} (hg : g.size ≤ numeralBound)
    (hd : g.declare d = .ok h) (hn : n.value ∈ d.nodes) : n.toNat = .ok n.value :=
  have hlt : n.value < g.size := FlowGraph.exists_declare_iff.mp ⟨h, hd⟩ _ hn
  Numeral.toNat_eq_ok_iff.mpr ⟨Nat.lt_of_lt_of_le hlt hg, rfl⟩

/-- A number of a list is read and added if what it declares is accepted. -/
lemma declareNode_eq_ok_iff {make : Nat → Declaration} (hmake : ∀ k, k ∈ (make k).nodes)
    (hg : g.size ≤ numeralBound) {n : Numeral} :
    g.declare (make n.value) = .ok h ↔ declareNode make g n = .ok h := by
  unfold declareNode
  rw [bind_eq_ok_iff]
  constructor
  · intro hd
    exact ⟨_, Numeral.toNat_of_declare hg hd (hmake n.value), mapError_eq_ok_iff.mpr hd⟩
  · rintro ⟨k, hk, hd⟩
    obtain ⟨_, rfl⟩ := Numeral.toNat_eq_ok_iff.mp hk
    exact mapError_eq_ok_iff.mp hd

/-- A list is added if all that its numbers declare is accepted. -/
lemma foldlM_declareNode_eq_ok_iff {make : Nat → Declaration} (hmake : ∀ k, k ∈ (make k).nodes)
    (hg : g.size ≤ numeralBound) (ns : List Numeral) :
    (ns.map fun n => make n.value).foldlM FlowGraph.declare g = .ok h ↔
      ns.foldlM (declareNode make) g = .ok h := by
  rw [List.foldlM_map]
  exact foldlM_eq_ok_congr (fun _ _ _ hb hd => (FlowGraph.size_declare hd).trans_le hb)
    (fun _ _ _ hb => declareNode_eq_ok_iff hmake hb) ns hg

/-- A statement is added if all that it declares is accepted. -/
lemma Statement.declare_eq_ok_iff (hg : g.size ≤ numeralBound) (st : Statement) :
    st.declarations.foldlM FlowGraph.declare g = .ok h ↔ st.declare g = .ok h := by
  cases st with
  | edge source target =>
    have hone : [Declaration.edge source.value target.value].foldlM FlowGraph.declare g =
        g.declare (.edge source.value target.value) := bind_pure _
    rw [Statement.declarations, hone, Statement.declare, bind_eq_ok_iff]
    simp only [bind_eq_ok_iff]
    constructor
    · intro hd
      exact ⟨_, Numeral.toNat_of_declare hg hd (by simp [Declaration.nodes]), _,
        Numeral.toNat_of_declare hg hd (by simp [Declaration.nodes]), mapError_eq_ok_iff.mpr hd⟩
    · rintro ⟨u, hu, v, hv, hd⟩
      obtain ⟨_, rfl⟩ := Numeral.toNat_eq_ok_iff.mp hu
      obtain ⟨_, rfl⟩ := Numeral.toNat_eq_ok_iff.mp hv
      exact mapError_eq_ok_iff.mp hd
  | used first more =>
    exact foldlM_declareNode_eq_ok_iff (by simp [Declaration.nodes]) hg (first :: more)
  | killed first more =>
    exact foldlM_declareNode_eq_ok_iff (by simp [Declaration.nodes]) hg (first :: more)

/-- The graph of a document is built from its declarations.

**Proof sketch.** A number of real nodes that is accepted can be written, and so can the nodes of
the graph. So no numeral is too large where its declaration is accepted. -/
lemma Document.graph_eq_ok_iff [Memory] {d : Document} :
    d.graph = .ok g ↔ FlowGraph.build d.count.value d.declarations = .ok g := by
  have hstatements {g₀ : FlowGraph} (h₀ : FlowGraph.ofRealCount d.count.value = .ok g₀) :
      d.declarations.foldlM FlowGraph.declare g₀ = .ok g ↔
        d.statements.foldlM Statement.declare g₀ = .ok g := by
    have hsize : g₀.size ≤ numeralBound := (FlowGraph.Built.of_ofRealCount h₀).size_lt.le
    rw [Document.declarations, foldlM_flatMap]
    refine foldlM_eq_ok_congr (fun b st c hb hd => ?_)
      (fun _ st _ hb => Statement.declare_eq_ok_iff hb st) d.statements hsize
    exact foldlM_preserves (fun _ _ _ hb hd => (FlowGraph.size_declare hd).trans_le hb) hb hd
  unfold Document.graph FlowGraph.build
  simp only [bind_eq_ok_iff, mapError_eq_ok_iff]
  constructor
  · rintro ⟨count, hcount, g₀, h₀, hg⟩
    obtain ⟨_, rfl⟩ := Numeral.toNat_eq_ok_iff.mp hcount
    exact ⟨g₀, h₀, (hstatements h₀).mpr hg⟩
  · rintro ⟨g₀, h₀, hg⟩
    obtain ⟨hbound, _⟩ := FlowGraph.eq_bare_of_ofRealCount h₀
    have hcount : d.count.value < numeralBound := Nat.lt_of_add_right_lt hbound
    exact ⟨_, Numeral.toNat_eq_ok_iff.mpr ⟨hcount, rfl⟩, g₀, h₀, (hstatements h₀).mp hg⟩

end

/-! ## Rearranged statements -/

/-- The statements are in another order, and lists of nodes are split or put together. -/
inductive Rearranged : List Statement → List Statement → Prop
  /-- Another order. -/
  | perm {sts sts' : List Statement} (h : sts.Perm sts') : Rearranged sts sts'
  /-- A list of used nodes is split in two. -/
  | splitUsed (m n : Numeral) (ms ns : List Numeral) (sts : List Statement) :
      Rearranged (.used m (ms ++ n :: ns) :: sts) (.used m ms :: .used n ns :: sts)
  /-- A list of killed nodes is split in two. -/
  | splitKilled (m n : Numeral) (ms ns : List Numeral) (sts : List Statement) :
      Rearranged (.killed m (ms ++ n :: ns) :: sts) (.killed m ms :: .killed n ns :: sts)
  /-- A rearrangement is undone. -/
  | symm {sts sts' : List Statement} (h : Rearranged sts sts') : Rearranged sts' sts
  /-- One rearrangement is made after the other. -/
  | trans {sts sts' sts'' : List Statement} (h : Rearranged sts sts') (h' : Rearranged sts' sts'') :
      Rearranged sts sts''

/-- Statements that are rearranged declare the same. -/
lemma Rearranged.perm_declarations {sts sts' : List Statement} (h : Rearranged sts sts') :
    (sts.flatMap Statement.declarations).Perm (sts'.flatMap Statement.declarations) := by
  induction h with
  | perm h => exact h.flatMap_right _
  | splitUsed | splitKilled => simp [Statement.declarations]
  | symm _ ih => exact ih.symm
  | trans _ _ ih ih' => exact ih.trans ih'

/-- A text describes the graph that is built from the declarations of the document it lays out. -/
lemma ofText_eq_ok_iff [Memory] {text : String} {g : FlowGraph} :
    FlowGraph.ofText text = .ok g ↔
      ∃ d, Layout d text.toList ∧ FlowGraph.build d.count.value d.declarations = .ok g := by
  simp only [← read_eq_ok_iff, ← Document.graph_eq_ok_iff]
  unfold FlowGraph.ofText
  cases read text.toList with
  | error r => simp
  | ok d => simp

/-! ## Equal graphs -/

section

variable {realCount : Nat} {ds : List Declaration}

/-- The edges that a sequence of declarations describes: those that are accepted, and the edges at
the entry and at the exit. -/
def describedEdges (realCount : Nat) (ds : List Declaration) : Set (Nat × Nat) :=
  {e | e = (0, 1) ∨ (0 < realCount ∧ e = (realCount, realCount + 1)) ∨
    (FlowGraph.bare realCount).Accepted ds (.edge e.1 e.2)}

/-- The used nodes that a sequence of declarations describes. -/
def describedUsed (realCount : Nat) (ds : List Declaration) : Set Nat :=
  {n | (FlowGraph.bare realCount).Accepted ds (.used n)}

/-- The killed nodes that a sequence of declarations describes. -/
def describedKilled (realCount : Nat) (ds : List Declaration) : Set Nat :=
  {n | (FlowGraph.bare realCount).Accepted ds (.killed n)}

/-- The edges of the graph are those that are described. -/
lemma says_edge_iff {e : Nat × Nat} :
    (ds.foldl FlowGraph.attempt (.bare realCount)).Says (.edge e.1 e.2) ↔
      e ∈ describedEdges realCount ds := by
  rw [FlowGraph.says_foldl_attempt_bare]
  simp [describedEdges, Prod.ext_iff, or_assoc]

/-- The used nodes of the graph are those that are described. -/
lemma says_used_iff {n : Nat} :
    (ds.foldl FlowGraph.attempt (.bare realCount)).Says (.used n) ↔
      n ∈ describedUsed realCount ds := by
  rw [FlowGraph.says_foldl_attempt_bare]
  simp [describedUsed]

/-- The killed nodes of the graph are those that are described. -/
lemma says_killed_iff {n : Nat} :
    (ds.foldl FlowGraph.attempt (.bare realCount)).Says (.killed n) ↔
      n ∈ describedKilled realCount ds := by
  rw [FlowGraph.says_foldl_attempt_bare]
  simp [describedKilled]

end

/-- **Equal graphs are those that are described by the same sets.** Two sequences of declarations,
of which those that fail are ignored, make equal graphs exactly if these have as many real nodes,
the edges they describe are the same, and so are the used and the killed nodes. So it does not
matter in which order declarations are made, whether one is repeated, and whether others fail.
Neither does it for a text that describes a graph: every text with as many nodes and these
statements, in another order and with lists of nodes split or put together, describes this graph. -/
theorem beq_foldl_attempt_iff [Memory] (N N' : Nat) (ds ds' : List Declaration) :
    ((ds.foldl FlowGraph.attempt (.bare N) == ds'.foldl FlowGraph.attempt (.bare N')) = true ↔
      N = N' ∧ describedEdges N ds = describedEdges N' ds' ∧
        describedUsed N ds = describedUsed N' ds' ∧
        describedKilled N ds = describedKilled N' ds') ∧
    (ds.Perm ds' →
      ds.foldl FlowGraph.attempt (.bare N) = ds'.foldl FlowGraph.attempt (.bare N)) ∧
    (∀ d ∈ ds ++ ds', (ds ++ d :: ds').foldl FlowGraph.attempt (.bare N) =
      (ds ++ ds').foldl FlowGraph.attempt (.bare N)) ∧
    (∀ d e, (ds.foldl FlowGraph.attempt (.bare N)).declare d = .error e →
      (ds ++ d :: ds').foldl FlowGraph.attempt (.bare N) =
        (ds ++ ds').foldl FlowGraph.attempt (.bare N)) ∧
    ∀ text g, FlowGraph.ofText text = .ok g → ∃ d, Layout d text.toList ∧
      ∀ text' d', Layout d' text'.toList → d'.count.value = d.count.value →
        Rearranged d.statements d'.statements → FlowGraph.ofText text' = .ok g := by
  refine ⟨⟨fun h => ?_, ?_⟩, fun h => FlowGraph.foldl_attempt_congr fun _ => h.mem_iff,
    fun d hd => FlowGraph.foldl_attempt_congr fun d' => ?_, fun d e he => ?_, fun text g hg => ?_⟩
  · have hg := beq_iff_eq.mp h
    obtain rfl : N = N' := by simpa [FlowGraph.bare] using congrArg FlowGraph.realCount hg
    refine ⟨rfl, Set.ext fun e => ?_, Set.ext fun n => ?_, Set.ext fun n => ?_⟩
    · rw [← says_edge_iff, ← says_edge_iff, hg]
    · rw [← says_used_iff, ← says_used_iff, hg]
    · rw [← says_killed_iff, ← says_killed_iff, hg]
  · rintro ⟨rfl, hedges, hused, hkilled⟩
    refine beq_iff_eq.mpr (FlowGraph.eq_of_says (by simp) fun d => ?_)
    cases d with
    | edge u v =>
      have hedge : (u, v) ∈ describedEdges N ds ↔ (u, v) ∈ describedEdges N ds' := by rw [hedges]
      exact says_edge_iff.trans (hedge.trans says_edge_iff.symm)
    | used n => rw [says_used_iff, says_used_iff, hused]
    | killed n => rw [says_killed_iff, says_killed_iff, hkilled]
  · rw [List.mem_append] at hd
    simp only [List.mem_append, List.mem_cons]
    constructor
    · rintro (h | rfl | h)
      · exact Or.inl h
      · exact hd
      · exact Or.inr h
    · exact Or.imp_right Or.inr
  · rw [List.foldl_append, List.foldl_append, List.foldl_cons, FlowGraph.attempt, he]
  · obtain ⟨d, hd, hbuild⟩ := ofText_eq_ok_iff.mp hg
    refine ⟨d, hd, fun text' d' hd' hcount h => ofText_eq_ok_iff.mpr ⟨d', hd', ?_⟩⟩
    rw [hcount]
    exact FlowGraph.build_of_perm h.perm_declarations hbuild

/-- The number that is written with some digits, of which there is a first one. Larger numbers stand
for their last digit. -/
def Numeral.ofDigits (first : Nat) (more : List Nat) : Numeral where
  digits := (first :: more).map fun d => Nat.digitChar (d % 10)
  ne_nil := List.cons_ne_nil _ _
  isDigit_of_mem c hc := by
    have hdigit : ∀ d < 10, (Nat.digitChar d).isDigit = true := by decide
    obtain ⟨d, _, rfl⟩ := List.mem_map.mp hc
    exact hdigit _ (Nat.mod_lt d (by decide))

/-- The statements of the crowded description in another order, with its list of used nodes split.
-/
def rearrangedText : String := "nodes 2\nkilled 1\nused 02\nedge 1 -> 2\nused 1\n"

/-- What the rearranged description says. -/
def rearrangedDocument : Document where
  count := .ofDigits 2 []
  statements := [
    .killed (.ofDigits 1 []) [],
    .used (.ofDigits 0 [2]) [],
    .edge (.ofDigits 1 []) (.ofDigits 2 []),
    .used (.ofDigits 1 []) []]

/-- Both descriptions are of one graph, which has edges and marks. -/
theorem ofText_rearrangedText :
    Rearranged crowdedDocument.statements rearrangedDocument.statements ∧
    ∃ g, @FlowGraph.ofText (.upTo 4) crowdedText = .ok g ∧
      @FlowGraph.ofText (.upTo 4) rearrangedText = .ok g ∧
      g.edges = [(0, 1), (1, 2), (2, 3)] := by
  let memory : Memory := .upTo 4
  have hcrowded : Layout crowdedDocument crowdedText.toList := read_eq_ok_iff.mp (by decide +kernel)
  have hlayout : Layout rearrangedDocument rearrangedText.toList :=
    read_eq_ok_iff.mp (by decide +kernel)
  have hrearranged : Rearranged crowdedDocument.statements rearrangedDocument.statements :=
    .trans (.perm (.swap _ _ _)) (.trans (.splitUsed _ _ [] [] _) (.perm (by decide)))
  have hg : FlowGraph.ofText crowdedText =
      .ok ([Declaration.edge 1 2, .used 1, .used 2, .killed 1].foldl FlowGraph.attempt (.bare 2)) :=
    by decide +kernel
  obtain ⟨_, _, _, _, htext⟩ := beq_foldl_attempt_iff 0 0 [] []
  obtain ⟨d, hd, hall⟩ := htext _ _ hg
  obtain rfl := hd.unique hcrowded
  exact ⟨hrearranged, _, hg, hall _ _ hlayout rfl hrearranged, by decide +kernel⟩

end PartialRedundancy.GraphText
