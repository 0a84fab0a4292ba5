import PartialRedundancy.Motion.Placement

/-!
# Diagrams

A flow graph in the language of a graph drawing tool, with the attributes of its nodes and, if one
is given, a placement. Entry and exit are circles without attributes. A real node shows its number
and, on a second line, its tags; it is bold where lazy code motion inserts a computation.

## Main definitions

* `Diagram.tags` — the tags of a node.
* `Diagram.render` — the whole diagram.
-/

namespace PartialRedundancy.Diagram

/-- A word that is there if a condition holds. -/
def tag (condition : Bool) (word : String) : List String := if condition then [word] else []

/-- The tags that the placement gives a node. -/
def placementTags (p : Placement) (n : Nat) : List String :=
  tag (n ∈ p.busy) "bcm" ++ tag (n ∈ p.optimal) "insert" ++ tag (n ∈ p.isolated) "isolated" ++
    tag (n ∈ p.redundant) "redundant"

/-- The tags of a node: its attributes and then its placement. -/
def tags (g : FlowGraph) (p : Placement) (n : Nat) : Except OutOfBounds (List String) := do
  let used ← g.isUsed n
  let killed ← g.isKilled n
  return tag used "use" ++ tag killed "kill" ++ placementTags p n

/-- The label of a real node; a backslash and an `n` start its second line. -/
def label (n : Nat) (tags : List String) : String :=
  if tags.isEmpty then toString n else toString n ++ "\\n" ++ " ".intercalate tags

/-- The line of the entry or the exit. -/
def endLine (n : Nat) (name : String) : String := s!"\nn{n} [label = \"{name}\" shape=circle];\n"

/-- The line of a real node. -/
def realLine (g : FlowGraph) (p : Placement) (n : Nat) : Except OutOfBounds String := do
  let style := if n ∈ p.optimal ∨ n ∈ p.isolated then " style=bold" else ""
  return s!"\nn{n} [label = \"{label n (← tags g p n)}\"{style}];\n"

/-- The line of an edge. -/
def edgeLine (edge : Nat × Nat) : String := s!"\nn{edge.1} -> n{edge.2} [color=black];\n"

/-- The diagram of a graph. A missing placement is one that decides nothing. -/
def render (g : FlowGraph) (placement : Option Placement) : Except OutOfBounds String := do
  let p := placement.getD Placement.empty
  let real ← g.realNodes.toList.mapM (realLine g p)
  let nodes := endLine g.entry "entry" ++ String.join real ++ endLine g.exit "exit"
  let edges := String.join (g.edges.map edgeLine)
  return "digraph flow \x7b\nnode [shape=box];\n" ++ nodes ++ "\n" ++ edges ++ "\n\x7d\n"

end PartialRedundancy.Diagram
