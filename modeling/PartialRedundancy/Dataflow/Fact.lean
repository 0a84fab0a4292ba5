/-!
# Facts

What a boolean dataflow analysis knows of a node: a boolean, or nothing yet.

## Main definitions

* `Fact` — unknown, or known to be true or false.
* `Flip` — one change of the fact of a node.
-/

namespace PartialRedundancy

/-- What is known of a node. -/
inductive Fact
  /-- Nothing is known. -/
  | unknown
  /-- The value is known. -/
  | known (value : Bool)
deriving DecidableEq, Repr, Inhabited

namespace Fact

/-- The value, if it is known. -/
def value? : Fact → Option Bool
  | unknown => none
  | known value => some value

/-- Whether the fact is known to be true. -/
def holds : Fact → Bool
  | unknown => false
  | known value => value

/-- The name of a fact. -/
def name : Fact → String
  | unknown => "Unknown"
  | known false => "False"
  | known true => "True"

end Fact

/-- A change of the fact of a node. What a node changes to is always known. -/
structure Flip where
  /-- The node whose fact changes. -/
  node : Nat
  /-- The fact before the change. -/
  old : Fact
  /-- The value after the change. -/
  new : Bool
deriving DecidableEq, Repr

end PartialRedundancy
