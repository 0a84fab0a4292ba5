/-!
# Written graph descriptions

What a graph description says once its layout is taken away: a node count and a list of
statements, with every number kept as it is written.

## Main definitions

* `Numeral` — a non-empty run of decimal digits, with its value `Numeral.value`.
* `Statement` — an edge, or a list of used or of killed nodes.
* `Document` — a node count and the statements after it.
-/

namespace PartialRedundancy.GraphText

/-- A number as it is written: one or more decimal digits. -/
structure Numeral where
  /-- The digits, most significant first. -/
  digits : List Char
  /-- There is at least one digit. -/
  ne_nil : digits ≠ []
  /-- There is nothing but digits. -/
  isDigit_of_mem : ∀ c ∈ digits, c.isDigit = true
deriving DecidableEq

/-- The number that the digits denote; leading zeros do not count. -/
def Numeral.value (n : Numeral) : Nat :=
  n.digits.foldl (fun v c => 10 * v + (c.toNat - '0'.toNat)) 0

/-- One statement about the graph. -/
inductive Statement
  /-- An edge with its two ends. -/
  | edge (source target : Numeral)
  /-- One or more nodes that evaluate the expression. -/
  | used (first : Numeral) (more : List Numeral)
  /-- One or more nodes that change an operand of the expression. -/
  | killed (first : Numeral) (more : List Numeral)
deriving DecidableEq

/-- A whole description. -/
structure Document where
  /-- The number of real nodes. -/
  count : Numeral
  /-- The statements, in the order in which they are written. -/
  statements : List Statement
deriving DecidableEq

end PartialRedundancy.GraphText
