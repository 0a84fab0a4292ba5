import PartialRedundancy.Dataflow.Equation

/-!
# Tabulated equations

Equations whose terms and applications are given by tables, with one of the four functions of a
boolean for each node. The negation is not monotone, so such a system need not settle.

## Main definitions

* `BoolFunction` — the four functions of a boolean.
* `Equation.ofTables` — the equations of two tables.
-/

namespace PartialRedundancy

/-- A function of a boolean. -/
inductive BoolFunction
  /-- Always false. -/
  | zero
  /-- The value itself. -/
  | identity
  /-- The other value. -/
  | negation
  /-- Always true. -/
  | one
deriving DecidableEq, Repr

/-- The value of a function. -/
def BoolFunction.eval : BoolFunction → Bool → Bool
  | zero, _ => false
  | identity, b => b
  | negation, b => !b
  | one, _ => true

/-- The equations of a table of terms and a table of applications. -/
def Equation.ofTables (direction : Direction) (extreme : Extreme) (meet : Meet) (boundary : Bool)
    (terms applications : Array BoolFunction) : Equation where
  direction := direction
  extreme := extreme
  meet := meet
  boundary := boundary
  term m value := do return (← fetch terms m).eval value
  apply n met := do return (← fetch applications n).eval met

end PartialRedundancy
