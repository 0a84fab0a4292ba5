/-!
# Seedings

A seeding says from which facts an analysis starts and which nodes it evaluates first.

## Main definitions

* `Seeding` — all nodes at once, or only those that the boundary reaches.
* `Seeding.name`, `Seeding.ofName?` — the written form.

## Main results

* `Seeding.ofName?_eq_some_iff` — a name is read exactly if it is written so.
-/

namespace PartialRedundancy

/-- Where an analysis starts. -/
inductive Seeding
  /-- All nodes start at the extreme value, and all are evaluated. -/
  | eager
  /-- All nodes but the boundary start unknown, and only those are evaluated that values from the
  boundary reach. -/
  | reachableOnly
deriving DecidableEq, Repr, Inhabited

namespace Seeding

/-- The written form of a seeding. -/
def name : Seeding → String
  | eager => "eager"
  | reachableOnly => "reachable-only"

/-- The seeding of a name. -/
def ofName? (text : String) : Option Seeding :=
  if text = eager.name then some eager
  else if text = reachableOnly.name then some reachableOnly
  else none

/-- The wording of the failure to read a name. -/
def unknownMessage (text : String) : String :=
  s!"unknown seeding: {text} (expected `eager` or `reachable-only`)"

/-- A name is read exactly if it is written so. -/
theorem ofName?_eq_some_iff {text : String} {s : Seeding} :
    ofName? text = some s ↔ text = s.name := by
  unfold ofName?
  split
  · rename_i h
    subst h
    cases s <;> simp [name]
  · rename_i h
    split
    · rename_i h'
      subst h'
      cases s <;> simp [name]
    · rename_i h'
      cases s
      · simp [h]
      · simp [h']

end Seeding

end PartialRedundancy
