import PartialRedundancy.Dataflow.Seeding

/-!
# Options

What can be chosen for a session of code motion.

## Main definitions

* `SessionOptions` — the choices, with their defaults.
-/

namespace PartialRedundancy

/-- The choices for a session. -/
structure SessionOptions where
  /-- Where each analysis starts. -/
  seeding : Seeding := .eager
deriving DecidableEq, Repr, Inhabited

end PartialRedundancy
