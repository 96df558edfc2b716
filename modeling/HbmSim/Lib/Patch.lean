/-
Partial updates. A patch gives new values to some keys and leaves the others
alone; laying one patch over another is how a later write meets an earlier one,
and the content of a store is the patch that all its writes add up to.
-/

import Mathlib

/-- New values for some keys. -/
abbrev Patch (K V : Type) := K → Option V

namespace Patch

variable {K V : Type}

/-- The patch that changes nothing. -/
def empty : Patch K V := fun _ => none

/-- Lay a newer patch over an older one. -/
def onto (newer older : Patch K V) : Patch K V := fun key => (newer key).or (older key)

theorem onto_apply (newer older : Patch K V) (key : K) :
    newer.onto older key = (newer key).or (older key) := rfl

@[simp] theorem empty_onto (older : Patch K V) : empty.onto older = older := by
  funext key
  exact Option.none_or

theorem onto_assoc (newest middle oldest : Patch K V) :
    (newest.onto middle).onto oldest = newest.onto (middle.onto oldest) := by
  funext key
  exact Option.or_assoc

/-- The part of a patch on the keys a predicate selects. -/
def restrict (patch : Patch K V) (select : K → Prop) [DecidablePred select] : Patch K V :=
  fun key => if select key then patch key else none

end Patch
