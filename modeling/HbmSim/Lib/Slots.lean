/-
Tables of optional values: how many slots below a bound meet a condition, and how
putting one value changes that.
-/

import Mathlib

namespace Slots

variable {Value : Type}

def put (slots : Nat → Option Value) (slot : Nat) (value : Value) : Nat → Option Value :=
  Function.update slots slot (some value)

/-- How many slots below the bound meet a condition. -/
def count (bound : Nat) (meets : Option Value → Bool) (slots : Nat → Option Value) : Nat :=
  (List.range bound).countP fun slot => meets (slots slot)

/-- The used slots below the bound, in order. -/
def used (bound : Nat) (slots : Nat → Option Value) : List Nat :=
  (List.range bound).filter fun slot => (slots slot).isSome

variable {bound slot other : Nat} {meets : Option Value → Bool} {slots : Nat → Option Value}

@[simp] theorem put_self (value : Value) : put slots slot value slot = some value :=
  Function.update_self ..

theorem put_ne (value : Value) (differs : other ≠ slot) : put slots slot value other = slots other :=
  Function.update_of_ne differs ..

theorem count_succ : count (bound + 1) meets slots =
    count bound meets slots + (meets (slots bound)).toNat := by
  unfold count
  rw [List.range_succ, List.countP_append, List.countP_singleton]
  cases meets (slots bound) <;> rfl

theorem count_put_outside (value : Value) (outside : bound ≤ slot) :
    count bound meets (put slots slot value) = count bound meets slots := by
  refine List.countP_congr fun other member => ?_
  have below := List.mem_range.mp member
  rw [put_ne value (by omega)]

/-- The put slot counts as the new value does, and no longer as the old one did. -/
theorem count_put (meets : Option Value → Bool) (slots : Nat → Option Value) (value : Value)
    (inside : slot < bound) :
    count bound meets (put slots slot value) + (meets (slots slot)).toNat =
      count bound meets slots + (meets (some value)).toNat := by
  induction bound with
  | zero => exact absurd inside (Nat.not_lt_zero _)
  | succ bound inductionHypothesis =>
    rw [count_succ, count_succ]
    by_cases last : slot = bound
    · rw [last, put_self, count_put_outside value (Nat.le_refl _)]
      omega
    · rw [put_ne value fun same => last same.symm]
      have earlier := inductionHypothesis (by omega)
      omega

theorem count_empty (absent : meets none = false) :
    count bound meets (fun _ => (none : Option Value)) = 0 := by
  refine List.countP_eq_zero.mpr fun slot _ => ?_
  rw [absent]
  nofun

theorem count_le (bound : Nat) (meets : Option Value → Bool) (slots : Nat → Option Value) :
    count bound meets slots ≤ bound := by
  have counted := List.countP_le_length (p := fun slot => meets (slots slot)) (l := List.range bound)
  rwa [List.length_range] at counted

theorem count_le_count {weaker : Option Value → Bool}
    (implies : ∀ found, meets found = true → weaker found = true) :
    count bound meets slots ≤ count bound weaker slots :=
  List.countP_mono_left fun _ _ holds => implies _ holds

theorem length_used : (used bound slots).length = count bound Option.isSome slots := by
  unfold used count
  rw [← List.countP_eq_length_filter]

theorem mem_used : slot ∈ used bound slots ↔ slot < bound ∧ (slots slot).isSome = true := by
  unfold used
  rw [List.mem_filter, List.mem_range]

end Slots
