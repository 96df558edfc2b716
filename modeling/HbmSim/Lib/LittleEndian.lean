/-
Numbers as bytes, the least significant one first, in a fixed width.
-/

import Mathlib

namespace LittleEndian

/-- The low bytes of a number. -/
def encode : Nat → Nat → List UInt8
  | 0, _ => []
  | width + 1, value => UInt8.ofNat value :: encode width (value / 256)

def decode (bytes : List UInt8) : Nat := Nat.ofDigits 256 (bytes.map UInt8.toNat)

@[simp] theorem length_encode (width value : Nat) : (encode width value).length = width := by
  induction width generalizing value with
  | zero => rfl
  | succ width inductionHypothesis => exact congrArg Nat.succ (inductionHypothesis _)

/-- What fits the width is read back. -/
theorem decode_encode {width value : Nat} (fits : value < 256 ^ width) :
    decode (encode width value) = value := by
  induction width generalizing value with
  | zero =>
    have zero : value = 0 := Nat.lt_one_iff.mp fits
    rw [zero]
    rfl
  | succ width inductionHypothesis =>
    have smaller : value / 256 < 256 ^ width :=
      Nat.div_lt_of_lt_mul (by rwa [← Nat.pow_succ'])
    have low : (UInt8.ofNat value).toNat = value % 256 := UInt8.toNat_ofNat'
    unfold decode at *
    unfold encode
    rw [List.map_cons, Nat.ofDigits_cons, low, inductionHypothesis smaller]
    exact Nat.mod_add_div value 256

end LittleEndian
