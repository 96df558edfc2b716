/-
Sets of indices packed into bytes, eight to a byte and lowest bit first. Only the
bit that is written changes, so a range of indices that starts and ends with a
byte can be moved byte by byte.
-/

import Mathlib

namespace Bitmap

/-- The byte with one bit set. -/
def mask (bit : Nat) : UInt8 := 1 <<< UInt8.ofNat bit

def isSet (bits : Nat → UInt8) (index : Nat) : Bool :=
  bits (index / 8) &&& mask (index % 8) != 0

/-- Write one bit. -/
def set (bits : Nat → UInt8) (index : Nat) (value : Bool) : Nat → UInt8 :=
  Function.update bits (index / 8)
    (if value then bits (index / 8) ||| mask (index % 8)
     else bits (index / 8) &&& ~~~mask (index % 8))

/-- Write a run of bits. -/
def setAll (bits : Nat → UInt8) (start : Nat) : List Bool → Nat → UInt8
  | [] => bits
  | value :: rest => setAll (set bits start value) (start + 1) rest

variable {bits : Nat → UInt8} {index other start : Nat} {value : Bool}

/-! ### One byte -/

theorem mask_toNat {bit : Nat} (small : bit < 8) : (mask bit).toNat = 2 ^ bit := by
  interval_cases bit <;> rfl

theorem and_mask {bit : Nat} (byte : UInt8) (small : bit < 8) :
    (byte &&& mask bit != 0) = byte.toNat.testBit bit := by
  have value : (byte &&& mask bit).toNat = (byte.toNat.testBit bit).toNat * 2 ^ bit := by
    rw [UInt8.toNat_and, mask_toNat small, Nat.and_two_pow]
  cases bitSet : byte.toNat.testBit bit with
  | true =>
    rw [bitSet, Bool.toNat_true, one_mul] at value
    refine bne_iff_ne.mpr fun zero => ?_
    rw [zero] at value
    exact absurd value.symm (Nat.two_pow_pos bit).ne'
  | false =>
    rw [bitSet, Bool.toNat_false, zero_mul] at value
    exact bne_eq_false_iff_eq.mpr (UInt8.toNat_inj.mp value)

theorem testBit_or_mask {bit place : Nat} (byte : UInt8) (small : bit < 8) :
    (byte ||| mask bit).toNat.testBit place = (byte.toNat.testBit place || decide (bit = place)) := by
  rw [UInt8.toNat_or, mask_toNat small, Nat.testBit_or, Nat.testBit_two_pow]

theorem testBit_and_not_mask {bit place : Nat} (byte : UInt8) (small : bit < 8) (inside : place < 8) :
    (byte &&& ~~~mask bit).toNat.testBit place =
      (byte.toNat.testBit place && !decide (bit = place)) := by
  have complement : (~~~mask bit).toNat = 2 ^ 8 - ((mask bit).toNat + 1) := by
    rw [UInt8.toNat_not, Nat.sub_sub, Nat.add_comm 1]
    rfl
  have bounded : (mask bit).toNat < 2 ^ 8 := UInt8.toNat_lt _
  rw [UInt8.toNat_and, complement, Nat.testBit_and, Nat.testBit_two_pow_sub_succ bounded,
    mask_toNat small, Nat.testBit_two_pow, decide_eq_true inside, Bool.true_and]

/-! ### The bits of a map -/

theorem isSet_eq (bits : Nat → UInt8) (index : Nat) :
    isSet bits index = (bits (index / 8)).toNat.testBit (index % 8) :=
  and_mask _ (Nat.mod_lt _ (by decide))

theorem isSet_set (bits : Nat → UInt8) (index : Nat) (value : Bool) (other : Nat) :
    isSet (set bits index value) other = if other = index then value else isSet bits other := by
  have small : index % 8 < 8 := Nat.mod_lt _ (by decide)
  have inside : other % 8 < 8 := Nat.mod_lt _ (by decide)
  rw [isSet_eq, isSet_eq]
  unfold set
  by_cases byte : other / 8 = index / 8
  · have place : index % 8 = other % 8 ↔ other = index := by omega
    rw [byte, Function.update_self]
    cases value with
    | true =>
      rw [if_pos rfl, testBit_or_mask _ small, decide_eq_decide.mpr place]
      by_cases same : other = index
      · rw [if_pos same, decide_eq_true same, Bool.or_true]
      · rw [if_neg same, decide_eq_false same, Bool.or_false]
    | false =>
      rw [if_neg nofun, testBit_and_not_mask _ small inside, decide_eq_decide.mpr place]
      by_cases same : other = index
      · rw [if_pos same, decide_eq_true same, Bool.not_true, Bool.and_false]
      · rw [if_neg same, decide_eq_false same, Bool.not_false, Bool.and_true]
  · rw [Function.update_of_ne byte, if_neg fun same => byte (congrArg (· / 8) same)]

/-- A run of bits is written to its place, and nothing else changes. -/
theorem isSet_setAll (bits : Nat → UInt8) (start : Nat) (values : List Bool) (other : Nat) :
    isSet (setAll bits start values) other =
      if start ≤ other ∧ other < start + values.length then values.getD (other - start) false
      else isSet bits other := by
  induction values generalizing bits start with
  | nil =>
    rw [if_neg fun inside => absurd inside.2 (not_lt.mpr inside.1)]
    rfl
  | cons value rest inductionHypothesis =>
    rw [setAll, inductionHypothesis, isSet_set, List.length_cons]
    by_cases later : start + 1 ≤ other ∧ other < start + 1 + rest.length
    · rw [if_pos later, if_pos (by omega), show other - start = other - (start + 1) + 1 by omega,
        List.getD_cons_succ]
    · rw [if_neg later]
      by_cases here : other = start
      · rw [if_pos here, if_pos (by omega), here, Nat.sub_self, List.getD_cons_zero]
      · rw [if_neg here, if_neg (by omega)]

/-- Bits that start with a byte are the bits from there on. -/
theorem isSet_shift (bits : Nat → UInt8) (bytes index : Nat) :
    isSet (fun byte => bits (bytes + byte)) index = isSet bits (bytes * 8 + index) := by
  rw [isSet_eq, isSet_eq, show (bytes * 8 + index) / 8 = bytes + index / 8 by omega,
    show (bytes * 8 + index) % 8 = index % 8 by omega]

theorem isSet_congr {bits bits' : Nat → UInt8} (same : bits' (index / 8) = bits (index / 8)) :
    isSet bits' index = isSet bits index := by
  unfold isSet
  rw [same]

/-- A blank map has no bit set. -/
theorem isSet_blank (index : Nat) : isSet (fun _ => 0) index = false := by
  rw [isSet_eq]
  exact Nat.zero_testBit _

/-! ### Enumerating a map -/

/-- The lowest set bit of a byte. -/
def lowestBit (byte : UInt8) : Nat :=
  ((List.range 8).find? fun bit => byte.toNat.testBit bit).getD 8

/-- The set bits of a byte: take the lowest, clear it, and go on. -/
def bitsOf : Nat → UInt8 → List Nat
  | 0, _ => []
  | fuel + 1, byte => if byte = 0 then [] else lowestBit byte :: bitsOf fuel (byte &&& (byte - 1))

/-- The set indices below a count, byte by byte. -/
def members (bits : Nat → UInt8) (count : Nat) : List Nat :=
  ((List.range ((count + 7) / 8)).flatMap fun byte =>
    (bitsOf 8 (bits byte)).map (byte * 8 + ·)).takeWhile fun index => decide (index < count)

theorem bitsOf_eq (byte : UInt8) :
    bitsOf 8 byte = (List.range 8).filter fun bit => byte.toNat.testBit bit := by
  have all : ∀ value : Fin 256, bitsOf 8 (UInt8.ofNat value) =
      (List.range 8).filter fun bit => (UInt8.ofNat value).toNat.testBit bit := by
    decide +kernel
  have value := all ⟨byte.toNat, byte.toNat_lt⟩
  rwa [UInt8.ofNat_toNat] at value

/-- The indices of whole bytes, in order. -/
theorem flatMap_bytes (bits : Nat → UInt8) (bytes : Nat) :
    ((List.range bytes).flatMap fun byte => (bitsOf 8 (bits byte)).map (byte * 8 + ·)) =
      (List.range (bytes * 8)).filter (isSet bits) := by
  induction bytes with
  | zero => rfl
  | succ bytes inductionHypothesis =>
    rw [List.range_succ, List.flatMap_append, inductionHypothesis, Nat.succ_mul, List.range_add,
      List.filter_append, List.filter_map, List.flatMap_singleton, bitsOf_eq]
    congr 2
    refine List.filter_congr fun bit member => ?_
    have small : bit < 8 := List.mem_range.mp member
    rw [Function.comp_apply, isSet_eq, show (bytes * 8 + bit) / 8 = bytes by omega,
      show (bytes * 8 + bit) % 8 = bit by omega]

theorem members_eq (bits : Nat → UInt8) (count : Nat) :
    members bits count = (List.range count).filter (isSet bits) := by
  unfold members
  rw [flatMap_bytes, show (count + 7) / 8 * 8 = count + ((count + 7) / 8 * 8 - count) by omega,
    List.range_add, List.filter_append, List.takeWhile_append_of_pos]
  · have none : (((List.range ((count + 7) / 8 * 8 - count)).map (count + ·)).filter
        (isSet bits)).takeWhile (fun index => decide (index < count)) = [] := by
      refine List.takeWhile_eq_nil_iff.mpr fun nonempty => ?_
      have member := List.mem_of_mem_filter (List.get_mem _ ⟨0, nonempty⟩)
      obtain ⟨above, -, is⟩ := List.mem_map.mp member
      simp only [decide_eq_true_eq, not_lt]
      omega
    rw [none, List.append_nil]
  · intro index member
    exact decide_eq_true (List.mem_range.mp (List.mem_of_mem_filter member))

end Bitmap
