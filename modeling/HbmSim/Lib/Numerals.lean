/-
Numbers and bytes as digits. A numeral is read from its first digit on; whatever
reads the value of a digit back reads the number back, with zeros in front or
without. A byte is two digits of base 16.
-/

import Mathlib

namespace Numerals

/-! ### Numbers -/

/-- The number a list of digits stands for. -/
def read (digit : Char → Nat) (base : Nat) (digits : List Char) (front : Nat) : Nat :=
  digits.foldl (fun value c => value * base + digit c) front

theorem read_append (digit : Char → Nat) (base : Nat) (first second : List Char) (front : Nat) :
    read digit base (first ++ second) front = read digit base second (read digit base first front) :=
  List.foldl_append

/-- Every character of a numeral is a digit below its base. -/
theorem mem_toDigits {base number : Nat} (many : 1 < base) {c : Char}
    (member : c ∈ Nat.toDigits base number) : ∃ value < base, c = Nat.digitChar value := by
  induction number using Nat.strong_induction_on with
  | _ number inductionHypothesis =>
    rcases Nat.lt_or_ge number base with small | large
    · rw [Nat.toDigits_of_lt_base small] at member
      exact ⟨number, small, List.mem_singleton.mp member⟩
    · rw [Nat.toDigits_of_base_le many large] at member
      rcases List.mem_append.mp member with front | last
      · exact inductionHypothesis _ (Nat.div_lt_self (by omega) many) front
      · exact ⟨number % base, Nat.mod_lt _ (by omega), List.mem_singleton.mp last⟩

/-- A numeral is read back. -/
theorem read_toDigits {digit : Char → Nat} {base : Nat} (many : 1 < base)
    (inverse : ∀ value < base, digit (Nat.digitChar value) = value) (number : Nat) :
    read digit base (Nat.toDigits base number) 0 = number := by
  induction number using Nat.strong_induction_on with
  | _ number inductionHypothesis =>
    rcases Nat.lt_or_ge number base with small | large
    · rw [Nat.toDigits_of_lt_base small]
      show 0 * base + digit (Nat.digitChar number) = number
      rw [inverse number small, Nat.zero_mul, Nat.zero_add]
    · rw [Nat.toDigits_of_base_le many large, read_append,
        inductionHypothesis _ (Nat.div_lt_self (by omega) many)]
      show number / base * base + digit (Nat.digitChar (number % base)) = number
      rw [inverse _ (Nat.mod_lt _ (by omega)), Nat.mul_comm, Nat.div_add_mod]

/-- Zeros in front of a numeral do not count. -/
theorem read_zeros {digit : Char → Nat} {base : Nat} (zero : digit '0' = 0) (count : Nat) :
    read digit base (List.replicate count '0') 0 = 0 := by
  induction count with
  | zero => rfl
  | succ count inductionHypothesis =>
    rw [List.replicate_succ]
    show read digit base (List.replicate count '0') (0 * base + digit '0') = 0
    rw [zero, Nat.zero_mul, inductionHypothesis]

/-- A numeral filled up with zeros to a width. -/
def padded (width base number : Nat) : List Char :=
  List.replicate (width - (Nat.toDigits base number).length) '0' ++ Nat.toDigits base number

theorem read_padded {digit : Char → Nat} {base : Nat} (many : 1 < base)
    (inverse : ∀ value < base, digit (Nat.digitChar value) = value) (width number : Nat) :
    read digit base (padded width base number) 0 = number := by
  unfold padded
  have zero : digit '0' = 0 := inverse 0 (by omega)
  rw [read_append, read_zeros zero, read_toDigits many inverse]

theorem mem_padded {width base number : Nat} (many : 1 < base) {c : Char}
    (member : c ∈ padded width base number) : ∃ value < base, c = Nat.digitChar value := by
  rcases List.mem_append.mp member with front | back
  · exact ⟨0, by omega, (List.mem_replicate.mp front).2⟩
  · exact mem_toDigits many back

/-! ### Bytes -/

/-- Bytes as two digits each, the high one first. -/
def hexDigits (bytes : List UInt8) : List Char :=
  bytes.flatMap fun byte => [Nat.digitChar (byte.toNat / 16), Nat.digitChar (byte.toNat % 16)]

@[simp] theorem hexDigits_length (bytes : List UInt8) :
    (hexDigits bytes).length = bytes.length * 2 := by
  unfold hexDigits
  induction bytes with
  | nil => rfl
  | cons byte rest inductionHypothesis =>
    rw [List.flatMap_cons, List.length_append, inductionHypothesis]
    show 2 + rest.length * 2 = (rest.length + 1) * 2
    rw [Nat.add_mul, Nat.add_comm]

theorem mem_hexDigits {bytes : List UInt8} {c : Char} (member : c ∈ hexDigits bytes) :
    ∃ value < 16, c = Nat.digitChar value := by
  obtain ⟨byte, -, member⟩ := List.mem_flatMap.mp member
  have below := byte.toNat_lt
  rcases List.mem_cons.mp member with high | low
  · exact ⟨byte.toNat / 16, by omega, high⟩
  · exact ⟨byte.toNat % 16, by omega, List.mem_singleton.mp low⟩

end Numerals
