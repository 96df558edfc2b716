/-
Mixed-radix numerals: a number is read digit by digit, each place with its own
radix, lowest place first. Below the product of the radixes the digits determine
the number, and every digit list whose digits are in range is the numeral of one
number.
-/

import Mathlib

namespace MixedRadix

/-- The digits of a number, lowest place first. -/
def digits : List Nat → Nat → List Nat
  | [], _ => []
  | radix :: rest, number => number % radix :: digits rest (number / radix)

/-- The number a digit list stands for. -/
def number : List Nat → List Nat → Nat
  | radix :: rest, digit :: more => digit + radix * number rest more
  | _, _ => 0

/-- Every digit is below the radix of its place, and every place has a digit. -/
def InRange (radixes values : List Nat) : Prop :=
  List.Forall₂ (fun digit radix => digit < radix) values radixes

theorem number_digits (radixes : List Nat) (value : Nat) (small : value < radixes.prod) :
    number radixes (digits radixes value) = value := by
  induction radixes generalizing value with
  | nil =>
    rw [List.prod_nil] at small
    exact (Nat.lt_one_iff.mp small).symm
  | cons radix rest inductionHypothesis =>
    rw [List.prod_cons] at small
    have quotient : value / radix < rest.prod := Nat.div_lt_of_lt_mul small
    rw [digits, number, inductionHypothesis _ quotient]
    exact Nat.mod_add_div value radix

theorem digits_inRange {radixes : List Nat} (positive : ∀ radix ∈ radixes, 0 < radix)
    (value : Nat) : InRange radixes (digits radixes value) := by
  induction radixes generalizing value with
  | nil => exact List.Forall₂.nil
  | cons radix rest inductionHypothesis =>
    refine List.Forall₂.cons (Nat.mod_lt value (positive radix List.mem_cons_self)) ?_
    exact inductionHypothesis (fun other member => positive other (List.mem_cons_of_mem _ member)) _

/-- Two numbers below the product with the same digits are the same. -/
theorem digits_injective {radixes : List Nat} {left right : Nat} (leftSmall : left < radixes.prod)
    (rightSmall : right < radixes.prod) (same : digits radixes left = digits radixes right) :
    left = right := by
  rw [← number_digits radixes left leftSmall, same, number_digits radixes right rightSmall]

theorem number_lt {radixes values : List Nat} (inRange : InRange radixes values) :
    number radixes values < radixes.prod := by
  induction inRange with
  | nil => exact Nat.one_pos
  | cons small more inductionHypothesis =>
    rename_i digit radix digits rest
    rw [number, List.prod_cons]
    calc digit + radix * number rest digits < radix + radix * number rest digits :=
          Nat.add_lt_add_right small _
      _ = radix * (number rest digits + 1) := by ring
      _ ≤ radix * rest.prod := Nat.mul_le_mul_left radix inductionHypothesis

/-- Every digit list in range is the numeral of the number it stands for. -/
theorem digits_number {radixes values : List Nat} (inRange : InRange radixes values) :
    digits radixes (number radixes values) = values := by
  induction inRange with
  | nil => rfl
  | cons small more inductionHypothesis =>
    rename_i digit radix values rest
    rw [number, digits, Nat.add_mul_mod_self_left, Nat.mod_eq_of_lt small,
      Nat.add_mul_div_left _ _ (Nat.zero_lt_of_lt small), Nat.div_eq_of_lt small, Nat.zero_add,
      inductionHypothesis]

end MixedRadix
