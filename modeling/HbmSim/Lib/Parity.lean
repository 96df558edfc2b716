/-
Loops that toggle and loops that accumulate by exclusive or.

A checksum over a bit string is usually a loop: for every set bit, flip one
flag or fold one weight into a word. Both loops are linear over exclusive or,
so toggling one input bit changes the result by exactly that bit's weight,
whatever the other bits are. The file also fixes the parity of a word and
counts the non-powers of two below a bound, which is what places data bits in
a Hamming code.
-/

import Mathlib

namespace Parity

/-! ### Two folds over selected indices -/

/-- Flip `start` once for every selected index of the list. -/
def toggles (select : Nat → Bool) (start : Bool) (indices : List Nat) : Bool :=
  indices.foldl (fun odd index => if select index then !odd else odd) start

/-- Fold the weight of every selected index into `start` by exclusive or. -/
def xorWeights (select : Nat → Bool) (weight : Nat → Nat) (start : Nat)
    (indices : List Nat) : Nat :=
  indices.foldl (fun word index => if select index then word ^^^ weight index else word) start

/-- Select one more index, or one less. -/
def flipAt (select : Nat → Bool) (target : Nat) : Nat → Bool :=
  fun index => if index = target then !select index else select index

theorem toggles_cons (select : Nat → Bool) (start : Bool) (index : Nat) (rest : List Nat) :
    toggles select start (index :: rest) =
      toggles select (start ^^ select index) rest := by
  unfold toggles
  rw [List.foldl_cons]
  cases select index <;> cases start <;> rfl

theorem toggles_start (select : Nat → Bool) (start : Bool) (indices : List Nat) :
    toggles select start indices = (start ^^ toggles select false indices) := by
  induction indices generalizing start with
  | nil => cases start <;> rfl
  | cons index rest inductionHypothesis =>
    rw [toggles_cons, toggles_cons, inductionHypothesis,
      inductionHypothesis (false ^^ select index)]
    simp only [Bool.false_xor, Bool.xor_assoc]

theorem toggles_append (select : Nat → Bool) (start : Bool) (first second : List Nat) :
    toggles select start (first ++ second) =
      toggles select (toggles select start first) second := by
  unfold toggles
  rw [List.foldl_append]

theorem toggles_congr {select other : Nat → Bool} {start : Bool} {indices : List Nat}
    (same : ∀ index ∈ indices, select index = other index) :
    toggles select start indices = toggles other start indices := by
  induction indices generalizing start with
  | nil => rfl
  | cons index rest inductionHypothesis =>
    rw [toggles_cons, toggles_cons, same index List.mem_cons_self]
    exact inductionHypothesis fun other member => same other (List.mem_cons_of_mem index member)

/-- Toggling is additive in the selection. -/
theorem toggles_xor (select other : Nat → Bool) (indices : List Nat) :
    toggles (fun index => select index ^^ other index) false indices =
      (toggles select false indices ^^ toggles other false indices) := by
  induction indices with
  | nil => rfl
  | cons index rest inductionHypothesis =>
    rw [toggles_cons, toggles_cons, toggles_cons, toggles_start,
      toggles_start select, toggles_start other, inductionHypothesis]
    cases select index <;> cases other index <;>
      cases toggles select false rest <;> cases toggles other false rest <;> rfl

theorem toggles_never (indices : List Nat) :
    toggles (fun _ => false) false indices = false := by
  induction indices with
  | nil => rfl
  | cons index rest inductionHypothesis =>
    rw [toggles_cons]
    exact inductionHypothesis

theorem toggles_single {target width : Nat} (inside : target < width) :
    toggles (fun index => decide (index = target)) false (List.range width) = true := by
  induction width with
  | zero => omega
  | succ width inductionHypothesis =>
    rw [List.range_succ, toggles_append, toggles_start]
    by_cases last : target = width
    · have none : toggles (fun index => decide (index = target)) false
          (List.range width) = false := by
        have never : ∀ index ∈ List.range width, decide (index = target) = false := by
          intro index member
          have below := List.mem_range.mp member
          simp only [decide_eq_false_iff_not]
          omega
        rw [toggles_congr never]
        exact toggles_never (List.range width)
      rw [none, last]
      simp [toggles]
    · rw [inductionHypothesis (by omega)]
      simp [toggles, Ne.symm last]

/-- Flipping one index of the range flips the toggled flag. -/
theorem toggles_flipAt {select : Nat → Bool} {target width : Nat} (inside : target < width) :
    toggles (flipAt select target) false (List.range width) =
      !toggles select false (List.range width) := by
  have split : flipAt select target =
      fun index => select index ^^ decide (index = target) := by
    funext index
    unfold flipAt
    by_cases equal : index = target <;> simp [equal]
  rw [split, toggles_xor, toggles_single inside, Bool.xor_true]

theorem xorWeights_cons (select : Nat → Bool) (weight : Nat → Nat) (start index : Nat)
    (rest : List Nat) :
    xorWeights select weight start (index :: rest) =
      xorWeights select weight (if select index then start ^^^ weight index else start) rest :=
  rfl

theorem xorWeights_start (select : Nat → Bool) (weight : Nat → Nat) (start : Nat)
    (indices : List Nat) :
    xorWeights select weight start indices =
      start ^^^ xorWeights select weight 0 indices := by
  induction indices generalizing start with
  | nil => exact (Nat.xor_zero start).symm
  | cons index rest inductionHypothesis =>
    rw [xorWeights_cons, xorWeights_cons, inductionHypothesis,
      inductionHypothesis (if select index then 0 ^^^ weight index else 0)]
    by_cases chosen : select index = true
    · simp only [chosen, if_true, Nat.zero_xor, Nat.xor_assoc]
    · simp only [chosen, if_false, Nat.zero_xor, Bool.false_eq_true]

theorem xorWeights_append (select : Nat → Bool) (weight : Nat → Nat) (start : Nat)
    (first second : List Nat) :
    xorWeights select weight start (first ++ second) =
      xorWeights select weight (xorWeights select weight start first) second := by
  unfold xorWeights
  rw [List.foldl_append]

theorem xorWeights_congr {select other : Nat → Bool} {weight : Nat → Nat} {start : Nat}
    {indices : List Nat} (same : ∀ index ∈ indices, select index = other index) :
    xorWeights select weight start indices = xorWeights other weight start indices := by
  induction indices generalizing start with
  | nil => rfl
  | cons index rest inductionHypothesis =>
    rw [xorWeights_cons, xorWeights_cons, same index List.mem_cons_self]
    exact inductionHypothesis fun other member => same other (List.mem_cons_of_mem index member)

/-- Flipping one index of the range changes the word by exactly that index's weight. -/
theorem xorWeights_flipAt {select : Nat → Bool} {weight : Nat → Nat} {target width : Nat}
    (inside : target < width) :
    xorWeights (flipAt select target) weight 0 (List.range width) =
      xorWeights select weight 0 (List.range width) ^^^ weight target := by
  induction width with
  | zero => omega
  | succ width inductionHypothesis =>
    rw [List.range_succ, xorWeights_append, xorWeights_append]
    by_cases last : target = width
    · have same : xorWeights (flipAt select target) weight 0 (List.range width) =
          xorWeights select weight 0 (List.range width) := by
        refine xorWeights_congr fun index member => ?_
        have below := List.mem_range.mp member
        exact if_neg (by omega)
      rw [same, last]
      by_cases chosen : select width = true
      · simp [xorWeights, flipAt, chosen]
      · simp [xorWeights, flipAt, chosen]
    · rw [inductionHypothesis (by omega)]
      have same : flipAt select target width = select width := if_neg (Ne.symm last)
      by_cases chosen : select width = true
      · simp only [xorWeights, List.foldl_cons, List.foldl_nil, same, chosen, if_true]
        rw [Nat.xor_assoc, Nat.xor_assoc, Nat.xor_comm (weight target)]
      · simp [xorWeights, same, chosen]

/-! ### Bits of a word -/

/-- Copying the bits of a word one by one copies the word below the width. -/
theorem xorWeights_testBit (word width : Nat) :
    xorWeights word.testBit (fun bit => 1 <<< bit) 0 (List.range width) = word % 2 ^ width := by
  induction width with
  | zero => simp [xorWeights, Nat.mod_one]
  | succ width inductionHypothesis =>
    rw [List.range_succ, xorWeights_append, inductionHypothesis]
    refine Nat.eq_of_testBit_eq fun bit => ?_
    rw [Nat.testBit_mod_two_pow]
    by_cases chosen : word.testBit width = true
    · simp only [xorWeights, List.foldl_cons, List.foldl_nil, chosen, if_true,
        Nat.testBit_xor, Nat.testBit_mod_two_pow, Nat.one_shiftLeft, Nat.testBit_two_pow]
      rcases Nat.lt_trichotomy bit width with below | equal | above
      · simp [below, Nat.lt_succ_of_lt below, Nat.ne_of_gt below]
      · simp [equal, chosen]
      · simp [Nat.not_lt_of_lt above, Nat.ne_of_lt above, show ¬ bit < width + 1 by omega]
    · simp only [xorWeights, List.foldl_cons, List.foldl_nil, chosen, if_false,
        Nat.testBit_mod_two_pow, Bool.false_eq_true]
      rcases Nat.lt_trichotomy bit width with below | equal | above
      · simp [below, Nat.lt_succ_of_lt below]
      · simp [equal, chosen]
      · simp [Nat.not_lt_of_lt above, show ¬ bit < width + 1 by omega]

/-- The masked test a loop over bit positions writes. -/
theorem and_shift_ne_zero (word bit : Nat) :
    decide (word &&& (1 <<< bit) ≠ 0) = word.testBit bit := by
  rw [Nat.one_shiftLeft, Nat.and_two_pow]
  cases word.testBit bit <;> simp

/-- Whether an odd number of the bits below the width are set. -/
def oddBelow (width word : Nat) : Bool :=
  toggles word.testBit false (List.range width)

theorem oddBelow_xor (width left right : Nat) :
    oddBelow width (left ^^^ right) = (oddBelow width left ^^ oddBelow width right) := by
  unfold oddBelow
  rw [← toggles_xor]
  refine toggles_congr fun bit _ => ?_
  exact Nat.testBit_xor left right bit

/-- The number of set bits of a word. -/
def popcount (word : Nat) : Nat :=
  (List.range word.size).countP word.testBit

theorem toggles_eq_odd_countP (select : Nat → Bool) (indices : List Nat) :
    toggles select false indices = decide (indices.countP select % 2 = 1) := by
  induction indices with
  | nil => rfl
  | cons index rest inductionHypothesis =>
    rw [toggles_cons, toggles_start, inductionHypothesis, List.countP_cons]
    by_cases chosen : select index = true
    · simp only [chosen, Bool.false_xor, Bool.true_xor, if_true]
      rw [← decide_not, decide_eq_decide]
      omega
    · simp [chosen]

theorem countP_testBit_range {word width : Nat} (fits : word < 2 ^ width) :
    (List.range width).countP word.testBit = popcount word := by
  have small : word.size ≤ width := Nat.size_le.mpr fits
  obtain ⟨extra, rfl⟩ := Nat.exists_eq_add_of_le small
  unfold popcount
  rw [List.range_add, List.countP_append, List.countP_map]
  have none : (List.range extra).countP (word.testBit ∘ (word.size + ·)) = 0 := by
    rw [List.countP_eq_zero]
    intro bit _
    have below : word < 2 ^ (word.size + bit) :=
      lt_of_lt_of_le (Nat.lt_size_self word) (Nat.pow_le_pow_right (by omega) (by omega))
    simp [Nat.testBit_eq_false_of_lt below]
  rw [none, Nat.add_zero]

/-- Within a width that holds the word, the toggled parity is that of the popcount. -/
theorem oddBelow_eq_false_iff {word width : Nat} (fits : word < 2 ^ width) :
    oddBelow width word = false ↔ Even (popcount word) := by
  unfold oddBelow
  rw [toggles_eq_odd_countP, countP_testBit_range fits, decide_eq_false_iff_not, Nat.even_iff]
  omega

/-! ### Positions that are not powers of two -/

/-- A place of a Hamming code that carries data: positive and not a power of two. -/
def DataPosition (position : Nat) : Prop :=
  0 < position ∧ ¬ position.isPowerOfTwo

instance : DecidablePred DataPosition := fun position =>
  inferInstanceAs (Decidable (0 < position ∧ ¬ position.isPowerOfTwo))

/-- Below `2 ^ width` there are `width` powers of two. -/
theorem count_isPowerOfTwo (width : Nat) : Nat.count Nat.isPowerOfTwo (2 ^ width) = width := by
  induction width with
  | zero => decide
  | succ width inductionHypothesis =>
    rw [pow_succ, Nat.mul_two, Nat.count_add, inductionHypothesis]
    have single : Nat.count (fun extra => (2 ^ width + extra).isPowerOfTwo) (2 ^ width) =
        Nat.count (fun extra => extra = 0) (2 ^ width) := by
      rw [Nat.count_eq_card_filter_range, Nat.count_eq_card_filter_range]
      refine congrArg Finset.card (Finset.filter_congr fun extra member => ?_)
      have below := Finset.mem_range.mp member
      constructor
      · rintro ⟨power, equal⟩
        have above : width ≤ power := by
          rw [← Nat.pow_le_pow_iff_right (a := 2) (by omega)]
          omega
        have under : power < width + 1 := by
          rw [← Nat.pow_lt_pow_iff_right (a := 2) (by omega), pow_succ]
          omega
        have same : power = width := by omega
        rw [same] at equal
        omega
      · rintro rfl
        exact ⟨width, rfl⟩
    rw [single]
    have one : ∀ bound, 0 < bound → Nat.count (fun extra => extra = 0) bound = 1 := by
      intro bound positive
      induction bound with
      | zero => omega
      | succ bound inductionHypothesis =>
        rw [Nat.count_succ]
        by_cases zero : bound = 0
        · simp [zero]
        · rw [inductionHypothesis (by omega)]
          simp [zero]
    rw [one _ (Nat.two_pow_pos width)]

theorem count_add_count_isPowerOfTwo (bound : Nat) :
    Nat.count DataPosition (bound + 1) + Nat.count Nat.isPowerOfTwo (bound + 1) = bound := by
  induction bound with
  | zero => decide
  | succ bound inductionHypothesis =>
    rw [Nat.count_succ, Nat.count_succ _ (bound + 1)]
    by_cases power : (bound + 1).isPowerOfTwo
    · have notData : ¬ DataPosition (bound + 1) := fun data => data.2 power
      rw [if_neg notData, if_pos power]
      omega
    · have data : DataPosition (bound + 1) := ⟨by omega, power⟩
      rw [if_pos data, if_neg power]
      omega

/-- Below `2 ^ width` there are `2 ^ width - width - 1` data positions. -/
theorem count_dataPosition (width : Nat) :
    Nat.count DataPosition (2 ^ width) = 2 ^ width - width - 1 := by
  obtain ⟨bound, equal⟩ : ∃ bound, 2 ^ width = bound + 1 :=
    ⟨2 ^ width - 1, by have := Nat.two_pow_pos width; omega⟩
  have total := count_add_count_isPowerOfTwo bound
  rw [← equal, count_isPowerOfTwo] at total
  omega

/-- Odd places beyond one carry data, so the places never run out. -/
theorem dataPosition_infinite : (Set.ofPred DataPosition).Infinite := by
  refine Set.infinite_of_injective_forall_mem (f := fun index => 2 * index + 3) ?_ ?_
  · intro left right equal
    simp only at equal
    omega
  · intro index
    refine ⟨by omega, ?_⟩
    rintro ⟨power, equal⟩
    cases power with
    | zero => omega
    | succ power =>
      rw [pow_succ] at equal
      omega

end Parity
