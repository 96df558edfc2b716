/-
The sign and the size of products of doubles, on Lean's own model of `Float`. A
product of a positive double and a positive count is rounded, but neither to zero
nor below it, since the least double times one is a double.

A finite double is a mantissa and an exponent. The position of its first digit,
`Nat.log2 mantissa + exponent`, is what rounding cannot lower.
-/

import Mathlib

namespace Binary64

open Float.Model Float.Model.UnpackedFloat

/-! ### Rounding keeps the first digit -/

/-- A mantissa and an exponent as a double stores them. -/
structure Canonical (mantissa : Nat) (exponent : Int) : Prop where
  bits : mantissa.log2 ≤ 52
  least : -1074 ≤ exponent
  full : mantissa.log2 = 52 ∨ exponent = -1074

theorem shiftRight_mantissa (extended : ExtendedMantissa) (count : Nat) :
    (extended >>> count).mantissa = extended.mantissa / 2 ^ count := by
  induction count generalizing extended with
  | zero => exact (Nat.div_one _).symm
  | succ count inductionHypothesis =>
    show (extended >>> count).mantissa / 2 = _
    rw [inductionHypothesis, Nat.div_div_eq_div_mul, Nat.pow_succ]

theorem le_roundedMantissa (extended : ExtendedMantissa) :
    extended.mantissa ≤ extended.roundedMantissa := by
  obtain ⟨mantissa, roundBit, stickyBit⟩ := extended
  cases roundBit <;> cases stickyBit <;>
    simp [ExtendedMantissa.roundedMantissa, ExtendedMantissa.accuracy, Accuracy.roundToNearestEven]

theorem log2_mono {lower upper : Nat} (below : lower ≤ upper) : lower.log2 ≤ upper.log2 := by
  rw [Nat.log2_eq_log_two, Nat.log2_eq_log_two]
  exact Nat.log_mono_right below

theorem log2_div_two_pow (mantissa count : Nat) :
    (mantissa / 2 ^ count).log2 = mantissa.log2 - count := by
  rw [Nat.log2_eq_log_two, Nat.log2_eq_log_two, Nat.log_div_base_pow]

/-- Where the exponent of a double lies for a first digit. -/
theorem targetExponent_eq (mantissa : Nat) (exponent : Int) :
    Format.binary64.targetExponent (totalExponent mantissa exponent) =
      max (mantissa.log2 + exponent - 52) (-1074) := by
  unfold Format.targetExponent totalExponent Format.mantissaBits Format.minExponent
    Format.mantissaBits
  dsimp only
  omega

/-- A shift to the target drops digits, and not the first one. -/
structure Shifted (mantissa : Nat) (exponent : Int) (shifted : ExtendedMantissa × Int) : Prop where
  positive : 0 < shifted.1.mantissa
  canonical : Canonical shifted.1.mantissa shifted.2
  digit : (shifted.1.mantissa.log2 : Int) + shifted.2 = mantissa.log2 + exponent

theorem shiftToTargetExponent_shifted {mantissa : Nat} (exponent : Int) (positive : 0 < mantissa)
    (reaches : exponent ≤ max (mantissa.log2 + exponent - 52) (-1074))
    (large : -1074 ≤ mantissa.log2 + exponent) :
    Shifted mantissa exponent
      (shiftToTargetExponent Format.binary64 mantissa exponent .exact) := by
  obtain ⟨count, shift⟩ : ∃ count : Nat,
      (count : Int) = max (mantissa.log2 + exponent - 52) (-1074) - exponent :=
    ⟨_, Int.toNat_of_nonneg (by omega)⟩
  have result : shiftToTargetExponent Format.binary64 mantissa exponent .exact =
      ((⟨mantissa, false, false⟩ : ExtendedMantissa) >>> count, exponent + count) := by
    unfold shiftToTargetExponent shiftToExponent
    rw [targetExponent_eq]
    dsimp only
    rw [← shift]
    rfl
  have bits : count ≤ mantissa.log2 := by omega
  have digits : ((⟨mantissa, false, false⟩ : ExtendedMantissa) >>> count).mantissa.log2 =
      mantissa.log2 - count := by
    rw [shiftRight_mantissa, log2_div_two_pow]
  rw [result]
  refine ⟨?_, ⟨?_, ?_, ?_⟩, ?_⟩
  · rw [shiftRight_mantissa]
    exact Nat.div_pos ((Nat.pow_le_pow_right two_pos bits).trans
      (Nat.log2_self_le positive.ne')) (Nat.two_pow_pos count)
  all_goals
    dsimp only
    omega

/-- What has digits enough is rounded to a double, with its first digit where it was or higher. -/
theorem roundWithAccuracy_eq (sign : Sign) (mantissa : Nat) (exponent : Int)
    (wide : 52 ≤ mantissa.log2) (large : -1074 ≤ mantissa.log2 + exponent) :
    ∃ (rounded : Nat) (place : Int) (positive : 0 < rounded),
      roundWithAccuracy Format.binary64 sign mantissa exponent .exact =
        .finite sign rounded place positive ∧ Canonical rounded place ∧
      mantissa.log2 + exponent ≤ rounded.log2 + place := by
  have positive : 0 < mantissa := by
    rcases Nat.eq_zero_or_pos mantissa with rfl | positive
    · exact absurd wide (by decide)
    · exact positive
  have first := shiftToTargetExponent_shifted exponent positive (by omega) large
  unfold roundWithAccuracy
  generalize shiftToTargetExponent Format.binary64 mantissa exponent .exact = shifted at first ⊢
  obtain ⟨extended, place⟩ := shifted
  obtain ⟨positive', canonical, digit⟩ := first
  dsimp only at positive' canonical digit ⊢
  have rounds := le_roundedMantissa extended
  have higher := log2_mono rounds
  have second := shiftToTargetExponent_shifted place (positive'.trans_le rounds)
    (by have := canonical.full; omega) (by omega)
  generalize shiftToTargetExponent Format.binary64 extended.roundedMantissa place .exact =
    settled at second ⊢
  rw [dif_neg second.positive.ne']
  exact ⟨_, _, second.positive, rfl, second.canonical, by have := second.digit; omega⟩

/-! ### Storing a double -/

theorem unpack_pack_infinity (sign : Sign) :
    (Float.Model.pack (.infinity sign)).unpack = .infinity sign := by
  cases sign <;> rfl

theorem unpack_pack_zero (sign : Sign) : (Float.Model.pack (.zero sign)).unpack = .zero sign := by
  cases sign <;> rfl

theorem ofBitVec_unpackSign (sign : Sign) (exponent : BitVec 11) (mantissa : BitVec 52) :
    Sign.ofBitVec (@unpackSign Format.binary64
      (packComponents Format.binary64 sign exponent mantissa)) = sign := by
  have same : @unpackSign Format.binary64
      (packComponents Format.binary64 sign exponent mantissa) = sign.toBitVec := by
    ext index small
    obtain rfl := Nat.lt_one_iff.mp small
    show ((sign.toBitVec ++ exponent ++ mantissa : BitVec (1 + 11 + 52)).extractLsb 63 63)[0] = _
    rw [BitVec.getElem_extract, BitVec.getLsbD_append, BitVec.getLsbD_append]
    exact BitVec.getLsbD_eq_getElem small
  rw [same]
  cases sign <;> rfl

/-- The implicit first digit of a normal double. -/
theorem toNat_one_append (mantissa : BitVec 52) :
    (1#1 ++ mantissa).toNat = 2 ^ 52 + mantissa.toNat := by
  rw [BitVec.toNat_append, ← Nat.shiftLeft_add_eq_or_of_lt mantissa.isLt]
  rfl

/-- A stored exponent in the middle of its range is the one of a normal double. -/
theorem unpack_normal (sign : Sign) (exponent : BitVec 11) (mantissa : BitVec 52)
    (finite : exponent ≠ -1#11) (normal : exponent ≠ 0#11) :
    ∃ positive, UnpackedFloat.unpack Format.binary64
      (packComponents Format.binary64 sign exponent mantissa) =
        .finite sign (1#1 ++ mantissa).toNat ((exponent.toNat : Int) - 1075) positive := by
  refine ⟨by rw [toNat_one_append]; positivity, ?_⟩
  unfold UnpackedFloat.unpack
  simp only [unpackExponent_packComponents, finite, if_false, normal, unpackMantissa_packComponents,
    ofBitVec_unpackSign]
  rfl

theorem unpack_subnormal (sign : Sign) (mantissa : BitVec 52) (nonzero : mantissa ≠ 0#52) :
    ∃ positive, UnpackedFloat.unpack Format.binary64
      (packComponents Format.binary64 sign 0#11 mantissa) =
        .finite sign mantissa.toNat (-1074) positive := by
  refine ⟨by simpa [BitVec.toNat_pos, BitVec.pos_iff_ne_zero] using nonzero, ?_⟩
  unfold UnpackedFloat.unpack
  simp only [unpackExponent_packComponents, unpackMantissa_packComponents, ofBitVec_unpackSign,
    nonzero, dite_false]
  rfl

/-- A canonical double is stored as it is, or overflows. -/
theorem unpack_pack_finite (sign : Sign) {mantissa : Nat} {exponent : Int}
    (positive : 0 < mantissa) (canonical : Canonical mantissa exponent) :
    (Float.Model.pack (.finite sign mantissa exponent positive)).unpack =
        .finite sign mantissa exponent positive ∨
      (Float.Model.pack (.finite sign mantissa exponent positive)).unpack = .infinity sign := by
  obtain ⟨bits, least, full⟩ := canonical
  obtain ⟨biased, stored⟩ : ∃ biased : Nat, (biased : Int) = exponent + 1075 :=
    ⟨_, Int.toNat_of_nonneg (by omega)⟩
  have code : (exponent + (Format.binary64.exponentBias : Int) + ((52 : Nat) : Int)).toNat =
      biased := by
    have bias : Format.binary64.exponentBias = 1023 := rfl
    omega
  unfold Float.Model.pack Float.Model.unpack UnpackedFloat.pack
  dsimp only
  rw [code]
  split
  · exact Or.inr (unpack_pack_infinity sign)
  next finite =>
    refine Or.inl ?_
    split
    next normal =>
      have whole : (BitVec.ofNat 11 biased).toNat = biased := by
        rw [BitVec.toNat_ofNat, Nat.mod_eq_of_lt (by omega)]
      have digits : mantissa.log2 = 52 := Nat.succ.inj normal
      have low := Nat.log2_self_le positive.ne'
      have high := Nat.lt_log2_self (n := mantissa)
      rw [digits] at low high
      have rest : 2 ^ 52 + (BitVec.ofNat 52 mantissa).toNat = mantissa := by
        rw [BitVec.toNat_ofNat]
        omega
      obtain ⟨_, unpacks⟩ := unpack_normal sign (BitVec.ofNat 11 biased)
        (BitVec.ofNat 52 mantissa)
        (fun last => by
          have last := congrArg BitVec.toNat last
          rw [whole] at last
          exact absurd (last.trans (by decide : _ = 2047)) (by omega))
        (fun first => by
          have first := congrArg BitVec.toNat first
          rw [whole] at first
          exact absurd (first.trans (by decide : _ = 0)) (by omega))
      refine unpacks.trans ?_
      rw [UnpackedFloat.finite.injEq, toNat_one_append, whole]
      exact ⟨rfl, rest, by omega⟩
    next subnormal =>
      have digits : mantissa.log2 < 52 := by
        have : mantissa.log2 + 1 ≠ 53 := subnormal
        omega
      have small := (Nat.log2_lt positive.ne').mp digits
      have whole : (BitVec.ofNat 52 mantissa).toNat = mantissa := by
        rw [BitVec.toNat_ofNat, Nat.mod_eq_of_lt small]
      obtain ⟨_, unpacks⟩ := unpack_subnormal sign (BitVec.ofNat 52 mantissa)
        (fun zero => by
          have zero := congrArg BitVec.toNat zero
          rw [whole] at zero
          exact absurd (zero.trans (by decide : _ = 0)) positive.ne')
      refine unpacks.trans ?_
      rw [UnpackedFloat.finite.injEq]
      exact ⟨rfl, whole, by omega⟩

/-- What is stored has an exponent a double can have. -/
theorem least_unpack {value : Float.Model} {sign : Sign} {mantissa : Nat} {exponent : Int}
    {positive : 0 < mantissa} (unpacks : value.unpack = .finite sign mantissa exponent positive) :
    -1074 ≤ exponent := by
  unfold Float.Model.unpack UnpackedFloat.unpack at unpacks
  dsimp only at unpacks
  have bias : Format.binary64.exponentBias = 1023 := rfl
  split at unpacks
  · split at unpacks <;> cases unpacks
  split at unpacks
  next zero =>
    split at unpacks
    · cases unpacks
    · rw [UnpackedFloat.finite.injEq] at unpacks
      omega
  next nonzero =>
    rw [UnpackedFloat.finite.injEq] at unpacks
    have stored : (@unpackExponent Format.binary64 value.toBits.toBitVec).toNat ≠ 0 :=
      fun zero => nonzero (BitVec.eq_of_toNat_eq zero)
    have exponent := unpacks.2.2
    omega

/-! ### Counts as doubles -/

/-- A count as the double nearest to it. -/
def ofCount (count : Nat) : Float := .ofModel (.ofNat count)

/-- A positive count is a double of at least one. -/
theorem unpack_ofCount {count : Nat} (positive : 0 < count) :
    (ofCount count).toModel.unpack = .infinity .positive ∨
      ∃ (mantissa : Nat) (exponent : Int) (positive : 0 < mantissa),
        (ofCount count).toModel.unpack = .finite .positive mantissa exponent positive ∧
          mantissa.log2 = 52 ∧ 0 ≤ mantissa.log2 + exponent := by
  have above : compare (count : Int) 0 = .gt := by
    rw [compare_gt_iff_gt]
    omega
  obtain ⟨shift, widens⟩ : ∃ shift : Nat,
      (0 - max ((count.log2 : Int) + 0 - 52) (-1074)).toNat = shift := ⟨_, rfl⟩
  have widened : UnpackedFloat.ofNat Format.binary64 count =
      roundWithAccuracy Format.binary64 .positive (count <<< shift) (-shift) .exact := by
    unfold UnpackedFloat.ofNat UnpackedFloat.ofInt UnpackedFloat.normalize
    rw [above]
    dsimp only
    unfold UnpackedFloat.round decreaseExponent
    rw [Int.toNat_natCast, targetExponent_eq]
    dsimp only
    rw [widens, zero_sub]
  have digits : count.log2 + shift ≤ (count <<< shift).log2 := by
    have shifted : 0 < count <<< shift := by
      rw [Nat.shiftLeft_eq]
      positivity
    rw [Nat.le_log2 shifted.ne', Nat.shiftLeft_eq, Nat.pow_add]
    exact Nat.mul_le_mul_right _ (Nat.log2_self_le positive.ne')
  obtain ⟨rounded, place, positive', rounds, canonical, digit⟩ :=
    roundWithAccuracy_eq .positive (count <<< shift) (-shift) (by omega) (by omega)
  have stored := unpack_pack_finite .positive positive' canonical
  unfold ofCount Float.Model.ofNat
  rw [widened, rounds]
  refine stored.elim (fun same => Or.inr ⟨rounded, place, positive', same, ?_, by omega⟩) Or.inl
  have := canonical.full
  have := canonical.bits
  omega

/-! ### The sign of a product -/

theorem lt_iff {first second : Float} : first < second ↔
    first.toModel.unpack.compare second.toModel.unpack = some .lt := by
  show decide (first.toModel < second.toModel) = true ↔ _
  rw [decide_eq_true_eq]
  exact beq_iff_eq

theorem le_of_compare {first second : Float} {order : Ordering}
    (compares : first.toModel.unpack.compare second.toModel.unpack = some order)
    (below : order.isLE = true) : first ≤ second := by
  show decide (first.toModel ≤ second.toModel) = true
  rw [decide_eq_true_eq]
  show (first.toModel.unpack.compare second.toModel.unpack).any (·.isLE) = true
  rw [compares]
  exact below

theorem unpack_zero : (0 : Float).toModel.unpack = .zero .positive := by rfl

/-- The sign of a double; what is no number has none. -/
def signOf : UnpackedFloat → Option SignType
  | .notANumber => none
  | .zero _ => some 0
  | .infinity .positive => some 1
  | .infinity .negative => some (-1)
  | .finite .positive .. => some 1
  | .finite .negative .. => some (-1)

theorem zero_lt_iff {value : Float} : 0 < value ↔ signOf value.toModel.unpack = some 1 := by
  rw [lt_iff, unpack_zero]
  cases value.toModel.unpack with
  | finite sign | infinity sign => cases sign <;> simp [UnpackedFloat.compare, signOf]
  | zero sign | notANumber => simp [UnpackedFloat.compare, signOf]

theorem lt_zero_iff {value : Float} : value < 0 ↔ signOf value.toModel.unpack = some (-1) := by
  rw [lt_iff, unpack_zero]
  cases value.toModel.unpack with
  | finite sign | infinity sign => cases sign <;> simp [UnpackedFloat.compare, signOf]
  | zero sign | notANumber => simp [UnpackedFloat.compare, signOf]

/-- A double that is finite and not below zero is a zero or a positive mantissa. -/
theorem unpack_of_nonneg {value : Float} (finite : value.isFinite = true) (nonneg : ¬ value < 0) :
    (∃ sign, value.toModel.unpack = .zero sign) ∨
      ∃ (mantissa : Nat) (exponent : Int) (positive : 0 < mantissa),
        value.toModel.unpack = .finite .positive mantissa exponent positive := by
  rw [lt_zero_iff] at nonneg
  replace finite : value.toModel.unpack.isFinite = true := finite
  cases unpacks : value.toModel.unpack with
  | zero sign => exact Or.inl ⟨sign, rfl⟩
  | notANumber | infinity => rw [unpacks] at finite; cases finite
  | finite sign mantissa exponent positive =>
    cases sign with
    | positive => exact Or.inr ⟨mantissa, exponent, positive, rfl⟩
    | negative => rw [unpacks] at nonneg; exact absurd rfl nonneg

theorem unpack_mul (first second : Float) : (first * second).toModel.unpack =
    (Float.Model.pack
      (mul Format.binary64 first.toModel.unpack second.toModel.unpack)).unpack := rfl

/-- A product of a positive double and a positive count does not vanish. -/
theorem signOf_mul_ofCount {value : Float} {count mantissa : Nat} {exponent : Int}
    {positive : 0 < mantissa} (counted : 0 < count)
    (unpacks : value.toModel.unpack = .finite .positive mantissa exponent positive) :
    signOf (value * ofCount count).toModel.unpack = some 1 := by
  rw [unpack_mul, unpacks]
  obtain infinite | ⟨digits, place, positive', finite, full, digit⟩ := unpack_ofCount counted
  · rw [infinite]
    exact congrArg signOf (unpack_pack_infinity .positive)
  · rw [finite]
    have product : mantissa.log2 + digits.log2 ≤ (mantissa * digits).log2 := by
      rw [Nat.le_log2 (Nat.mul_pos positive positive').ne', Nat.pow_add]
      exact Nat.mul_le_mul (Nat.log2_self_le positive.ne') (Nat.log2_self_le positive'.ne')
    have least := least_unpack unpacks
    obtain ⟨rounded, place', positive'', rounds, canonical, -⟩ :=
      roundWithAccuracy_eq .positive (mantissa * digits) (exponent + place) (by omega)
        (by omega)
    show signOf (Float.Model.pack (roundWithAccuracy Format.binary64 .positive (mantissa * digits)
      (exponent + place) .exact)).unpack = some 1
    rw [rounds]
    rcases unpack_pack_finite .positive positive'' canonical with same | overflow
    · rw [same]
      rfl
    · rw [overflow]
      rfl

theorem signOf_zero_mul {value : Float} {sign : Sign} (factor : Float)
    (unpacks : value.toModel.unpack = .zero sign) :
    signOf (value * factor).toModel.unpack ≠ some 1 ∧
      signOf (value * factor).toModel.unpack ≠ some (-1) := by
  have vanishes : ∀ sign, signOf (Float.Model.pack (.zero sign)).unpack = some 0 := fun sign =>
    congrArg signOf (unpack_pack_zero sign)
  have undefined : signOf (Float.Model.pack .notANumber).unpack = none := by rfl
  rw [unpack_mul, unpacks]
  cases factor.toModel.unpack with
  | infinity | notANumber => exact undefined ▸ ⟨nofun, nofun⟩
  | zero other | finite other => exact vanishes (sign * other) ▸ ⟨by decide, by decide⟩

/-- A count times a double that is not below zero is above zero with it, and never below. -/
theorem mul_ofCount {value : Float} {count : Nat} (finite : value.isFinite = true)
    (nonneg : ¬ value < 0) (counted : 0 < count) :
    (0 < value * ofCount count ↔ 0 < value) ∧ ¬ value * ofCount count < 0 := by
  rw [zero_lt_iff, zero_lt_iff, lt_zero_iff]
  rcases unpack_of_nonneg finite nonneg with ⟨sign, zero⟩ | ⟨mantissa, exponent, positive, unpacks⟩
  · obtain ⟨notAbove, notBelow⟩ := signOf_zero_mul (ofCount count) zero
    refine ⟨iff_of_false notAbove ?_, notBelow⟩
    rw [zero]
    exact (by decide : some (0 : SignType) ≠ some 1)
  · have above := signOf_mul_ofCount counted unpacks
    refine ⟨iff_of_true above ?_, ?_⟩
    · rw [unpacks]
      rfl
    · rw [above]
      decide

/-- The tenth of ten is one only after rounding. -/
example : (0.1 : Float) * ofCount 10 = 1 := by decide +kernel

/-- What is below zero is below zeros and positive doubles. -/
theorem compare_of_negative {low high : UnpackedFloat} (negative : signOf high = some (-1))
    (nonneg : signOf low = some 0 ∨ signOf low = some 1) : high.compare low = some .lt := by
  cases high with
  | zero | notANumber => cases negative
  | infinity sign | finite sign =>
    cases sign with
    | positive => exact absurd negative (by decide : some (1 : SignType) ≠ some (-1))
    | negative =>
      cases low with
      | zero => rfl
      | notANumber => exact nonneg.elim nofun nofun
      | infinity sign | finite sign =>
        cases sign with
        | positive => rfl
        | negative =>
          exact nonneg.elim (fun same => absurd same (by decide : some (-1 : SignType) ≠ some 0))
            fun same => absurd same (by decide : some (-1 : SignType) ≠ some 1)

/-- A double above a finite one that is not below zero is not below zero either. -/
theorem nonneg_of_not_le {low high : Float} (finite : low.isFinite = true)
    (nonneg : ¬ low < 0) (above : ¬ high ≤ low) : ¬ high < 0 := by
  intro below
  refine above (le_of_compare (compare_of_negative (lt_zero_iff.mp below) ?_) rfl)
  rcases unpack_of_nonneg finite nonneg with ⟨sign, zero⟩ | ⟨mantissa, exponent, positive, unpacks⟩
  · rw [zero]
    exact Or.inl rfl
  · rw [unpacks]
    exact Or.inr rfl

end Binary64
