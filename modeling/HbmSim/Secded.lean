/-
The SECDED shadow of a line: one Hamming word and one overall parity bit over
the line's data bits. Data bits sit at the positions that are not powers of two,
and the overall parity is taken over the data bits and the Hamming word together.

The file places every data bit, bounds the places by the width of the Hamming
word, and says what flipping one data bit does to the shadow: the Hamming word
changes by the bit's position, and the overall parity changes exactly when that
position has an even number of set bits.
-/

import HbmSim.Data
import HbmSim.Lib.Parity

namespace HbmSim

open Parity

/-! ### The code -/

def isPowerOfTwoU64 (value : Nat) : Bool := decide (value ≠ 0 ∧ value &&& (value - 1) = 0)

def byteBit (bytes : ByteVector) (bit : Nat) : Bool :=
  match bytes[bit / 8]? with
  | some byte => byte.toNat.testBit (bit % 8)
  | none => false

def flipByteBit (bytes : ByteVector) (bit : Nat) : ByteVector :=
  bytes.modify (bit / 8) fun byte => byte ^^^ UInt8.ofNat (1 <<< (bit % 8))

def parityBitsSearch (dataBits : Nat) : Nat → Nat → Nat
  | 0, parityBits => parityBits
  | fuel + 1, parityBits =>
    if 2 ^ parityBits < dataBits + parityBits + 1 then parityBitsSearch dataBits fuel (parityBits + 1)
    else parityBits

/-- The smallest positive width whose Hamming word covers the data bits and itself. The
loop of the source is unbounded; `dataBits` steps suffice. -/
def parityBitsForDataBits (dataBits : Nat) : Nat := parityBitsSearch dataBits dataBits 1

def codePositionSearch (dataBit : Nat) : Nat → Nat → Nat → Nat
  | 0, _, codePos => codePos
  | fuel + 1, dataSeen, codePos =>
    if isPowerOfTwoU64 codePos then codePositionSearch dataBit fuel dataSeen (codePos + 1)
    else if dataSeen = dataBit then codePos
    else codePositionSearch dataBit fuel (dataSeen + 1) (codePos + 1)

/-- The Hamming position of a data bit: the `dataBit`-th position that is not a power of
two. The loop of the source is unbounded; `2 * dataBit + 3` steps suffice. -/
def codePositionForDataBit (dataBit : Nat) : Nat :=
  codePositionSearch dataBit (2 * dataBit + 3) 0 1

def dataBitSearch (codePosition dataBits : Nat) : Nat → Nat → Nat → Option Nat
  | 0, _, _ => none
  | fuel + 1, dataSeen, codePos =>
    if dataBits ≤ dataSeen then none
    else if isPowerOfTwoU64 codePos then
      dataBitSearch codePosition dataBits fuel dataSeen (codePos + 1)
    else if codePos = codePosition then some dataSeen
    else dataBitSearch codePosition dataBits fuel (dataSeen + 1) (codePos + 1)

/-- The data bit at a Hamming position, if the position carries one of the line's bits. -/
def dataBitForCodePosition (codePosition dataBits : Nat) : Option Nat :=
  dataBitSearch codePosition dataBits (2 * dataBits + 3) 0 1

structure SecdedShadow where
  hamming : Nat := 0
  overall : Bool := false
  parityBits : Nat := 0
  deriving DecidableEq, Repr

/-- Fold one code position into the Hamming word, parity bit by parity bit. -/
def foldPosition (parityBits codePos hamming : Nat) : Nat :=
  (List.range parityBits).foldl
    (fun hamming parity =>
      if codePos &&& (1 <<< parity) ≠ 0 then hamming ^^^ (1 <<< parity) else hamming)
    hamming

def computeSecdedShadow (bytes : ByteVector) : SecdedShadow :=
  let dataBits := bytes.length * 8
  let parityBits := parityBitsForDataBits dataBits
  let scanned := (List.range dataBits).foldl
    (fun (scanned : Nat × Bool) bit =>
      if byteBit bytes bit then
        (foldPosition parityBits (codePositionForDataBit bit) scanned.1, !scanned.2)
      else scanned)
    (0, false)
  let overall := (List.range parityBits).foldl
    (fun overall parity => if scanned.1 &&& (1 <<< parity) ≠ 0 then !overall else overall)
    scanned.2
  { hamming := scanned.1, overall, parityBits }

/-! ### Where the data bits sit -/

theorem isPowerOfTwoU64_iff (value : Nat) : isPowerOfTwoU64 value = true ↔ value.isPowerOfTwo := by
  unfold isPowerOfTwoU64
  rw [decide_eq_true_iff]
  exact Nat.ne_zero_and_sub_one_eq_zero_iff_isPowerOfTwo

theorem count_dataPosition_succ {position : Nat} (positive : 0 < position) :
    Nat.count DataPosition (position + 1) =
      Nat.count DataPosition position + if isPowerOfTwoU64 position then 0 else 1 := by
  rw [Nat.count_succ]
  by_cases power : isPowerOfTwoU64 position = true
  · have notData : ¬ DataPosition position :=
      fun data => data.2 ((isPowerOfTwoU64_iff position).mp power)
    rw [if_neg notData, if_pos power]
  · have data : DataPosition position :=
      ⟨positive, fun isPower => power ((isPowerOfTwoU64_iff position).mpr isPower)⟩
    rw [if_pos data, if_neg power]

/-- The search finds the `dataBit`-th data position: it passes every earlier one on the way,
and the steps last until there. -/
theorem codePositionSearch_eq_nth (dataBit fuel codePos : Nat) (positive : 0 < codePos)
    (notPast : Nat.count DataPosition codePos ≤ dataBit)
    (enough : Nat.nth DataPosition dataBit < codePos + fuel) :
    codePositionSearch dataBit fuel (Nat.count DataPosition codePos) codePos =
      Nat.nth DataPosition dataBit := by
  induction fuel generalizing codePos with
  | zero =>
    have reached : dataBit < Nat.count DataPosition codePos := by
      rw [← Nat.count_nth_of_infinite dataPosition_infinite dataBit]
      have atPosition := Nat.nth_mem_of_infinite dataPosition_infinite dataBit
      calc Nat.count DataPosition (Nat.nth DataPosition dataBit)
          < Nat.count DataPosition (Nat.nth DataPosition dataBit + 1) := by
            rw [Nat.count_succ, if_pos atPosition]
            omega
        _ ≤ Nat.count DataPosition codePos := Nat.count_monotone DataPosition (by omega)
    omega
  | succ fuel inductionHypothesis =>
    have next := count_dataPosition_succ positive
    rw [codePositionSearch]
    by_cases power : isPowerOfTwoU64 codePos = true
    · simp only [power, if_true, Nat.add_zero] at next
      rw [if_pos power, ← next]
      exact inductionHypothesis (codePos + 1) (by omega) (by omega) (by omega)
    · have data : DataPosition codePos :=
        ⟨positive, fun isPower => power ((isPowerOfTwoU64_iff codePos).mpr isPower)⟩
      rw [if_neg power] at next
      rw [if_neg power]
      by_cases found : Nat.count DataPosition codePos = dataBit
      · rw [if_pos found, ← found, Nat.nth_count data]
      · rw [if_neg found, ← next]
        exact inductionHypothesis (codePos + 1) (by omega) (by omega) (by omega)

theorem nth_dataPosition_lt (dataBit : Nat) : Nat.nth DataPosition dataBit < 2 * dataBit + 4 := by
  refine Nat.nth_lt_of_lt_count ?_
  have total : Nat.count DataPosition (2 * dataBit + 4) +
      Nat.count Nat.isPowerOfTwo (2 * dataBit + 4) = 2 * dataBit + 3 :=
    count_add_count_isPowerOfTwo (2 * dataBit + 3)
  have few : Nat.count Nat.isPowerOfTwo (2 * dataBit + 4) ≤ dataBit + 2 := by
    have room : 2 * dataBit + 4 ≤ 2 ^ (dataBit + 2) := by
      clear total
      induction dataBit with
      | zero => decide
      | succ dataBit inductionHypothesis =>
        rw [show dataBit + 1 + 2 = dataBit + 2 + 1 from rfl, pow_succ]
        omega
    calc Nat.count Nat.isPowerOfTwo (2 * dataBit + 4)
        ≤ Nat.count Nat.isPowerOfTwo (2 ^ (dataBit + 2)) := Nat.count_monotone _ room
      _ = dataBit + 2 := count_isPowerOfTwo (dataBit + 2)
  omega

/-- Data bit `i` sits at the `i`-th position that is not a power of two. -/
theorem codePositionForDataBit_eq_nth (dataBit : Nat) :
    codePositionForDataBit dataBit = Nat.nth DataPosition dataBit := by
  have atOne : Nat.count DataPosition 1 = 0 := by decide
  have bound := nth_dataPosition_lt dataBit
  have found := codePositionSearch_eq_nth dataBit (2 * dataBit + 3) 1 (by omega)
    (by omega) (by omega)
  rw [atOne] at found
  exact found

theorem codePositionForDataBit_dataPosition (dataBit : Nat) :
    DataPosition (codePositionForDataBit dataBit) := by
  rw [codePositionForDataBit_eq_nth]
  exact Nat.nth_mem_of_infinite dataPosition_infinite dataBit

theorem codePositionForDataBit_strictMono : StrictMono codePositionForDataBit := by
  intro left right below
  rw [codePositionForDataBit_eq_nth, codePositionForDataBit_eq_nth]
  exact Nat.nth_strictMono dataPosition_infinite below

theorem codePositionForDataBit_injective {left right : Nat}
    (same : codePositionForDataBit left = codePositionForDataBit right) : left = right :=
  codePositionForDataBit_strictMono.injective same

/-- The inverse search stops at the position, or runs out of the line's data bits. -/
theorem dataBitSearch_eq (codePosition dataBits fuel codePos : Nat) (positive : 0 < codePos)
    (ahead : DataPosition codePosition → codePos ≤ codePosition)
    (enough : Nat.nth DataPosition dataBits < codePos + fuel) :
    dataBitSearch codePosition dataBits fuel (Nat.count DataPosition codePos) codePos =
      if DataPosition codePosition ∧ Nat.count DataPosition codePosition < dataBits then
        some (Nat.count DataPosition codePosition)
      else none := by
  have exhausted : ∀ codePos, dataBits ≤ Nat.count DataPosition codePos →
      (DataPosition codePosition → codePos ≤ codePosition) →
      none = if DataPosition codePosition ∧ Nat.count DataPosition codePosition < dataBits then
        some (Nat.count DataPosition codePosition) else none := by
    intro codePos past ahead
    rw [if_neg]
    rintro ⟨data, inside⟩
    have order := Nat.count_monotone DataPosition (ahead data)
    omega
  induction fuel generalizing codePos with
  | zero =>
    refine exhausted codePos ?_ ahead
    rw [← Nat.count_nth_of_infinite dataPosition_infinite dataBits]
    exact Nat.count_monotone DataPosition (by omega)
  | succ fuel inductionHypothesis =>
    have next := count_dataPosition_succ positive
    rw [dataBitSearch]
    by_cases past : dataBits ≤ Nat.count DataPosition codePos
    · rw [if_pos past]
      exact exhausted codePos past ahead
    rw [if_neg past]
    by_cases power : isPowerOfTwoU64 codePos = true
    · simp only [power, if_true, Nat.add_zero] at next
      rw [if_pos power, ← next]
      refine inductionHypothesis (codePos + 1) (by omega) (fun data => ?_) (by omega)
      have differs : codePos ≠ codePosition := by
        rintro rfl
        exact data.2 ((isPowerOfTwoU64_iff codePos).mp power)
      have := ahead data
      omega
    · rw [if_neg power] at next
      rw [if_neg power]
      by_cases found : codePos = codePosition
      · have data : DataPosition codePosition := by
          rw [← found]
          exact ⟨positive, fun isPower => power ((isPowerOfTwoU64_iff codePos).mpr isPower)⟩
        rw [if_pos found, if_pos ⟨data, by rw [← found]; omega⟩, found]
      · rw [if_neg found, ← next]
        refine inductionHypothesis (codePos + 1) (by omega) (fun data => ?_) (by omega)
        have := ahead data
        omega

theorem dataBitForCodePosition_eq (codePosition dataBits : Nat) :
    dataBitForCodePosition codePosition dataBits =
      if DataPosition codePosition ∧ Nat.count DataPosition codePosition < dataBits then
        some (Nat.count DataPosition codePosition)
      else none := by
  have atOne : Nat.count DataPosition 1 = 0 := by decide
  have bound := nth_dataPosition_lt dataBits
  have found := dataBitSearch_eq codePosition dataBits (2 * dataBits + 3) 1 (by omega)
    (fun data => data.1) (by omega)
  rw [atOne] at found
  exact found

/-- The inverse search finds exactly the data bits of the line at their positions. -/
theorem dataBitForCodePosition_eq_some_iff (codePosition dataBits dataBit : Nat) :
    dataBitForCodePosition codePosition dataBits = some dataBit ↔
      dataBit < dataBits ∧ codePositionForDataBit dataBit = codePosition := by
  rw [dataBitForCodePosition_eq, codePositionForDataBit_eq_nth]
  constructor
  · intro found
    split at found
    next inside =>
      rw [Option.some_inj] at found
      rw [← found]
      exact ⟨inside.2, Nat.nth_count inside.1⟩
    next => cases found
  · rintro ⟨inside, rfl⟩
    rw [Nat.count_nth_of_infinite dataPosition_infinite, if_pos]
    exact ⟨Nat.nth_mem_of_infinite dataPosition_infinite dataBit, inside⟩

/-! ### The width of the Hamming word -/

theorem parityBitsSearch_spec (dataBits fuel parityBits : Nat)
    (enough : dataBits + (parityBits + fuel) + 1 ≤ 2 ^ (parityBits + fuel)) :
    dataBits + parityBitsSearch dataBits fuel parityBits + 1 ≤
      2 ^ parityBitsSearch dataBits fuel parityBits := by
  induction fuel generalizing parityBits with
  | zero => exact enough
  | succ fuel inductionHypothesis =>
    rw [parityBitsSearch]
    split
    next => exact inductionHypothesis (parityBits + 1) (by
      rwa [show parityBits + 1 + fuel = parityBits + (fuel + 1) by omega])
    next large => omega

theorem parityBitsForDataBits_spec {dataBits : Nat} (positive : 0 < dataBits) :
    dataBits + parityBitsForDataBits dataBits + 1 ≤ 2 ^ parityBitsForDataBits dataBits := by
  refine parityBitsSearch_spec dataBits dataBits 1 ?_
  rcases Nat.lt_or_ge dataBits 2 with one | more
  · have equal : dataBits = 1 := by omega
    rw [equal]
    decide
  · induction dataBits, more using Nat.le_induction with
    | base => decide
    | succ dataBits more inductionHypothesis =>
      have wider := inductionHypothesis (by omega)
      rw [show 1 + (dataBits + 1) = 1 + dataBits + 1 by omega, pow_succ]
      omega

/-- Every data bit of the line sits inside the Hamming word. -/
theorem codePositionForDataBit_lt {dataBit dataBits : Nat} (inside : dataBit < dataBits) :
    codePositionForDataBit dataBit < 2 ^ parityBitsForDataBits dataBits := by
  rw [codePositionForDataBit_eq_nth]
  refine Nat.nth_lt_of_lt_count ?_
  have width := parityBitsForDataBits_spec (Nat.zero_lt_of_lt inside)
  rw [count_dataPosition]
  omega

/-! ### The shadow as two folds -/

theorem foldPosition_eq (parityBits codePos hamming : Nat) :
    foldPosition parityBits codePos hamming = hamming ^^^ codePos % 2 ^ parityBits := by
  rw [← xorWeights_testBit, ← xorWeights_start]
  unfold foldPosition xorWeights
  congr
  funext word bit
  have masked := and_shift_ne_zero codePos bit
  by_cases set : codePos &&& (1 <<< bit) ≠ 0
  · rw [if_pos set, ← masked, decide_eq_true set, if_pos rfl]
  · rw [if_neg set, ← masked, decide_eq_false set, if_neg Bool.false_ne_true]

theorem scan_eq (bytes : ByteVector) (parityBits : Nat) (indices : List Nat)
    (inside : ∀ bit ∈ indices, codePositionForDataBit bit < 2 ^ parityBits) (hamming : Nat)
    (overall : Bool) :
    indices.foldl
        (fun (scanned : Nat × Bool) bit =>
          if byteBit bytes bit then
            (foldPosition parityBits (codePositionForDataBit bit) scanned.1, !scanned.2)
          else scanned)
        (hamming, overall) =
      (xorWeights (byteBit bytes) codePositionForDataBit hamming indices,
        toggles (byteBit bytes) overall indices) := by
  induction indices generalizing hamming overall with
  | nil => rfl
  | cons bit rest inductionHypothesis =>
    have fits := inside bit List.mem_cons_self
    rw [List.foldl_cons, xorWeights_cons, toggles_cons]
    have step := inductionHypothesis fun other member => inside other (List.mem_cons_of_mem _ member)
    by_cases set : byteBit bytes bit = true
    · rw [if_pos set, if_pos set, set, Bool.xor_true, step, foldPosition_eq,
        Nat.mod_eq_of_lt fits]
    · rw [if_neg set, if_neg set, Bool.eq_false_of_not_eq_true set, Bool.xor_false, step]

/-- The Hamming word is the exclusive or of the positions of the set bits. -/
theorem computeSecdedShadow_hamming (bytes : ByteVector) :
    (computeSecdedShadow bytes).hamming =
      xorWeights (byteBit bytes) codePositionForDataBit 0 (List.range (bytes.length * 8)) := by
  unfold computeSecdedShadow
  simp only
  rw [scan_eq]
  exact fun bit member => codePositionForDataBit_lt (List.mem_range.mp member)

/-- The overall parity counts the set data bits and the set bits of the Hamming word. -/
theorem computeSecdedShadow_overall (bytes : ByteVector) :
    (computeSecdedShadow bytes).overall =
      (toggles (byteBit bytes) false (List.range (bytes.length * 8)) ^^
        oddBelow (parityBitsForDataBits (bytes.length * 8)) (computeSecdedShadow bytes).hamming) := by
  rw [computeSecdedShadow_hamming]
  unfold computeSecdedShadow oddBelow
  simp only
  rw [scan_eq _ _ _ fun bit member => codePositionForDataBit_lt (List.mem_range.mp member),
    ← toggles_start]
  unfold toggles
  congr
  funext odd bit
  generalize xorWeights (byteBit bytes) codePositionForDataBit 0 _ = hamming
  have masked := and_shift_ne_zero hamming bit
  by_cases set : hamming &&& (1 <<< bit) ≠ 0
  · rw [if_pos set, ← masked, decide_eq_true set, if_pos rfl]
  · rw [if_neg set, ← masked, decide_eq_false set, if_neg Bool.false_ne_true]

/-! ### Flipping data bits -/

@[simp] theorem flipByteBit_length (bytes : ByteVector) (bit : Nat) :
    (flipByteBit bytes bit).length = bytes.length := by
  unfold flipByteBit
  rw [List.length_modify]

theorem testBit_xor_shift (byte : UInt8) {shift : Nat} (inside : shift < 8) (bit : Nat) :
    (byte ^^^ UInt8.ofNat (1 <<< shift)).toNat.testBit bit =
      (byte.toNat.testBit bit ^^ decide (bit = shift)) := by
  rw [UInt8.toNat_xor, Nat.testBit_xor, UInt8.toNat_ofNat', Nat.one_shiftLeft,
    Nat.mod_eq_of_lt (Nat.pow_lt_pow_right (by omega) inside), Nat.testBit_two_pow]
  congr 1
  rw [decide_eq_decide]
  exact eq_comm

/-- Flipping a bit inside the line flips that bit and no other. -/
theorem byteBit_flipByteBit {bytes : ByteVector} {target : Nat}
    (inside : target < bytes.length * 8) :
    byteBit (flipByteBit bytes target) = flipAt (byteBit bytes) target := by
  funext bit
  unfold byteBit flipByteBit flipAt
  rw [List.getElem?_modify]
  have shift : target % 8 < 8 := Nat.mod_lt _ (by omega)
  have inList : target / 8 < bytes.length := by omega
  have found := List.getElem?_eq_getElem inList
  by_cases sameByte : target / 8 = bit / 8
  · simp only [← sameByte, found, Option.map_eq_map, Option.map_some, if_true]
    rw [testBit_xor_shift _ shift]
    by_cases same : bit = target
    · simp [same]
    · have differs : bit % 8 ≠ target % 8 := by omega
      simp [same, differs]
  · have differs : bit ≠ target := by
      rintro rfl
      exact sameByte rfl
    simp [sameByte, differs]

theorem flipByteBit_flipByteBit (bytes : ByteVector) (bit : Nat) :
    flipByteBit (flipByteBit bytes bit) bit = bytes := by
  unfold flipByteBit
  rw [List.modify_modify_eq]
  have cancel : (fun byte : UInt8 => byte ^^^ UInt8.ofNat (1 <<< (bit % 8))) ∘
      (fun byte : UInt8 => byte ^^^ UInt8.ofNat (1 <<< (bit % 8))) = id := by
    funext byte
    simp only [Function.comp_apply, UInt8.xor_assoc, UInt8.xor_self, UInt8.xor_zero, id_eq]
  rw [cancel]
  exact List.modify_id _ bytes

/-- Flipping one data bit changes the Hamming word by the bit's position. -/
theorem computeSecdedShadow_flip_hamming {bytes : ByteVector} {bit : Nat}
    (inside : bit < bytes.length * 8) :
    (computeSecdedShadow (flipByteBit bytes bit)).hamming =
      (computeSecdedShadow bytes).hamming ^^^ codePositionForDataBit bit := by
  rw [computeSecdedShadow_hamming, computeSecdedShadow_hamming, flipByteBit_length,
    byteBit_flipByteBit inside, xorWeights_flipAt inside]

/-- Flipping one data bit changes the overall parity unless its position has an odd number of
set bits: the position's bits flip as many bits of the Hamming word, which the overall parity
counts too. -/
theorem computeSecdedShadow_flip_overall {bytes : ByteVector} {bit : Nat}
    (inside : bit < bytes.length * 8) :
    (computeSecdedShadow (flipByteBit bytes bit)).overall =
      ((computeSecdedShadow bytes).overall ^^
        !oddBelow (parityBitsForDataBits (bytes.length * 8)) (codePositionForDataBit bit)) := by
  rw [computeSecdedShadow_overall, computeSecdedShadow_overall,
    computeSecdedShadow_flip_hamming inside, flipByteBit_length, byteBit_flipByteBit inside,
    toggles_flipAt inside, oddBelow_xor]
  generalize toggles (byteBit bytes) false _ = data
  generalize oddBelow _ (computeSecdedShadow bytes).hamming = word
  generalize oddBelow _ (codePositionForDataBit bit) = position
  cases data <;> cases word <;> cases position <;> rfl

end HbmSim
