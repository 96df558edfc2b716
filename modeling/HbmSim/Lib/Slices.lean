/-
Cutting a list into slices of one size. The slices at the multiples of a size, the
last one possibly short, put together give the list back, and so do their lengths.
-/

import Mathlib

namespace Slices

variable {Item : Type}

/-- The part of a list of the given length, or what there is of it, from an offset on. -/
def slice (items : List Item) (offset size : Nat) : List Item := (items.drop offset).take size

/-- How many slices of a size a total takes. -/
def pieces (total size : Nat) : Nat := 1 + (total - 1) / size

/-- The length of the slice of a total at an index. -/
def pieceSize (total size index : Nat) : Nat := min size (total - index * size)

section Pieces

variable {total size index : Nat}

theorem pieces_eq_ceil (some : 0 < total) (positive : 0 < size) :
    pieces total size = (total + size - 1) / size := by
  unfold pieces
  rw [Nat.add_comm, ← Nat.add_div_right _ positive]
  congr 1
  omega

theorem offset_lt (some : 0 < total) (inside : index < pieces total size) :
    index * size < total := by
  have small : index ≤ (total - 1) / size := by
    unfold pieces at inside
    omega
  calc index * size ≤ (total - 1) / size * size := Nat.mul_le_mul_right size small
    _ ≤ total - 1 := Nat.div_mul_le_self _ _
    _ < total := Nat.sub_lt some Nat.zero_lt_one

theorem total_le_pieces (positive : 0 < size) : total ≤ pieces total size * size := by
  have whole := Nat.div_add_mod' (total - 1) size
  have rest := Nat.mod_lt (total - 1) positive
  unfold pieces
  rw [Nat.add_mul, Nat.one_mul]
  omega

theorem sum_pieceSize (total size count : Nat) :
    ((List.range count).map (pieceSize total size)).sum = min (count * size) total := by
  induction count with
  | zero =>
    rw [Nat.zero_mul, Nat.zero_min]
    rfl
  | succ count inductionHypothesis =>
    rw [List.range_succ, List.map_append, List.sum_append, inductionHypothesis, Nat.succ_mul]
    simp only [pieceSize, List.map_cons, List.map_nil, List.sum_cons, List.sum_nil]
    omega

/-- The slices in front of one reach up to its offset. -/
theorem sum_before (some : 0 < total) (inside : index < pieces total size) :
    ((List.range index).map (pieceSize total size)).sum = index * size := by
  rw [sum_pieceSize]
  exact Nat.min_eq_left (Nat.le_of_lt (offset_lt some inside))

theorem sum_all (positive : 0 < size) :
    ((List.range (pieces total size)).map (pieceSize total size)).sum = total := by
  rw [sum_pieceSize]
  exact Nat.min_eq_right (total_le_pieces positive)

theorem pieceSize_pos (some : 0 < total) (positive : 0 < size)
    (inside : index < pieces total size) : 0 < pieceSize total size index := by
  have offset := offset_lt some inside
  unfold pieceSize
  omega

end Pieces

theorem flatMap_slice (items : List Item) (size count : Nat) :
    (List.range count).flatMap (fun index => slice items (index * size) size) =
      items.take (count * size) := by
  induction count with
  | zero =>
    rw [Nat.zero_mul]
    rfl
  | succ count inductionHypothesis =>
    rw [List.range_succ, List.flatMap_append, inductionHypothesis, Nat.succ_mul, List.take_add,
      List.flatMap_singleton]
    rfl

/-- A slice as long as the list allows is a slice of the whole size. -/
theorem slice_pieceSize (items : List Item) (size index : Nat) :
    slice items (index * size) (pieceSize items.length size index) =
      slice items (index * size) size := by
  unfold slice pieceSize
  refine List.take_eq_take_iff.mpr ?_
  rw [List.length_drop]
  omega

/-- The slices of a list put together are the list. -/
theorem flatMap_pieces {items : List Item} {size : Nat} (positive : 0 < size) :
    (List.range (pieces items.length size)).flatMap
      (fun index => slice items (index * size) (pieceSize items.length size index)) = items := by
  simp only [slice_pieceSize]
  rw [flatMap_slice]
  exact List.take_of_length_le (total_le_pieces positive)

theorem slice_ne_nil {items : List Item} {size index : Nat} (some : 0 < items.length)
    (positive : 0 < size) (inside : index < pieces items.length size) :
    slice items (index * size) (pieceSize items.length size index) ≠ [] := by
  have offset := offset_lt some inside
  have length := pieceSize_pos some positive inside
  refine List.ne_nil_of_length_pos ?_
  unfold slice
  rw [List.length_take, List.length_drop]
  omega

end Slices
