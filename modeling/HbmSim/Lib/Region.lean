/-
Regions of cells, as a file, a mapping of it or a buffer holds them: what is past
the end reads as blank, and writing past the end grows the region.
-/

import Mathlib

structure Region (Cell : Type) where
  size : Nat
  cell : Nat → Cell

namespace Region

variable {Cell : Type}

/-- A region of blank cells. -/
def blank [Inhabited Cell] (size : Nat) : Region Cell := ⟨size, fun _ => default⟩

/-- Copy a part of a region into a buffer. -/
def read [Inhabited Cell] (region : Region Cell) (offset size : Nat) : Region Cell where
  size := size
  cell index :=
    if offset + index < region.size then region.cell (offset + index) else default

/-- Write a buffer over a part of a region. -/
def write (region : Region Cell) (offset : Nat) (buffer : Region Cell) : Region Cell where
  size := if buffer.size = 0 then region.size else max region.size (offset + buffer.size)
  cell index :=
    if offset ≤ index ∧ index < offset + buffer.size then buffer.cell (index - offset)
    else region.cell index

/-- Write a list of cells in place. -/
def blit (region : Region Cell) (offset : Nat) (cells : List Cell) : Region Cell :=
  { region with
    cell := fun index =>
      if offset ≤ index then (cells[index - offset]?).getD (region.cell index)
      else region.cell index }

/-- Write one cell in place. -/
def put (region : Region Cell) (index : Nat) (value : Cell) : Region Cell :=
  { region with cell := Function.update region.cell index value }

/-- A part of a region as a list. -/
def slice (region : Region Cell) (offset size : Nat) : List Cell :=
  (List.range size).map fun index => region.cell (offset + index)

variable {region buffer : Region Cell} {offset size index start : Nat} {cells : List Cell}

theorem read_cell [Inhabited Cell] (inside : offset + index < region.size) :
    (region.read offset size).cell index = region.cell (offset + index) := if_pos inside

/-- A write inside a region does not change its size. -/
theorem write_size (inside : offset + buffer.size ≤ region.size) :
    (region.write offset buffer).size = region.size := by
  unfold write
  dsimp only
  split
  · rfl
  · exact max_eq_left inside

theorem write_inside (after : offset ≤ index) (before : index < offset + buffer.size) :
    (region.write offset buffer).cell index = buffer.cell (index - offset) :=
  if_pos ⟨after, before⟩

theorem write_outside (elsewhere : index < offset ∨ offset + buffer.size ≤ index) :
    (region.write offset buffer).cell index = region.cell index :=
  if_neg fun inside => by omega

theorem slice_congr {other : Region Cell} {place : Nat}
    (same : ∀ index < size, other.cell (place + index) = region.cell (offset + index)) :
    other.slice place size = region.slice offset size :=
  List.map_congr_left fun index member => same index (List.mem_range.mp member)

/-- What is written is read back. -/
theorem slice_blit (region : Region Cell) (offset : Nat) (cells : List Cell) :
    (region.blit offset cells).slice offset cells.length = cells := by
  unfold slice
  refine List.ext_getElem (by rw [List.length_map, List.length_range]) fun index _ inside => ?_
  rw [List.getElem_map, List.getElem_range]
  unfold blit
  dsimp only
  rw [if_pos (Nat.le_add_right ..), Nat.add_sub_cancel_left, List.getElem?_eq_getElem inside,
    Option.getD_some]

/-- A run of cells beside the written one is as before. -/
theorem slice_blit_of_disjoint (apart : start + size ≤ offset ∨ offset + cells.length ≤ start) :
    (region.blit offset cells).slice start size = region.slice start size := by
  refine slice_congr fun index inside => ?_
  unfold blit
  dsimp only
  split
  next after =>
    rw [List.getElem?_eq_none (by omega), Option.getD_none]
  · rfl

end Region
