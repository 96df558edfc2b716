/-
The line store under a memory image. A backend keeps whole lines under their
base addresses; everything above it only loads, stores and asks for the line
size and the capacity.

What the image relies on is stated as laws, and the sparse backend, the default
one, is shown to obey them.
-/

import HbmSim.Data

namespace HbmSim

/-! ### The interface -/

class MemoryBackend (β : Type) where
  /-- `make_memory_backend` for the line size and the capacity. -/
  make : Nat → Nat → Except Exception β
  lineSize : β → Nat
  capacityBytes : β → Nat
  load : β → Nat → Except Exception (Option BackendLine)
  /-- Store a line; the flag says whether the base was unallocated. -/
  store : β → Nat → BackendLine → Except Exception (Bool × β)

/-- A line the backend can hold: the line size, and masks of `0` and `0xff` only. -/
structure BackendLine.Fits (line : BackendLine) (lineSize : Nat) : Prop where
  bytes : line.bytes.length = lineSize
  mask : line.initializedMask.length = lineSize
  canonical : ∀ byte ∈ line.initializedMask, byte = 0 ∨ byte = 0xff

/-- The laws the image relies on: a new backend is empty, a stored line is what is loaded
back, and storing touches no other line. -/
class LawfulMemoryBackend (β : Type) [MemoryBackend β] : Prop where
  make_ok (lineSize capacity : Nat) (backend : β) :
    MemoryBackend.make lineSize capacity = .ok backend →
      0 < lineSize ∧ MemoryBackend.lineSize backend = lineSize ∧
        ∀ base found, MemoryBackend.load backend base = .ok found → found = none
  store_ok (backend : β) (base : Nat) (line : BackendLine) (inserted : Bool) (after : β) :
    MemoryBackend.store backend base line = .ok (inserted, after) →
      MemoryBackend.lineSize after = MemoryBackend.lineSize backend ∧
        (line.Fits (MemoryBackend.lineSize backend) →
          MemoryBackend.load after base = .ok (some line)) ∧
        ∀ other, other ≠ base → MemoryBackend.load after other = MemoryBackend.load backend other

/-! ### The sparse backend -/

structure SparseMemoryBackend where
  lineSize : Nat
  capacityBytes : Nat
  lines : AList (fun _ : Nat => BackendLine) := ∅
  reverse : AList (fun _ : StorageKey => Nat) := ∅
  uniqueWrittenLines : Nat := 0

def validateLine (base : Nat) (line : BackendLine) (lineSize capacityBytes : Nat) :
    Except Exception Unit := do
  throwIf (base % lineSize ≠ 0)
    (invalidArgument "memory backend address is not line aligned")
  throwIf (line.bytes.length ≠ lineSize ∨ line.initializedMask.length ≠ lineSize)
    (invalidArgument "memory backend line has incorrect payload or init-mask size")
  throwIf (capacityBytes ≠ 0 ∧ (capacityBytes ≤ base ∨ capacityBytes - base < lineSize))
    (outOfRange "memory backend address exceeds configured capacity")

namespace SparseMemoryBackend

def load (backend : SparseMemoryBackend) (base : Nat) :
    Except Exception (Option BackendLine) :=
  .ok (backend.lines.lookup base)

def store (backend : SparseMemoryBackend) (base : Nat) (line : BackendLine) :
    Except Exception (Bool × SparseMemoryBackend) := do
  validateLine base line backend.lineSize backend.capacityBytes
  let previous := backend.lines.lookup base
  let wasWritten := previous.any fun line => decide (0 < line.version)
  let isWritten := decide (0 < line.version)
  let reverse := match previous with
    | some line => backend.reverse.erase line.storageKey
    | none => backend.reverse
  return (previous.isNone, { backend with
    lines := backend.lines.insert base line
    reverse := reverse.insert line.storageKey base
    uniqueWrittenLines :=
      if !wasWritten && isWritten then backend.uniqueWrittenLines + 1
      else if wasWritten && !isWritten then backend.uniqueWrittenLines - 1
      else backend.uniqueWrittenLines })

def allocatedLines (backend : SparseMemoryBackend) : Nat := backend.lines.entries.length

def allAddresses (backend : SparseMemoryBackend) : List Nat := backend.lines.keys.mergeSort

def clear (backend : SparseMemoryBackend) : SparseMemoryBackend :=
  { backend with lines := ∅, reverse := ∅, uniqueWrittenLines := 0 }

/-- There is nothing to write back. -/
def flush (backend : SparseMemoryBackend) : SparseMemoryBackend := backend

end SparseMemoryBackend

instance : MemoryBackend SparseMemoryBackend where
  make lineSize capacityBytes := do
    throwIf (lineSize = 0) (invalidArgument "memory backend line_size must be > 0")
    return { lineSize, capacityBytes }
  lineSize := SparseMemoryBackend.lineSize
  capacityBytes := SparseMemoryBackend.capacityBytes
  load := SparseMemoryBackend.load
  store := SparseMemoryBackend.store

instance : LawfulMemoryBackend SparseMemoryBackend where
  make_ok lineSize capacity backend made := by
    obtain ⟨_, positive, returned⟩ := bind_eq_ok.mp made
    rw [throwIf_eq_ok] at positive
    cases returned
    refine ⟨Nat.pos_of_ne_zero positive, rfl, fun base found loaded => ?_⟩
    cases loaded
    rfl
  store_ok backend base line inserted after stored := by
    obtain ⟨_, -, returned⟩ := bind_eq_ok.mp stored
    cases returned
    refine ⟨rfl, fun _ => ?_, fun other differs => ?_⟩
    · exact congrArg Except.ok (AList.lookup_insert backend.lines)
    · exact congrArg Except.ok (AList.lookup_insert_ne differs)

end HbmSim
