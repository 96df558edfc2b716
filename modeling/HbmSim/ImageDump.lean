/-
Dumps of a memory image, as text and as a binary file. Both walk over the lines of the
backend, address by address, and write what is stored of each; the open rows are not
looked at, so what a row still holds is not in the file.

A dump of an image that is reached goes through: all its lines are placed. A text file
is its lines here, a binary file its bytes.
-/

import HbmSim.PlacedLines

namespace HbmSim

open TextForm (coordinates dumpHeader dumpTextLine parseTextLine)

/-! ### The dumps -/

namespace Checkpoint

/-- What a binary dump writes about a line. -/
def dumpEntry (base : Nat) (block : DataBlock) : ByteVector :=
  let dataLen := asUint32 block.bytes.length
  LittleEndian.encode 8 base ++ LittleEndian.encode 4 dataLen ++ block.bytes.take dataLen ++
    block.initializedMask.take dataLen

end Checkpoint

namespace MemoryImage

variable {β : Type} [CheckpointBackend β]

/-- The loop of a dump: what it writes about each line. -/
def dumpLines {α : Type} (emit : Nat → DataBlock → List α) (image : MemoryImage β) :
    Except Exception (List α) :=
  (CheckpointBackend.allAddresses image.backend).foldlM
    (fun out base => do
      match ← image.loadBackendLine base none with
      | none => return out
      | some block => return out ++ emit base block)
    []

def dumpText (image : MemoryImage β) : Except Exception (List String) := do
  let lines ← image.dumpLines fun base block => [dumpTextLine base block]
  return dumpHeader :: lines

def dumpBinary (image : MemoryImage β) : Except Exception ByteVector := do
  throwIf (2 ^ 32 - 1 < CheckpointBackend.allocatedLines image.backend)
    (runtimeError "binary memory image v1 cannot store more than 2^32-1 lines")
  let entries ← image.dumpLines Checkpoint.dumpEntry
  return Checkpoint.header image.lineSize (CheckpointBackend.allocatedLines image.backend) ++
    entries

/-- One line of a text file with its number. -/
def loadTextStep (image : MemoryImage β) (numbered : String × Nat) :
    Except Exception (MemoryImage β) := do
  match ← parseTextLine numbered.2 numbered.1 with
  | none => return image
  | some line => image.loadTextLine line

def loadText (image : MemoryImage β) (lines : List String) : Except Exception (MemoryImage β) :=
  (lines.zipIdx 1).foldlM loadTextStep image

/-- What a dump finds of a line. -/
def storedBlock (image : MemoryImage β) (base : Nat) : DataBlock :=
  match image.loadBackendLine base none with
  | .ok (some block) => block
  | _ => {}

end MemoryImage

/-! ### A dump goes through -/

variable {β γ : Type} [CheckpointBackend β] [CheckpointBackend γ]
variable {image : MemoryImage β} {target after : MemoryImage γ} {spec : DramSpec} {base : Nat}

/-- What a dump finds of a line that is stored. -/
structure FoundBlock (spec : DramSpec) (line : BackendLine) (block : DataBlock) : Prop where
  bytes : block.bytes = line.bytes
  mask : block.initializedMask = line.initializedMask
  inBounds : (coordinates block.physical).InBounds spec

theorem loadBackendLine_stored {line : BackendLine} (placed : image.Placed spec)
    (loads : MemoryBackend.load image.backend base = .ok (some line)) :
    image.loadBackendLine base none = .ok (some (image.storedBlock base)) ∧
      FoundBlock spec line (image.storedBlock base) := by
  have inBounds := (placed.stored base line loads).inBounds
  have found : image.loadBackendLine base none = .ok (some
      { MemoryImage.blockFromBackendLine image.lineSize line with
        storageKey := line.storageKey
        physical := placement image.lineSize (some spec) image.options base
          (decodedFromStorageKey line.storageKey) }) := by
    unfold MemoryImage.loadBackendLine
    refine bind_eq_ok.mpr ⟨some line, loads, ?_⟩
    refine bind_eq_ok.mpr ⟨line.storageKey, rfl, ?_⟩
    exact bind_eq_ok.mpr ⟨_, physicalAddress_of_spec placed.hasSpec inBounds base, rfl⟩
  have block : image.storedBlock base =
      { MemoryImage.blockFromBackendLine image.lineSize line with
        storageKey := line.storageKey
        physical := placement image.lineSize (some spec) image.options base
          (decodedFromStorageKey line.storageKey) } := by
    unfold MemoryImage.storedBlock
    rw [found]
  rw [found, block]
  exact ⟨rfl, rfl, rfl, inBounds⟩

variable [RestorableBackend β]

theorem storedBlock_found (placed : image.Placed spec)
    (listed : base ∈ CheckpointBackend.allAddresses image.backend) :
    ∃ line, MemoryBackend.load image.backend base = .ok (some line) ∧
      image.loadBackendLine base none = .ok (some (image.storedBlock base)) ∧
      FoundBlock spec line (image.storedBlock base) := by
  obtain ⟨line, loads⟩ := (ListedBackend.mem_allAddresses _ _).mp listed
  exact ⟨line, loads, loadBackendLine_stored placed loads⟩

/-- The loop of a dump writes every line of the backend. -/
theorem dumpLines_eq {α : Type} (emit : Nat → DataBlock → List α) (placed : image.Placed spec) :
    image.dumpLines emit = .ok ((CheckpointBackend.allAddresses image.backend).flatMap fun base =>
      emit base (image.storedBlock base)) := by
  have loop : ∀ (bases : List Nat) (out : List α),
      (∀ base ∈ bases, base ∈ CheckpointBackend.allAddresses image.backend) →
      bases.foldlM (fun out base => do
        match ← image.loadBackendLine base none with
        | none => return out
        | some block => return out ++ emit base block) out =
        (.ok (out ++ bases.flatMap fun base => emit base (image.storedBlock base)) :
          Except Exception (List α)) := by
    intro bases
    induction bases with
    | nil =>
      intro out _
      rw [List.flatMap_nil, List.append_nil]
      rfl
    | cons base rest inductionHypothesis =>
      intro out listed
      obtain ⟨here, later⟩ := List.forall_mem_cons.mp listed
      obtain ⟨line, -, found, -⟩ := storedBlock_found placed here
      rw [List.foldlM_cons]
      refine bind_eq_ok.mpr ⟨out ++ emit base (image.storedBlock base), ?_, ?_⟩
      · exact bind_eq_ok.mpr ⟨_, found, rfl⟩
      · rw [inductionHypothesis _ later, List.flatMap_cons, List.append_assoc]
  exact loop _ [] fun _ member => member

theorem dumpText_eq (placed : image.Placed spec) :
    image.dumpText = .ok (dumpHeader ::
      (CheckpointBackend.allAddresses image.backend).map fun base =>
        dumpTextLine base (image.storedBlock base)) := by
  unfold MemoryImage.dumpText
  refine bind_eq_ok.mpr ⟨_, dumpLines_eq _ placed, ?_⟩
  rw [← List.map_eq_flatMap]
  rfl

theorem dumpBinary_eq (placed : image.Placed spec)
    (few : CheckpointBackend.allocatedLines image.backend < 2 ^ 32) :
    image.dumpBinary = .ok
      (Checkpoint.header image.lineSize (CheckpointBackend.allAddresses image.backend).length ++
        (CheckpointBackend.allAddresses image.backend).flatMap fun base =>
          Checkpoint.dumpEntry base (image.storedBlock base)) := by
  unfold MemoryImage.dumpBinary
  refine bind_eq_ok.mpr ⟨(), throwIf_eq_ok.mpr (by omega), ?_⟩
  refine bind_eq_ok.mpr ⟨_, dumpLines_eq _ placed, ?_⟩
  rw [(RestorableBackend.addresses image.backend).2]
  rfl

end HbmSim
