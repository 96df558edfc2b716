/-
The binary checkpoint. A file has a header and one entry for each line: its address,
its length, its bytes and its mask. A load checks the header, drops all the image
holds and stores the entries as it reads them; so a file that goes wrong behind its
header leaves the entries in front of the place where it goes wrong.

A load returns the image also where it throws. The file comes as its bytes, or as
nothing when it cannot be opened.
-/

import HbmSim.Image
import HbmSim.Lib.LittleEndian

namespace HbmSim

/-! ### Backends that can be listed and cleared -/

class CheckpointBackend (β : Type) extends MemoryBackend β where
  allAddresses : β → List Nat
  allocatedLines : β → Nat
  clear : β → β

/-- The line has the bytes, and its mask is set in the same places. A backend may keep a mask as
bits. -/
structure BackendLine.Keeps (line : BackendLine) (bytes mask : ByteVector) : Prop where
  bytes : line.bytes = bytes
  mask : line.initializedMask.map (· != 0) = mask.map (· != 0)

/-- The laws the checkpoint relies on: a cleared backend is empty, and a stored line keeps its
bytes and its mask. -/
class LawfulCheckpointBackend (β : Type) [CheckpointBackend β] : Prop
    extends LawfulMemoryBackend β where
  clear_ok (backend : β) :
    MemoryBackend.lineSize (CheckpointBackend.clear backend) = MemoryBackend.lineSize backend ∧
      MemoryBackend.capacityBytes (CheckpointBackend.clear backend) =
        MemoryBackend.capacityBytes backend ∧
      ∀ base found, MemoryBackend.load (CheckpointBackend.clear backend) base = .ok found →
        found = none
  store_keeps (backend : β) (base : Nat) (line : BackendLine) (inserted : Bool) (after : β) :
    MemoryBackend.store backend base line = .ok (inserted, after) →
      ∃ kept, MemoryBackend.load after base = .ok (some kept) ∧
        kept.Keeps line.bytes line.initializedMask

instance : CheckpointBackend SparseMemoryBackend where
  allAddresses := SparseMemoryBackend.allAddresses
  allocatedLines := SparseMemoryBackend.allocatedLines
  clear := SparseMemoryBackend.clear

instance : LawfulCheckpointBackend SparseMemoryBackend where
  clear_ok backend := by
    refine ⟨rfl, rfl, fun base found loads => ?_⟩
    cases loads
    rfl
  store_keeps backend base line inserted after stores := by
    obtain ⟨_, -, returned⟩ := bind_eq_ok.mp stores
    cases returned
    exact ⟨line, congrArg Except.ok (AList.lookup_insert backend.lines), rfl, rfl⟩

/-! ### Reading a file -/

namespace Checkpoint

/-- `"HBMS"`. -/
def binaryMagic : Nat := 0x534D4248

def binaryVersion : Nat := 1

/-- A number as its width in the file can hold it. -/
def asUint32 (value : Nat) : Nat := value % 2 ^ 32

/-- `read_le`: a number at the front of the input, and the rest. -/
def readLe (width : Nat) (input : ByteVector) : Except Exception (Nat × ByteVector) :=
  if input.length < width then
    .error (runtimeError "binary memory image: unexpected end of file")
  else .ok (LittleEndian.decode (input.take width), input.drop width)

/-- The header: how many entries follow, and the rest of the input. -/
def readHeader (path : String) (lineSize : Nat) (input : ByteVector) :
    Except Exception (Nat × ByteVector) := do
  let (magic, input) ← readLe 4 input
  let (version, input) ← readLe 4 input
  let (fileLineSize, input) ← readLe 4 input
  let (entryCount, input) ← readLe 4 input
  let (_, input) ← readLe 4 input
  throwIf (magic ≠ binaryMagic)
    (runtimeError ("binary memory image has invalid magic number: " ++ path))
  throwIf (version ≠ binaryVersion)
    (runtimeError ("binary memory image version mismatch: expected " ++ toString binaryVersion ++
      ", got " ++ toString version))
  throwIf (fileLineSize ≠ asUint32 lineSize)
    (runtimeError ("binary memory image line_size mismatch: file=" ++ toString fileLineSize ++
      " current=" ++ toString lineSize))
  return (entryCount, input)

structure Entry where
  base : Nat
  bytes : ByteVector
  initializedMask : ByteVector
  deriving DecidableEq, Repr

def readEntry (lineSize index : Nat) (input : ByteVector) :
    Except Exception (Entry × ByteVector) := do
  let (base, input) ← readLe 8 input
  let (dataLen, input) ← readLe 4 input
  throwIf (dataLen ≠ asUint32 lineSize)
    (runtimeError ("binary memory image entry " ++ toString index ++ " data_len mismatch: entry=" ++
      toString dataLen ++ " expected=" ++ toString lineSize))
  throwIf (input.length < dataLen + dataLen)
    (runtimeError ("binary memory image: failed to read entry " ++ toString index ++
      " at address 0x" ++ String.ofList (Nat.toDigits 16 base)))
  let entry : Entry := {
    base
    bytes := input.take dataLen
    initializedMask := (input.drop dataLen).take dataLen }
  return (entry, input.drop (dataLen + dataLen))

/-- The entries of a file, and what is behind them. -/
def readEntries (lineSize : Nat) : Nat → Nat → ByteVector →
    Except Exception (List Entry × ByteVector)
  | 0, _, input => .ok ([], input)
  | count + 1, index, input => do
    let (entry, input) ← readEntry lineSize index input
    let (entries, rest) ← readEntries lineSize count (index + 1) input
    return (entry :: entries, rest)

end Checkpoint

/-! ### Loading -/

namespace MemoryImage

open Checkpoint

variable {β : Type}

/-- Where an entry lies; without a spec only its address is known. -/
def restoredPhysical (image : MemoryImage β) (base : Nat) : Except Exception PhysicalAddress :=
  match image.spec with
  | some _ => image.physicalAddress base none
  | none => .ok { logicalLineBase := base }

/-- The block an entry becomes. -/
def restoredBlock (image : MemoryImage β) (entry : Entry) : Except Exception DataBlock := do
  let physical ← image.restoredPhysical entry.base
  return {
    bytes := entry.bytes
    byteMask := List.replicate entry.bytes.length 0xff
    initializedMask := entry.initializedMask
    initialized := allMasked entry.initializedMask
    checksum := checksumBytes entry.bytes
    physical
    storageKey := keyFromPhysical physical }

variable [CheckpointBackend β]

def restoreEntry (image : MemoryImage β) (entry : Entry) :
    Except Exception Unit × MemoryImage β :=
  match image.restoredBlock entry with
  | .error error => (.error error, image)
  | .ok block =>
    let (block, counters) := refreshEccShadow image.options block image.counters
    let image := image.account counters image.nextVersion
    match image.storeBackendLine entry.base block with
    | .error error => (.error error, image)
    | .ok image => (.ok (), image)

/-- Store the entries one by one as they are read. -/
def loadEntries : Nat → Nat → MemoryImage β → ByteVector → Except Exception Unit × MemoryImage β
  | 0, _, image, _ => (.ok (), image)
  | count + 1, index, image, input =>
    match readEntry image.lineSize index input with
    | .error error => (.error error, image)
    | .ok (entry, rest) =>
      match image.restoreEntry entry with
      | (.error error, image) => (.error error, image)
      | (.ok _, image) => loadEntries count (index + 1) image rest

/-- The image without a line or an open row. -/
def cleared (image : MemoryImage β) : MemoryImage β :=
  { image with backend := CheckpointBackend.clear image.backend, rowBuffers := ∅ }

/-- `load_binary`. -/
def loadBinary (image : MemoryImage β) (path : String) (file : Option ByteVector) :
    Except Exception Unit × MemoryImage β :=
  match file with
  | none =>
    (.error (runtimeError ("failed to open binary memory image input: " ++ path)), image)
  | some input =>
    match readHeader path image.lineSize input with
    | .error error => (.error error, image)
    | .ok (entryCount, body) => loadEntries entryCount 0 image.cleared body

end MemoryImage

/-! ### What a load that throws leaves -/

namespace Checkpoint

/-- Magic number, version, line size, number of entries and flags. -/
def header (lineSize entryCount : Nat) : ByteVector :=
  LittleEndian.encode 4 binaryMagic ++ LittleEndian.encode 4 binaryVersion ++
    LittleEndian.encode 4 lineSize ++ LittleEndian.encode 4 entryCount ++ LittleEndian.encode 4 0

def Entry.encoded (entry : Entry) : ByteVector :=
  LittleEndian.encode 8 entry.base ++ LittleEndian.encode 4 entry.bytes.length ++ entry.bytes ++
    entry.initializedMask

/-- The last entry of a line. -/
def latest (entries : List Entry) (base : Nat) : Option Entry :=
  entries.reverse.find? fun entry => entry.base = base

theorem latest_concat (entries : List Entry) (entry : Entry) (base : Nat) :
    latest (entries ++ [entry]) base = if entry.base = base then some entry
      else latest entries base := by
  unfold latest
  rw [List.reverse_append, List.reverse_singleton, List.singleton_append, List.find?_cons]
  by_cases here : entry.base = base
  · rw [if_pos here, decide_eq_true here]
  · rw [if_neg here, decide_eq_false here]

/-- The backend holds the lines of the entries, each as its last entry has it, and no other. -/
structure Restored {β : Type} [MemoryBackend β] (entries : List Entry) (backend : β) :
    Prop where
  there {base : Nat} {entry : Entry} : latest entries base = some entry →
    ∃ line, MemoryBackend.load backend base = .ok (some line) ∧
      line.Keeps entry.bytes entry.initializedMask
  only {base : Nat} {found : Option BackendLine} : latest entries base = none →
    MemoryBackend.load backend base = .ok found → found = none

/-- The entry at the front of the input cannot be read, or the image it comes to rejects it. -/
def Fails {β : Type} [CheckpointBackend β] (lineSize index : Nat) (input : ByteVector)
    (error : Exception) (after : MemoryImage β) : Prop :=
  readEntry lineSize index input = .error error ∨
    ∃ entry rest, readEntry lineSize index input = .ok (entry, rest) ∧
      ∃ before : MemoryImage β, before.backend = after.backend ∧
        before.restoreEntry entry = (.error error, after)

section Loads

variable {β : Type} [CheckpointBackend β] [LawfulCheckpointBackend β]
variable {image after : MemoryImage β} {entry : Entry} {entries : List Entry}

omit [CheckpointBackend β] [LawfulCheckpointBackend β] in
theorem restoredBlock_kept {block : DataBlock} (returns : image.restoredBlock entry = .ok block) :
    block.bytes = entry.bytes ∧ block.initializedMask = entry.initializedMask := by
  unfold MemoryImage.restoredBlock at returns
  obtain ⟨physical, -, returned⟩ := bind_eq_ok.mp returns
  cases returned
  exact ⟨rfl, rfl⟩

theorem refreshEccShadow_mask (options : StorageModelOptions) (block : DataBlock)
    (counters : EccCounters) :
    (refreshEccShadow options block counters).1.initializedMask = block.initializedMask := by
  unfold refreshEccShadow
  split <;> rfl

omit [LawfulCheckpointBackend β] in
/-- An entry that is rejected changes no line. -/
theorem restoreEntry_error {error : Exception}
    (throws : image.restoreEntry entry = (.error error, after)) :
    after.backend = image.backend ∧ after.rowBuffers = image.rowBuffers := by
  unfold MemoryImage.restoreEntry at throws
  split at throws
  · cases throws
    exact ⟨rfl, rfl⟩
  · dsimp only at throws
    split at throws
    · cases throws
      exact ⟨rfl, rfl⟩
    · cases throws

/-- An entry that is stored adds its line and keeps every other. -/
theorem restoreEntry_ok {value : Unit} (returns : image.restoreEntry entry = (.ok value, after))
    (restored : Restored entries image.backend) :
    after.lineSize = image.lineSize ∧ after.rowBuffers = image.rowBuffers ∧
      Restored (entries ++ [entry]) after.backend := by
  unfold MemoryImage.restoreEntry at returns
  split at returns
  · cases returns
  next block isBlock =>
  dsimp only at returns
  split at returns
  · cases returns
  next next stores =>
  cases returns
  obtain ⟨⟨inserted, backend⟩, stored, returned⟩ := bind_eq_ok.mp stores
  cases returned
  obtain ⟨bytes, mask⟩ := restoredBlock_kept isBlock
  obtain ⟨-, -, others⟩ := LawfulMemoryBackend.store_ok _ _ _ _ _ stored
  obtain ⟨line, loaded, keeps⟩ := LawfulCheckpointBackend.store_keeps _ _ _ _ _ stored
  have kept : line.Keeps entry.bytes entry.initializedMask := by
    refine ⟨?_, ?_⟩
    · rw [keeps.bytes, ← bytes]
      exact refreshEccShadow_bytes _ _ _
    · rw [keeps.mask, ← mask]
      exact congrArg _ (refreshEccShadow_mask _ _ _)
  refine ⟨rfl, rfl, ?_, ?_⟩
  · intro base last isLast
    rw [latest_concat] at isLast
    split at isLast
    next here =>
      cases isLast
      subst here
      exact ⟨line, loaded, kept⟩
    next elsewhere =>
      obtain ⟨line, loads, keeps⟩ := restored.there isLast
      exact ⟨line, (others _ (Ne.symm elsewhere)).trans loads, keeps⟩
  · intro base found isNone loads
    rw [latest_concat] at isNone
    split at isNone
    · cases isNone
    next elsewhere =>
      exact restored.only isNone ((others _ (Ne.symm elsewhere)).symm.trans loads)

/-- The entries in front of the one that goes wrong are stored. -/
theorem loadEntries_error {count index : Nat} {input : ByteVector} {error : Exception}
    (throws : image.loadEntries count index input = (.error error, after))
    (restored : Restored entries image.backend) :
    ∃ more rest, readEntries image.lineSize more.length index input = .ok (more, rest) ∧
      more.length < count ∧ Fails image.lineSize (index + more.length) rest error after ∧
      after.rowBuffers = image.rowBuffers ∧ Restored (entries ++ more) after.backend := by
  induction count generalizing index image input entries with
  | zero => cases throws
  | succ count inductionHypothesis =>
    unfold MemoryImage.loadEntries at throws
    split at throws
    next reads =>
      cases throws
      refine ⟨[], input, rfl, Nat.succ_pos count, .inl reads, rfl, ?_⟩
      rwa [List.append_nil]
    next entry rest reads =>
    split at throws
    next restores =>
      cases throws
      obtain ⟨sameBackend, sameRows⟩ := restoreEntry_error restores
      refine ⟨[], input, rfl, Nat.succ_pos count, ?_, sameRows, ?_⟩
      · exact .inr ⟨entry, rest, reads, image, sameBackend.symm, restores⟩
      · rwa [List.append_nil, sameBackend]
    next middle restores =>
      obtain ⟨sameSize, sameRows, stored⟩ := restoreEntry_ok restores restored
      obtain ⟨more, tail, readsMore, fewer, fails, rows, final⟩ :=
        inductionHypothesis throws stored
      rw [sameSize] at readsMore fails
      refine ⟨entry :: more, tail, ?_, Nat.succ_lt_succ fewer, ?_, rows.trans sameRows, ?_⟩
      · show readEntries image.lineSize (more.length + 1) index input = _
        unfold readEntries
        rw [reads]
        show (readEntries image.lineSize more.length (index + 1) rest >>= _) = _
        rw [readsMore]
        rfl
      · rwa [List.length_cons, ← Nat.add_right_comm, Nat.add_assoc] at *
      · rwa [List.append_assoc, List.singleton_append] at final

/-- A load that goes through stores every entry. -/
theorem loadEntries_ok {count index : Nat} {input : ByteVector} {value : Unit}
    (returns : image.loadEntries count index input = (.ok value, after))
    (restored : Restored entries image.backend) :
    ∃ more rest, readEntries image.lineSize count index input = .ok (more, rest) ∧
      after.lineSize = image.lineSize ∧ after.rowBuffers = image.rowBuffers ∧
      Restored (entries ++ more) after.backend := by
  induction count generalizing index image input entries with
  | zero =>
    cases returns
    exact ⟨[], input, rfl, rfl, rfl, by rwa [List.append_nil]⟩
  | succ count inductionHypothesis =>
    unfold MemoryImage.loadEntries at returns
    split at returns
    · cases returns
    next entry rest reads =>
    split at returns
    · cases returns
    next middle restores =>
      obtain ⟨sameSize, sameRows, stored⟩ := restoreEntry_ok restores restored
      obtain ⟨more, tail, readsMore, size, rows, final⟩ := inductionHypothesis returns stored
      rw [sameSize] at readsMore
      refine ⟨entry :: more, tail, ?_, size.trans sameSize, rows.trans sameRows, ?_⟩
      · unfold readEntries
        rw [reads]
        show (readEntries image.lineSize count (index + 1) rest >>= _) = _
        rw [readsMore]
        rfl
      · rwa [List.append_assoc, List.singleton_append] at final

/-- After a load that goes through the image holds the lines of the file and no open row. -/
theorem loadBinary_success {path : String} {file : Option ByteVector} {value : Unit}
    (returns : image.loadBinary path file = (.ok value, after)) :
    ∃ input entryCount body entries rest, file = some input ∧
      readHeader path image.lineSize input = .ok (entryCount, body) ∧
      readEntries image.lineSize entryCount 0 body = .ok (entries, rest) ∧
      after.lineSize = image.lineSize ∧ after.rowBuffers = ∅ ∧ Restored entries after.backend := by
  unfold MemoryImage.loadBinary at returns
  split at returns
  · cases returns
  next input =>
  split at returns
  · cases returns
  next entryCount body checks =>
  have empty : Restored [] image.cleared.backend := by
    refine ⟨(fun isSome => nomatch isSome), fun _ loads => ?_⟩
    exact (LawfulCheckpointBackend.clear_ok image.backend).2.2 _ _ loads
  obtain ⟨entries, rest, reads, size, rows, restored⟩ := loadEntries_ok returns empty
  exact ⟨input, entryCount, body, entries, rest, rfl, checks, reads, size, rows, restored⟩

/-- A load that throws on the file or its header leaves the image as it is. One that throws on an
entry leaves no open row, and the lines of the entries in front of that one. -/
theorem loadBinary_failure {path : String} {file : Option ByteVector} {error : Exception}
    (throws : image.loadBinary path file = (.error error, after)) :
    (after = image ∧ ∀ input, file = some input →
        readHeader path image.lineSize input = .error error) ∨
      ∃ input entryCount body entries rest, file = some input ∧
        readHeader path image.lineSize input = .ok (entryCount, body) ∧
        entries.length < entryCount ∧
        readEntries image.lineSize entries.length 0 body = .ok (entries, rest) ∧
        Fails image.lineSize entries.length rest error after ∧
        after.rowBuffers = ∅ ∧ Restored entries after.backend := by
  unfold MemoryImage.loadBinary at throws
  split at throws
  · cases throws
    exact .inl ⟨rfl, fun input isInput => nomatch isInput⟩
  next input =>
  split at throws
  next checks =>
    cases throws
    refine .inl ⟨rfl, fun other same => ?_⟩
    cases same
    exact checks
  next entryCount body checks =>
  have empty : Restored [] image.cleared.backend := by
    refine ⟨(fun isSome => nomatch isSome), fun _ loads => ?_⟩
    exact (LawfulCheckpointBackend.clear_ok image.backend).2.2 _ _ loads
  obtain ⟨entries, rest, reads, fewer, fails, rows, restored⟩ := loadEntries_error throws empty
  rw [Nat.zero_add] at fails
  exact .inr ⟨input, entryCount, body, entries, rest, rfl, checks, fewer, reads, fails, rows,
    restored⟩

end Loads

/-- An image of four-byte lines, loaded from a file with a line at `0`. -/
def loadedImage : MemoryImage SparseMemoryBackend :=
  let blank : MemoryImage SparseMemoryBackend :=
    { lineSize := 4, backend := { lineSize := 4, capacityBytes := 0 } }
  (blank.loadBinary "image.bin"
    (some (header 4 1 ++ Entry.encoded ⟨0, [1, 2, 3, 4], [255, 255, 255, 255]⟩))).2

/-- A file whose header announces one entry more than the file has. -/
def shortFile : ByteVector :=
  header 4 2 ++ Entry.encoded ⟨8, [5, 6, 7, 8], [255, 255, 0, 0]⟩

def shortLoad : Except Exception Unit × MemoryImage SparseMemoryBackend :=
  loadedImage.loadBinary "short.bin" (some shortFile)

theorem shortLoad_throws :
    shortLoad = (.error (runtimeError "binary memory image: unexpected end of file"), shortLoad.2) :=
  Prod.ext (by decide +kernel) rfl

theorem loadBinary_failure_short :
    (shortLoad.2 = loadedImage ∧ ∀ input, some shortFile = some input →
        readHeader "short.bin" loadedImage.lineSize input =
          .error (runtimeError "binary memory image: unexpected end of file")) ∨
      ∃ input entryCount body entries rest, some shortFile = some input ∧
        readHeader "short.bin" loadedImage.lineSize input = .ok (entryCount, body) ∧
        entries.length < entryCount ∧
        readEntries loadedImage.lineSize entries.length 0 body = .ok (entries, rest) ∧
        Fails loadedImage.lineSize entries.length rest
          (runtimeError "binary memory image: unexpected end of file") shortLoad.2 ∧
        shortLoad.2.rowBuffers = ∅ ∧ Restored entries shortLoad.2.backend :=
  loadBinary_failure shortLoad_throws

/-- The load that throws has dropped the line the image held and stored another one. -/
theorem failed_load_replaces :
    ∃ error, shortLoad.1 = .error error ∧
      ((loadedImage.backend.lines.lookup 0).isSome ∧ shortLoad.2.backend.lines.lookup 0 = none) ∧
      loadedImage.backend.lines.lookup 8 = none ∧
      (shortLoad.2.backend.lines.lookup 8).map (·.bytes) = some [5, 6, 7, 8] := by
  refine ⟨_, congrArg Prod.fst shortLoad_throws, ⟨?_, ?_⟩, ?_, ?_⟩
  · decide +kernel
  · exact Option.isNone_iff_eq_none.mp (by decide +kernel)
  · exact Option.isNone_iff_eq_none.mp (by decide +kernel)
  · decide +kernel

end Checkpoint

end HbmSim
