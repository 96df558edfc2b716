/-
The line stores that live in files: what is on disk, how a line is packed into it,
and the store that maps the files into memory.

The data file holds the bytes of every line in its place, the init file one bit a
byte, the metadata file a header and one record a line, and the presence file two
maps: which lines are stored and which have a version. A slot is the number of a
line. Where the store takes a path it is used in messages only; the four files
are different ones.
-/

import HbmSim.LineTable
import HbmSim.Lib.Bitmap
import HbmSim.Lib.Region

namespace HbmSim

/-! ### What is on disk -/

structure MemoryBackendOptions where
  capacityBytes : Nat := 0
  dataFile : String := ""
  initFile : String := ""
  metaFile : String := ""
  presenceFile : String := ""
  chunkSizeBytes : Nat := 2 * 1024 * 1024
  chunkCacheEntries : Nat := 16

/-- The first two reserved words hold the counters. -/
structure DiskHeader where
  magic : String := ""
  version : Nat := 0
  recordSize : Nat := 0
  lineSize : Nat := 0
  capacityBytes : Nat := 0
  allocatedLines : Nat := 0
  uniqueWrittenLines : Nat := 0
  deriving DecidableEq

/-- The record of a line. The nine coordinates of the storage key are copied as they are. -/
structure DiskLineMeta where
  version : Nat := 0
  lastWriterRequestId : Nat := 0
  lastWriteCycle : Nat := 0
  lastAccessCycle : Nat := 0
  eccHamming : Nat := 0
  eccErrorInjections : Nat := 0
  checksum : UInt32 := 0
  eccParityBits : Nat := 0
  storage : StorageKey := {}
  flags : UInt8 := 0

instance : Inhabited DiskLineMeta := ⟨{}⟩

def diskHeaderBytes : Nat := 64

def diskLineMetaBytes : Nat := 104

def ceilDiv (value divisor : Nat) : Nat :=
  value / divisor + if value % divisor = 0 then 0 else 1

def initializedFlag : UInt8 := 1

def eccOverallFlag : UInt8 := 2

def eccValidFlag : UInt8 := 4

def eccUncorrectableFlag : UInt8 := 8

/-- The flags of a record. -/
def lineFlags (initialized eccOverall eccValid eccUncorrectable : Bool) : UInt8 :=
  (if initialized then initializedFlag else 0) ||| (if eccOverall then eccOverallFlag else 0) |||
    (if eccValid then eccValidFlag else 0) |||
    (if eccUncorrectable then eccUncorrectableFlag else 0)

/-- `encode_meta`. -/
def encodeMeta (line : BackendLine) : DiskLineMeta where
  version := line.version
  lastWriterRequestId := line.lastWriterRequestId
  lastWriteCycle := line.lastWriteCycle
  lastAccessCycle := line.lastAccessCycle
  eccHamming := line.eccHamming
  eccErrorInjections := line.eccErrorInjections
  checksum := line.checksum
  eccParityBits := line.eccParityBits
  storage := line.storageKey
  flags := lineFlags line.initialized line.eccOverall line.eccValid line.eccUncorrectable

/-- `decode_meta`, into a line that has its bytes. -/
def decodeMeta (record : DiskLineMeta) (line : BackendLine) : BackendLine :=
  { line with
    initialized := record.flags &&& initializedFlag != 0
    version := record.version
    lastWriterRequestId := record.lastWriterRequestId
    lastWriteCycle := record.lastWriteCycle
    lastAccessCycle := record.lastAccessCycle
    checksum := record.checksum
    eccHamming := record.eccHamming
    eccOverall := record.flags &&& eccOverallFlag != 0
    eccParityBits := record.eccParityBits
    eccValid := record.flags &&& eccValidFlag != 0
    eccUncorrectable := record.flags &&& eccUncorrectableFlag != 0
    eccErrorInjections := record.eccErrorInjections
    storageKey := record.storage }

theorem lineFlags_bits : ∀ initialized eccOverall eccValid eccUncorrectable : Bool,
    let flags := lineFlags initialized eccOverall eccValid eccUncorrectable
    (flags &&& initializedFlag != 0) = initialized ∧ (flags &&& eccOverallFlag != 0) = eccOverall ∧
      (flags &&& eccValidFlag != 0) = eccValid ∧
      (flags &&& eccUncorrectableFlag != 0) = eccUncorrectable := by
  decide

/-- A record carries everything of a line but its bytes and its mask. -/
theorem decodeMeta_encodeMeta (line : BackendLine) :
    decodeMeta (encodeMeta line)
      { bytes := line.bytes, initializedMask := line.initializedMask } = line := by
  obtain ⟨initialized, eccOverall, eccValid, eccUncorrectable⟩ := lineFlags_bits line.initialized
    line.eccOverall line.eccValid line.eccUncorrectable
  unfold decodeMeta encodeMeta
  rw [initialized, eccOverall, eccValid, eccUncorrectable]

/-! ### Lines in a bank -/

/-- The bytes, the packed mask and the records of consecutive lines. -/
structure LineBank where
  data : Region UInt8
  init : Region UInt8
  records : Region DiskLineMeta

namespace LineBank

/-- The mask of one line, unpacked. -/
def maskOf (bank : LineBank) (lineSize slot : Nat) : ByteVector :=
  (List.range lineSize).map fun index =>
    if Bitmap.isSet bank.init.cell (slot * lineSize + index) then 0xff else 0

def line (bank : LineBank) (lineSize slot : Nat) : BackendLine :=
  decodeMeta (bank.records.cell slot) {
    bytes := bank.data.slice (slot * lineSize) lineSize
    initializedMask := bank.maskOf lineSize slot }

def put (bank : LineBank) (lineSize slot : Nat) (line : BackendLine) : LineBank where
  data := bank.data.blit (slot * lineSize) line.bytes
  init := { bank.init with
    cell := Bitmap.setAll bank.init.cell (slot * lineSize)
      (line.initializedMask.map fun byte => byte != 0) }
  records := bank.records.put slot (encodeMeta line)

/-- Consecutive lines of a bank, as a bank of their own. -/
def read (bank : LineBank) (lineSize first count : Nat) : LineBank where
  data := bank.data.read (first * lineSize) (count * lineSize)
  init := bank.init.read (first * lineSize / 8) (ceilDiv (count * lineSize) 8)
  records := bank.records.read first count

def write (bank : LineBank) (lineSize first : Nat) (chunk : LineBank) : LineBank where
  data := bank.data.write (first * lineSize) chunk.data
  init := bank.init.write (first * lineSize / 8) chunk.init
  records := bank.records.write first chunk.records

def blank (lineSize count : Nat) : LineBank where
  data := Region.blank (count * lineSize)
  init := Region.blank (ceilDiv (count * lineSize) 8)
  records := Region.blank count

/-- The bank has the room of so many lines. -/
structure Sized (bank : LineBank) (lineSize count : Nat) : Prop where
  data : bank.data.size = count * lineSize
  init : bank.init.size = ceilDiv (count * lineSize) 8
  records : bank.records.size = count

variable {bank chunk : LineBank} {lineSize slot other first count total : Nat}
variable {line : BackendLine}

theorem line_congr {bank' : LineBank} {place : Nat}
    (data : bank'.data.slice (place * lineSize) lineSize =
      bank.data.slice (slot * lineSize) lineSize)
    (mask : bank'.maskOf lineSize place = bank.maskOf lineSize slot)
    (record : bank'.records.cell place = bank.records.cell slot) :
    bank'.line lineSize place = bank.line lineSize slot := by
  unfold LineBank.line
  rw [data, mask, record]

theorem maskOf_congr {bank' : LineBank} {place : Nat}
    (same : ∀ index < lineSize, Bitmap.isSet bank'.init.cell (place * lineSize + index) =
      Bitmap.isSet bank.init.cell (slot * lineSize + index)) :
    bank'.maskOf lineSize place = bank.maskOf lineSize slot :=
  List.map_congr_left fun index member => by rw [same index (List.mem_range.mp member)]

/-- The line that is put is read back. -/
theorem line_put_self (fits : line.Fits lineSize) :
    (bank.put lineSize slot line).line lineSize slot = line := by
  have data : (bank.put lineSize slot line).data.slice (slot * lineSize) lineSize = line.bytes := by
    have written := Region.slice_blit bank.data (slot * lineSize) line.bytes
    rwa [fits.bytes] at written
  have mask : (bank.put lineSize slot line).maskOf lineSize slot = line.initializedMask := by
    unfold maskOf put
    dsimp only
    refine List.ext_getElem (by rw [List.length_map, List.length_range, fits.mask])
      fun index _ inside => ?_
    have written : slot * lineSize ≤ slot * lineSize + index ∧ slot * lineSize + index <
        slot * lineSize + line.initializedMask.length :=
      ⟨Nat.le_add_right .., Nat.add_lt_add_left inside _⟩
    have bit : Bitmap.isSet (Bitmap.setAll bank.init.cell (slot * lineSize)
        (line.initializedMask.map fun byte => byte != 0)) (slot * lineSize + index) =
        (line.initializedMask[index] != 0) := by
      rw [Bitmap.isSet_setAll, List.length_map, if_pos written, Nat.add_sub_cancel_left,
        List.getD_eq_getElem _ _ (by rwa [List.length_map]), List.getElem_map]
    rw [List.getElem_map, List.getElem_range, bit]
    rcases fits.canonical _ (List.getElem_mem inside) with zero | full
    · rw [zero]
      rfl
    · rw [full]
      rfl
  have record : (bank.put lineSize slot line).records.cell slot = encodeMeta line :=
    Function.update_self ..
  unfold LineBank.line
  rw [data, mask, record]
  exact decodeMeta_encodeMeta line

/-- Two lines share no byte. -/
theorem slots_apart (lineSize : Nat) (differs : other ≠ slot) :
    other * lineSize + lineSize ≤ slot * lineSize ∨
      slot * lineSize + lineSize ≤ other * lineSize := by
  rw [← Nat.succ_mul, ← Nat.succ_mul]
  rcases Nat.lt_or_gt_of_ne differs with below | above
  · exact Or.inl (Nat.mul_le_mul_right _ below)
  · exact Or.inr (Nat.mul_le_mul_right _ above)

/-- The other lines stay. -/
theorem line_put_ne (bytes : line.bytes.length = lineSize)
    (mask : line.initializedMask.length = lineSize) (differs : other ≠ slot) :
    (bank.put lineSize slot line).line lineSize other = bank.line lineSize other := by
  have apart := slots_apart lineSize differs
  refine line_congr (Region.slice_blit_of_disjoint ?_) (maskOf_congr fun index inside => ?_)
    (Function.update_of_ne differs ..)
  · rwa [bytes]
  · unfold put
    dsimp only
    rw [Bitmap.isSet_setAll, List.length_map, mask, if_neg (by omega)]

theorem le_ceilDiv (value : Nat) : value ≤ ceilDiv value 8 * 8 := by
  unfold ceilDiv
  split <;> omega

theorem ceilDiv_le (value : Nat) : ceilDiv value 8 * 8 < value + 8 := by
  unfold ceilDiv
  split <;> omega

/-- Lines read from a place that starts with a byte are the lines there. -/
theorem line_read (sized : bank.Sized lineSize total) (aligned : 8 ∣ first * lineSize)
    (inside : slot < count) (room : first + count ≤ total) :
    (bank.read lineSize first count).line lineSize slot = bank.line lineSize (first + slot) := by
  have place : (first + slot) * lineSize = first * lineSize + slot * lineSize := Nat.add_mul ..
  have ends : (first + slot) * lineSize + lineSize ≤ total * lineSize := by
    rw [← Nat.succ_mul]
    exact Nat.mul_le_mul_right _ (by omega)
  obtain ⟨byte, starts⟩ := aligned
  have room := le_ceilDiv (total * lineSize)
  refine line_congr (Region.slice_congr fun index small => ?_)
    (maskOf_congr fun index small => ?_) ?_
  · unfold read
    dsimp only
    rw [Region.read_cell (by rw [sized.data]; omega), place, Nat.add_assoc]
  · have shifted := Bitmap.isSet_shift bank.init.cell (first * lineSize / 8)
      (slot * lineSize + index)
    rw [show first * lineSize / 8 * 8 = first * lineSize by omega, ← Nat.add_assoc, ← place]
      at shifted
    rw [← shifted]
    refine Bitmap.isSet_congr (Region.read_cell ?_)
    rw [sized.init]
    omega
  · unfold read
    dsimp only
    rw [Region.read_cell (by rw [sized.records]; omega)]

/-- Lines written from a place that starts with a byte, to one that starts with a byte or to the
end, are the lines there. -/
theorem line_write_inside (chunkSized : chunk.Sized lineSize count) (aligned : 8 ∣ first * lineSize)
    (inside : slot < count) :
    (bank.write lineSize first chunk).line lineSize (first + slot) = chunk.line lineSize slot := by
  have place : (first + slot) * lineSize = first * lineSize + slot * lineSize := Nat.add_mul ..
  have ends : slot * lineSize + lineSize ≤ count * lineSize := by
    rw [← Nat.succ_mul]
    exact Nat.mul_le_mul_right _ inside
  obtain ⟨byte, starts⟩ := aligned
  have room := le_ceilDiv (count * lineSize)
  refine line_congr (Region.slice_congr fun index small => ?_)
    (maskOf_congr fun index small => ?_) ?_
  · unfold write
    dsimp only
    rw [Region.write_inside (by omega) (by rw [chunkSized.data]; omega), place, Nat.add_assoc,
      Nat.add_sub_cancel_left]
  · rw [Bitmap.isSet_eq, Bitmap.isSet_eq, place,
      show (first * lineSize + slot * lineSize + index) % 8 = (slot * lineSize + index) % 8 by omega,
      show (first * lineSize + slot * lineSize + index) / 8 =
        first * lineSize / 8 + (slot * lineSize + index) / 8 by omega]
    unfold write
    dsimp only
    rw [Region.write_inside (Nat.le_add_right ..) (by rw [chunkSized.init]; omega),
      Nat.add_sub_cancel_left]
  · unfold write
    dsimp only
    rw [Region.write_inside (Nat.le_add_right ..) (by rw [chunkSized.records]; omega),
      Nat.add_sub_cancel_left]

theorem line_write_outside (chunkSized : chunk.Sized lineSize count)
    (aligned : 8 ∣ first * lineSize) (ends : 8 ∣ (first + count) * lineSize ∨ slot < first)
    (outside : slot < first ∨ first + count ≤ slot) :
    (bank.write lineSize first chunk).line lineSize slot = bank.line lineSize slot := by
  have apart : slot * lineSize + lineSize ≤ first * lineSize ∨
      (first + count) * lineSize ≤ slot * lineSize ∧ 8 ∣ (first + count) * lineSize := by
    rcases outside with below | above
    · rw [← Nat.succ_mul]
      exact Or.inl (Nat.mul_le_mul_right _ below)
    · exact Or.inr ⟨Nat.mul_le_mul_right _ above, ends.resolve_right (by omega)⟩
  have total : (first + count) * lineSize = first * lineSize + count * lineSize := Nat.add_mul ..
  obtain ⟨byte, starts⟩ := aligned
  have room := ceilDiv_le (count * lineSize)
  refine line_congr (Region.slice_congr fun index small => ?_)
    (maskOf_congr fun index small => ?_) ?_
  · unfold write
    dsimp only
    rw [Region.write_outside (by rw [chunkSized.data]; omega)]
  · refine Bitmap.isSet_congr (Region.write_outside ?_)
    rw [chunkSized.init]
    omega
  · unfold write
    dsimp only
    rw [Region.write_outside (by rw [chunkSized.records]; exact outside)]

theorem Sized.write (sized : bank.Sized lineSize total) (chunkSized : chunk.Sized lineSize count)
    (aligned : 8 ∣ first * lineSize) (room : first + count ≤ total) :
    (bank.write lineSize first chunk).Sized lineSize total := by
  have ends : first * lineSize + count * lineSize ≤ total * lineSize := by
    rw [← Nat.add_mul]
    exact Nat.mul_le_mul_right _ room
  obtain ⟨byte, starts⟩ := aligned
  have within := le_ceilDiv (total * lineSize)
  have slack := ceilDiv_le (count * lineSize)
  refine ⟨?_, ?_, ?_⟩
  · exact (Region.write_size (by rw [chunkSized.data, sized.data]; exact ends)).trans sized.data
  · refine (Region.write_size ?_).trans sized.init
    rw [chunkSized.init, sized.init]
    omega
  · exact (Region.write_size (by rw [chunkSized.records, sized.records]; exact room)).trans
      sized.records

theorem Sized.read (bank : LineBank) (lineSize first count : Nat) :
    (bank.read lineSize first count).Sized lineSize count :=
  ⟨rfl, rfl, rfl⟩

theorem Sized.put (sized : bank.Sized lineSize total) (slot : Nat) (line : BackendLine) :
    (bank.put lineSize slot line).Sized lineSize total :=
  ⟨sized.data, sized.init, sized.records⟩

theorem Sized.blank (lineSize count : Nat) : (LineBank.blank lineSize count).Sized lineSize count :=
  ⟨rfl, rfl, rfl⟩

end LineBank

/-! ### Opening the files -/

/-- The four files of a store. -/
structure BackendFiles where
  bank : LineBank := LineBank.blank 0 0
  header : DiskHeader := {}
  presence : Region UInt8 := Region.blank 0

def maxOffset : Nat := 2 ^ 63 - 1

/-- A new file is sized, an old one must have its size. -/
def openFile (path : String) (size expectedSize : Nat) : Except Exception Unit := do
  if size = 0 then
    throwIf (maxOffset < expectedSize)
      (overflowError ("memory backend file exceeds host off_t range: " ++ path))
  else
    throwIf (size ≠ expectedSize)
      (runtimeError ("memory backend file size mismatch for " ++ path ++ ": expected " ++
        toString expectedSize ++ ", got " ++ toString size))

/-- The region of an opened file. -/
def sizedRegion {Cell : Type} [Inhabited Cell] (region : Region Cell) (size : Nat) : Region Cell :=
  if region.size = 0 then Region.blank size else region

/-- `checked_mul`. -/
def checkedMul (first second : Nat) (what : String) : Except Exception Nat := do
  throwIf (uint64Max < first * second) (overflowError (what ++ " size overflow"))
  return first * second

def sidecarPath (configured dataPath suffix : String) : String :=
  if configured = "" then dataPath ++ suffix else configured

def requireDataPath (options : MemoryBackendOptions) : Except Exception String := do
  throwIf (options.dataFile = "")
    (invalidArgument "file-backed memory backend requires memory_data_file")
  return options.dataFile

def makeHeader (lineSize capacityBytes : Nat) : DiskHeader where
  magic := "HBMBACK"
  version := 3
  recordSize := diskLineMetaBytes
  lineSize := lineSize
  capacityBytes := capacityBytes

def validateHeader (header : DiskHeader) (path : String) (lineSize capacityBytes : Nat) :
    Except Exception Unit :=
  throwIf (header.magic ≠ "HBMBACK" ∨ header.version ≠ 3 ∨
      header.recordSize ≠ diskLineMetaBytes ∨ header.lineSize ≠ lineSize ∨
      header.capacityBytes ≠ capacityBytes)
    (runtimeError ("incompatible memory backend metadata header: " ++ path))

def validateHeaderCounters (header : DiskHeader) (path : String) (lineCount : Nat) :
    Except Exception Unit :=
  throwIf (lineCount < header.allocatedLines ∨ header.allocatedLines < header.uniqueWrittenLines)
    (runtimeError ("invalid memory backend counters in metadata header: " ++ path))

/-- The state both file-backed stores have: their files, and the counters of the header, which
are written back by a flush. -/
structure FileStore where
  lineSize : Nat
  capacityBytes : Nat
  files : BackendFiles
  allocatedLines : Nat := 0
  uniqueWrittenLines : Nat := 0

namespace FileStore

def lineCount (store : FileStore) : Nat := store.capacityBytes / store.lineSize

def presenceBytes (store : FileStore) : Nat := ceilDiv store.lineCount 8

/-- The constructor, on files that are new or old. -/
def «open» (kind : String) (lineSize : Nat) (options : MemoryBackendOptions)
    (files : BackendFiles) : Except Exception FileStore := do
  let capacity := options.capacityBytes
  let lineCount := capacity / lineSize
  let records ← checkedMul lineCount diskLineMetaBytes "metadata"
  let path ← requireDataPath options
  openFile path files.bank.data.size capacity
  openFile (sidecarPath options.initFile path ".init") files.bank.init.size (ceilDiv capacity 8)
  let metaPath := sidecarPath options.metaFile path ".meta"
  let metaSize :=
    if files.bank.records.size = 0 then 0
    else diskHeaderBytes + files.bank.records.size * diskLineMetaBytes
  openFile metaPath metaSize (diskHeaderBytes + records)
  let presenceSize ← checkedMul (ceilDiv lineCount 8) 2 "presence maps"
  openFile (sidecarPath options.presenceFile path ".present") files.presence.size presenceSize
  throwIf (capacity = 0 ∨ capacity % lineSize ≠ 0)
    (invalidArgument (kind ++ " capacity must be a non-zero multiple of line_size"))
  let sized : BackendFiles := { files with
    bank := {
      data := sizedRegion files.bank.data capacity
      init := sizedRegion files.bank.init (ceilDiv capacity 8)
      records := sizedRegion files.bank.records lineCount }
    presence := sizedRegion files.presence presenceSize }
  if metaSize = 0 then
    return {
      lineSize
      capacityBytes := capacity
      files := { sized with header := makeHeader lineSize capacity } }
  else do
    validateHeader files.header metaPath lineSize capacity
    validateHeaderCounters files.header metaPath lineCount
    return {
      lineSize
      capacityBytes := capacity
      files := sized
      allocatedLines := files.header.allocatedLines
      uniqueWrittenLines := files.header.uniqueWrittenLines }

/-- `checked_index`: the slot of a line. -/
def checkedIndex (kind : String) (store : FileStore) (base : Nat) : Except Exception Nat := do
  throwIf (base % store.lineSize ≠ 0 ∨ store.capacityBytes ≤ base ∨
      store.capacityBytes - base < store.lineSize)
    (outOfRange (kind ++ " address exceeds configured capacity"))
  return base / store.lineSize

def isPresent (store : FileStore) (slot : Nat) : Bool :=
  Bitmap.isSet store.files.presence.cell slot

/-- The second map of the presence file starts behind the bytes of the first. -/
def writtenBit (store : FileStore) (slot : Nat) : Nat := store.presenceBytes * 8 + slot

def isWritten (store : FileStore) (slot : Nat) : Bool :=
  Bitmap.isSet store.files.presence.cell (store.writtenBit slot)

/-- Write one bit of the presence file. -/
def setBit (store : FileStore) (bit : Nat) (value : Bool) : FileStore :=
  { store with files := { store.files with presence := { store.files.presence with
      cell := Bitmap.set store.files.presence.cell bit value } } }

def markPresent (store : FileStore) (slot : Nat) : FileStore :=
  if store.isPresent slot then store
  else { store.setBit slot true with allocatedLines := store.allocatedLines + 1 }

def markWritten (store : FileStore) (slot version : Nat) : FileStore :=
  if 0 < version ∧ store.isWritten slot = false then
    { store.setBit (store.writtenBit slot) true with
      uniqueWrittenLines := store.uniqueWrittenLines + 1 }
  else if version = 0 ∧ store.isWritten slot = true then
    { store.setBit (store.writtenBit slot) false with
      uniqueWrittenLines := store.uniqueWrittenLines - 1 }
  else store

/-- The maps and the counters after a line is stored. -/
def mark (store : FileStore) (slot version : Nat) : FileStore :=
  (store.markPresent slot).markWritten slot version

def allAddresses (store : FileStore) : List Nat :=
  (Bitmap.members store.files.presence.cell store.lineCount).map (· * store.lineSize)

/-- The files as a new store has them. -/
def clear (store : FileStore) : FileStore :=
  { store with
    files := {
      bank := {
        data := Region.blank store.capacityBytes
        init := Region.blank (ceilDiv store.capacityBytes 8)
        records := Region.blank store.lineCount }
      header := makeHeader store.lineSize store.capacityBytes
      presence := Region.blank (store.presenceBytes * 2) }
    allocatedLines := 0
    uniqueWrittenLines := 0 }

/-- The counters go to the header. -/
def flush (store : FileStore) : FileStore :=
  { store with files := { store.files with header := { store.files.header with
      allocatedLines := store.allocatedLines
      uniqueWrittenLines := store.uniqueWrittenLines } } }

end FileStore

/-! ### The maps and the counters -/

namespace FileStore

/-- The files have their sizes, the maps and the counters are those of a table of lines, and the
header is the store's own. -/
structure Marks (store : FileStore) (slots : Nat → Option BackendLine) : Prop where
  positive : 0 < store.lineSize
  nonempty : 0 < store.lineCount
  whole : store.capacityBytes = store.lineCount * store.lineSize
  sized : store.files.bank.Sized store.lineSize store.lineCount
  presenceSize : store.files.presence.size = store.presenceBytes * 2
  present : ∀ slot < store.lineCount, store.isPresent slot = (slots slot).isSome
  written : ∀ slot < store.lineCount, store.isWritten slot = hasVersion (slots slot)
  allocated : store.allocatedLines = Slots.count store.lineCount Option.isSome slots
  unique : store.uniqueWrittenLines = Slots.count store.lineCount hasVersion slots
  header : { store.files.header with allocatedLines := 0, uniqueWrittenLines := 0 } =
    makeHeader store.lineSize store.capacityBytes

variable {store : FileStore} {slots : Nat → Option BackendLine} {slot : Nat}

theorem Marks.withBank (marks : store.Marks slots) {bank : LineBank}
    (sized : bank.Sized store.lineSize store.lineCount) :
    FileStore.Marks { store with files := { store.files with bank } } slots :=
  ⟨marks.positive, marks.nonempty, marks.whole, sized, marks.presenceSize, marks.present,
    marks.written, marks.allocated, marks.unique, marks.header⟩

theorem isPresent_setBit (store : FileStore) (bit : Nat) (value : Bool) (slot : Nat) :
    (store.setBit bit value).isPresent slot =
      if slot = bit then value else store.isPresent slot :=
  Bitmap.isSet_set ..

theorem isWritten_setBit (store : FileStore) (bit : Nat) (value : Bool) (slot : Nat) :
    (store.setBit bit value).isWritten slot =
      if store.writtenBit slot = bit then value else store.isWritten slot :=
  Bitmap.isSet_set ..

/-- The two maps share no bit. -/
theorem lt_writtenBit {other : Nat} (inside : slot < store.lineCount) :
    slot < store.writtenBit other := by
  unfold writtenBit presenceBytes
  have room := LineBank.le_ceilDiv store.lineCount
  omega

/-- The same files but for the bits of the maps. -/
structure SameFiles (before after : FileStore) : Prop where
  lineSize : after.lineSize = before.lineSize
  capacityBytes : after.capacityBytes = before.capacityBytes
  bank : after.files.bank = before.files.bank
  header : after.files.header = before.files.header
  presenceSize : after.files.presence.size = before.files.presence.size

theorem SameFiles.refl (store : FileStore) : SameFiles store store := ⟨rfl, rfl, rfl, rfl, rfl⟩

theorem markPresent_same (store : FileStore) (slot : Nat) :
    SameFiles store (store.markPresent slot) ∧
      (store.markPresent slot).uniqueWrittenLines = store.uniqueWrittenLines := by
  unfold markPresent
  split
  · exact ⟨SameFiles.refl store, rfl⟩
  · exact ⟨⟨rfl, rfl, rfl, rfl, rfl⟩, rfl⟩

theorem markPresent_bits (inside : slot < store.lineCount) (other : Nat) :
    (store.markPresent slot).isPresent other = (decide (other = slot) || store.isPresent other) ∧
      (store.markPresent slot).isWritten other = store.isWritten other := by
  have apart : store.writtenBit other ≠ slot := (lt_writtenBit inside).ne'
  unfold markPresent
  split
  next here =>
    refine ⟨?_, rfl⟩
    by_cases same : other = slot
    · rw [same, here, Bool.or_true]
    · rw [decide_eq_false same, Bool.false_or]
  next =>
    refine ⟨(isPresent_setBit ..).trans ?_, (isWritten_setBit ..).trans (if_neg apart)⟩
    by_cases same : other = slot
    · rw [if_pos same, decide_eq_true same, Bool.true_or]
    · rw [if_neg same, decide_eq_false same, Bool.false_or]

theorem markPresent_allocated (store : FileStore) (slot : Nat) :
    (store.markPresent slot).allocatedLines + (store.isPresent slot).toNat =
      store.allocatedLines + 1 := by
  unfold markPresent
  split
  next here => rw [here, Bool.toNat_true]
  next absent =>
    rw [Bool.not_eq_true] at absent
    rw [absent, Bool.toNat_false, Nat.add_zero]

theorem markWritten_same (store : FileStore) (slot version : Nat) :
    SameFiles store (store.markWritten slot version) ∧
      (store.markWritten slot version).allocatedLines = store.allocatedLines := by
  unfold markWritten
  split
  · exact ⟨⟨rfl, rfl, rfl, rfl, rfl⟩, rfl⟩
  split
  · exact ⟨⟨rfl, rfl, rfl, rfl, rfl⟩, rfl⟩
  · exact ⟨SameFiles.refl store, rfl⟩

theorem markWritten_bits (store : FileStore) (slot version : Nat) {other : Nat}
    (inside : other < store.lineCount) :
    (store.markWritten slot version).isPresent other = store.isPresent other ∧
      (store.markWritten slot version).isWritten other =
        if other = slot then decide (0 < version) else store.isWritten other := by
  have apart : other ≠ store.writtenBit slot := (lt_writtenBit inside).ne
  have place : store.writtenBit other = store.writtenBit slot ↔ other = slot :=
    Nat.add_left_cancel_iff
  unfold markWritten
  split
  next first =>
    refine ⟨(isPresent_setBit ..).trans (if_neg apart), (isWritten_setBit ..).trans ?_⟩
    rw [decide_eq_true first.1]
    exact if_congr place rfl rfl
  next notFirst =>
    split
    next gone =>
      refine ⟨(isPresent_setBit ..).trans (if_neg apart), (isWritten_setBit ..).trans ?_⟩
      rw [gone.1]
      exact if_congr place rfl rfl
    next stays =>
      refine ⟨rfl, ?_⟩
      by_cases same : other = slot
      · rw [if_pos same, same]
        cases was : store.isWritten slot with
        | true => exact (decide_eq_true (Nat.pos_of_ne_zero fun zero => stays ⟨zero, was⟩)).symm
        | false => exact (decide_eq_false fun positive => notFirst ⟨positive, was⟩).symm
      · rw [if_neg same]

theorem markWritten_unique (store : FileStore) (slot version : Nat)
    (counted : store.isWritten slot = true → 0 < store.uniqueWrittenLines) :
    (store.markWritten slot version).uniqueWrittenLines + (store.isWritten slot).toNat =
      store.uniqueWrittenLines + (decide (0 < version)).toNat := by
  unfold markWritten
  split
  next first =>
    rw [first.2, decide_eq_true first.1]
    rfl
  next notFirst =>
    split
    next gone =>
      have some := counted gone.2
      rw [gone.1, gone.2]
      exact Nat.sub_add_cancel some
    next stays =>
      cases was : store.isWritten slot with
      | true => rw [decide_eq_true (Nat.pos_of_ne_zero fun zero => stays ⟨zero, was⟩)]
      | false => rw [decide_eq_false fun positive => notFirst ⟨positive, was⟩]

theorem SameFiles.trans {first second third : FileStore} (earlier : SameFiles first second)
    (later : SameFiles second third) : SameFiles first third :=
  ⟨later.lineSize.trans earlier.lineSize, later.capacityBytes.trans earlier.capacityBytes,
    later.bank.trans earlier.bank, later.header.trans earlier.header,
    later.presenceSize.trans earlier.presenceSize⟩

theorem mark_same (store : FileStore) (slot version : Nat) :
    SameFiles store (store.mark slot version) :=
  (markPresent_same store slot).1.trans (markWritten_same (store.markPresent slot) slot version).1

theorem SameFiles.lineCount {before after : FileStore} (same : SameFiles before after) :
    after.lineCount = before.lineCount := by
  unfold FileStore.lineCount
  rw [same.capacityBytes, same.lineSize]

/-- Marking a stored line moves the maps and the counters along with the table. -/
theorem Marks.mark (marks : store.Marks slots) (line : BackendLine)
    (inside : slot < store.lineCount) :
    (store.mark slot line.version).Marks (Slots.put slots slot line) := by
  obtain ⟨first, unique⟩ := markPresent_same store slot
  obtain ⟨-, allocated⟩ := markWritten_same (store.markPresent slot) slot line.version
  have room := first.lineCount
  have same := mark_same store slot line.version
  have count := same.lineCount
  constructor
  case positive => rw [same.lineSize]; exact marks.positive
  case nonempty => rw [count]; exact marks.nonempty
  case whole => rw [same.capacityBytes, count, same.lineSize]; exact marks.whole
  case sized => rw [same.bank, same.lineSize, count]; exact marks.sized
  case presenceSize =>
    unfold presenceBytes
    rw [count]
    exact same.presenceSize.trans marks.presenceSize
  case present =>
    intro other below
    rw [count] at below
    have bits := (markWritten_bits (store.markPresent slot) slot line.version (by rwa [room])).1
    refine bits.trans ((markPresent_bits inside other).1.trans ?_)
    by_cases same : other = slot
    · rw [same, Slots.put_self, decide_eq_true rfl]
      rfl
    · rw [Slots.put_ne _ same, decide_eq_false same, Bool.false_or]
      exact marks.present other below
  case written =>
    intro other below
    rw [count] at below
    have bits := (markWritten_bits (store.markPresent slot) slot line.version (by rwa [room])).2
    refine bits.trans ?_
    by_cases same : other = slot
    · rw [if_pos same, same, Slots.put_self]
      rfl
    · rw [if_neg same, Slots.put_ne _ same, (markPresent_bits inside other).2]
      exact marks.written other below
  case allocated =>
    rw [count]
    have total := Slots.count_put Option.isSome slots line inside
    have marked := markPresent_allocated store slot
    rw [marks.present slot inside, marks.allocated] at marked
    refine allocated.trans ?_
    rw [Option.isSome_some, Bool.toNat_true] at total
    omega
  case unique =>
    rw [count]
    have total := Slots.count_put hasVersion slots line inside
    have was : (store.markPresent slot).isWritten slot = hasVersion (slots slot) :=
      (markPresent_bits inside slot).2.trans (marks.written slot inside)
    have marked := markWritten_unique (store.markPresent slot) slot line.version ?_
    · rw [was, unique, marks.unique] at marked
      have version : hasVersion (some line) = decide (0 < line.version) := rfl
      rw [version] at total
      unfold FileStore.mark
      omega
    · intro written
      rw [was] at written
      rw [unique, marks.unique]
      exact List.countP_pos_iff.mpr ⟨slot, List.mem_range.mpr inside, written⟩
  case header => rw [same.header, same.lineSize, same.capacityBytes]; exact marks.header

theorem Marks.checkedIndex (marks : store.Marks slots) (kind : String) {base : Nat}
    (inside : base % store.lineSize = 0 ∧ base + store.lineSize ≤ store.capacityBytes) :
    store.checkedIndex kind base = .ok (base / store.lineSize) := by
  have positive := marks.positive
  have good : ¬ (base % store.lineSize ≠ 0 ∨ store.capacityBytes ≤ base ∨
      store.capacityBytes - base < store.lineSize) := by
    omega
  unfold FileStore.checkedIndex throwIf
  rw [if_neg good]
  rfl

theorem Marks.allAddresses (marks : store.Marks slots) :
    store.allAddresses = (Slots.used store.lineCount slots).map (· * store.lineSize) := by
  have members : (List.range store.lineCount).filter (Bitmap.isSet store.files.presence.cell) =
      Slots.used store.lineCount slots :=
    List.filter_congr fun slot member => marks.present slot (List.mem_range.mp member)
  unfold FileStore.allAddresses
  rw [Bitmap.members_eq, members]

/-! ### New and old files -/

/-- A store whose files are blank but for the header holds no line. -/
theorem Marks.fresh (positive : 0 < store.lineSize) (nonempty : 0 < store.lineCount)
    (whole : store.capacityBytes = store.lineCount * store.lineSize)
    (files : store.files = {
      bank := LineBank.blank store.lineSize store.lineCount
      header := makeHeader store.lineSize store.capacityBytes
      presence := Region.blank (store.presenceBytes * 2) })
    (allocated : store.allocatedLines = 0) (unique : store.uniqueWrittenLines = 0) :
    store.Marks fun _ => none where
  positive := positive
  nonempty := nonempty
  whole := whole
  sized := by rw [files]; exact LineBank.Sized.blank _ _
  presenceSize := by rw [files]; rfl
  present slot _ := by
    unfold isPresent
    rw [files]
    exact Bitmap.isSet_blank slot
  written slot _ := by
    unfold isWritten
    rw [files]
    exact Bitmap.isSet_blank _
  allocated := allocated.trans (Slots.count_empty rfl).symm
  unique := unique.trans (Slots.count_empty rfl).symm
  header := by rw [files]; rfl

theorem Marks.clear (marks : store.Marks slots) : store.clear.Marks fun _ => none := by
  refine Marks.fresh marks.positive marks.nonempty marks.whole ?_ rfl rfl
  have bytes : store.capacityBytes = store.lineCount * store.lineSize := marks.whole
  have bank : (LineBank.mk (Region.blank store.capacityBytes)
      (Region.blank (ceilDiv store.capacityBytes 8)) (Region.blank store.lineCount)) =
      LineBank.blank store.lineSize store.lineCount := by
    rw [bytes]
    rfl
  unfold FileStore.clear
  dsimp only
  rw [bank]
  rfl

theorem Marks.flush (marks : store.Marks slots) : store.flush.Marks slots :=
  ⟨marks.positive, marks.nonempty, marks.whole, marks.sized, marks.presenceSize, marks.present,
    marks.written, marks.allocated, marks.unique, marks.header⟩

/-- What opening asks of the line size and the options. -/
structure Openable (lineSize : Nat) (options : MemoryBackendOptions) : Prop where
  records : options.capacityBytes / lineSize * diskLineMetaBytes ≤ uint64Max
  presence : ceilDiv (options.capacityBytes / lineSize) 8 * 2 ≤ uint64Max
  path : options.dataFile ≠ ""
  nonempty : options.capacityBytes ≠ 0
  whole : options.capacityBytes % lineSize = 0

theorem checkedMul_eq_ok {first second product : Nat} {what : String} :
    checkedMul first second what = .ok product ↔
      first * second ≤ uint64Max ∧ product = first * second := by
  constructor
  · intro returned
    obtain ⟨_, small, same⟩ := bind_eq_ok.mp returned
    rw [throwIf_eq_ok, not_lt] at small
    exact ⟨small, (Except.ok.inj same).symm⟩
  · rintro ⟨small, rfl⟩
    exact bind_eq_ok.mpr ⟨(), throwIf_eq_ok.mpr (not_lt.mpr small), rfl⟩

theorem openFile_same {size : Nat} (path : String) (positive : 0 < size) :
    openFile path size size = .ok () := by
  unfold openFile
  rw [if_neg positive.ne']
  exact throwIf_eq_ok.mpr fun differs => differs rfl

theorem sizedRegion_old {Cell : Type} [Inhabited Cell] {region : Region Cell} (size : Nat)
    (old : region.size ≠ 0) : sizedRegion region size = region :=
  if_neg old

/-- A store opened on new files holds no line, and its options can be opened again. -/
theorem open_new {kind : String} {lineSize : Nat} {options : MemoryBackendOptions}
    (positive : 0 < lineSize) (opened : FileStore.open kind lineSize options {} = .ok store) :
    Openable lineSize options ∧ store.Marks (fun _ => none) ∧ store.lineSize = lineSize ∧
      store.capacityBytes = options.capacityBytes := by
  obtain ⟨records, recordsSmall, rest⟩ := bind_eq_ok.mp opened
  obtain ⟨path, required, rest⟩ := bind_eq_ok.mp rest
  obtain ⟨_, -, rest⟩ := bind_eq_ok.mp rest
  obtain ⟨_, -, rest⟩ := bind_eq_ok.mp rest
  obtain ⟨_, -, rest⟩ := bind_eq_ok.mp rest
  obtain ⟨presence, presenceSmall, rest⟩ := bind_eq_ok.mp rest
  obtain ⟨_, -, rest⟩ := bind_eq_ok.mp rest
  obtain ⟨_, valid, returned⟩ := bind_eq_ok.mp rest
  obtain ⟨_, given, -⟩ := bind_eq_ok.mp required
  rw [throwIf_eq_ok] at given valid
  rw [not_or, not_not] at valid
  obtain ⟨presenceBound, rfl⟩ := checkedMul_eq_ok.mp presenceSmall
  have openable : Openable lineSize options :=
    ⟨(checkedMul_eq_ok.mp recordsSmall).1, presenceBound, given, valid.1, valid.2⟩
  have bytes : options.capacityBytes / lineSize * lineSize = options.capacityBytes :=
    Nat.div_mul_cancel (Nat.dvd_of_mod_eq_zero valid.2)
  cases returned
  refine ⟨openable, Marks.fresh positive ?_ bytes.symm ?_ rfl rfl, rfl, rfl⟩
  · refine Nat.pos_of_ne_zero fun none => valid.1 ?_
    rw [← bytes, show options.capacityBytes / lineSize = 0 from none, Nat.zero_mul]
  · have bank : LineBank.mk (Region.blank options.capacityBytes)
        (Region.blank (ceilDiv options.capacityBytes 8))
        (Region.blank (options.capacityBytes / lineSize)) =
        LineBank.blank lineSize (options.capacityBytes / lineSize) := by
      unfold LineBank.blank
      rw [bytes]
    exact congrArg (fun bank => BackendFiles.mk bank
      (makeHeader lineSize options.capacityBytes)
      (Region.blank (ceilDiv (options.capacityBytes / lineSize) 8 * 2))) bank

/-- Opening what a flush left gives the same store back. -/
theorem open_flushed {kind : String} {options : MemoryBackendOptions} (marks : store.Marks slots)
    (openable : Openable store.lineSize options)
    (capacity : store.capacityBytes = options.capacityBytes) :
    FileStore.open kind store.lineSize options store.flush.files = .ok store.flush := by
  obtain ⟨positive, nonempty, whole, sized, presenceSize, -, -, allocated, unique, header⟩ := marks
  have count : options.capacityBytes / store.lineSize = store.lineCount := by
    rw [← capacity]
    rfl
  have bytes : store.files.bank.data.size = options.capacityBytes := by
    rw [sized.data, ← whole, capacity]
  have maskBytes : store.files.bank.init.size = ceilDiv options.capacityBytes 8 := by
    rw [sized.init, ← whole, capacity]
  have someMask : 0 < ceilDiv options.capacityBytes 8 := by
    have room := LineBank.le_ceilDiv options.capacityBytes
    have some := Nat.pos_of_ne_zero openable.nonempty
    omega
  have somePresence : 0 < store.presenceBytes * 2 := by
    have room := LineBank.le_ceilDiv store.lineCount
    unfold presenceBytes
    omega
  have records : ¬ store.files.bank.records.size = 0 := by
    rw [sized.records]
    exact nonempty.ne'
  unfold FileStore.open
  dsimp only
  refine bind_eq_ok.mpr ⟨_, checkedMul_eq_ok.mpr ⟨openable.records, rfl⟩, ?_⟩
  refine bind_eq_ok.mpr ⟨options.dataFile, ?_, ?_⟩
  · exact bind_eq_ok.mpr ⟨(), throwIf_eq_ok.mpr openable.path, rfl⟩
  refine bind_eq_ok.mpr ⟨(), ?_, ?_⟩
  · rw [show store.flush.files.bank.data.size = options.capacityBytes from bytes]
    exact openFile_same _ (Nat.pos_of_ne_zero openable.nonempty)
  refine bind_eq_ok.mpr ⟨(), ?_, ?_⟩
  · rw [show store.flush.files.bank.init.size = _ from maskBytes]
    exact openFile_same _ someMask
  refine bind_eq_ok.mpr ⟨(), ?_, ?_⟩
  · rw [if_neg (show ¬ store.flush.files.bank.records.size = 0 from records), count,
      show store.flush.files.bank.records.size = _ from sized.records]
    exact openFile_same _ (Nat.add_pos_left (by decide) _)
  refine bind_eq_ok.mpr ⟨_, checkedMul_eq_ok.mpr ⟨openable.presence, rfl⟩, ?_⟩
  refine bind_eq_ok.mpr ⟨(), ?_, ?_⟩
  · rw [show store.flush.files.presence.size = _ from presenceSize, count]
    exact openFile_same _ somePresence
  refine bind_eq_ok.mpr ⟨(), ?_, ?_⟩
  · exact throwIf_eq_ok.mpr fun bad =>
      bad.elim openable.nonempty fun uneven => uneven openable.whole
  have old : ¬ (if store.flush.files.bank.records.size = 0 then 0
      else diskHeaderBytes + store.flush.files.bank.records.size * diskLineMetaBytes) = 0 := by
    rw [if_neg (show ¬ store.flush.files.bank.records.size = 0 from records)]
    exact (Nat.add_pos_left (by decide) _).ne'
  rw [if_neg old]
  refine bind_eq_ok.mpr ⟨(), ?_, bind_eq_ok.mpr ⟨(), ?_, ?_⟩⟩
  · refine throwIf_eq_ok.mpr fun bad => ?_
    rcases bad with wrong | wrong | wrong | wrong | wrong
    · exact wrong (congrArg DiskHeader.magic header)
    · exact wrong (congrArg DiskHeader.version header)
    · exact wrong (congrArg DiskHeader.recordSize header)
    · exact wrong (congrArg DiskHeader.lineSize header)
    · exact wrong ((congrArg DiskHeader.capacityBytes header).trans capacity)
  · refine throwIf_eq_ok.mpr fun bad => ?_
    have most : store.allocatedLines ≤ store.lineCount := by
      rw [allocated]
      exact Slots.count_le ..
    have fewer : store.uniqueWrittenLines ≤ store.allocatedLines := by
      rw [allocated, unique]
      exact Slots.count_le_count fun found written => by
        cases found with
        | none => exact written
        | some line => rfl
    rcases bad with wrong | wrong
    · rw [count] at wrong
      exact absurd wrong (not_lt.mpr most)
    · exact absurd wrong (not_lt.mpr fewer)
  · have someBytes : store.files.bank.data.size ≠ 0 := by
      rw [bytes]
      exact openable.nonempty
    have someInit : store.files.bank.init.size ≠ 0 := by
      rw [maskBytes]
      exact someMask.ne'
    have someMaps : store.files.presence.size ≠ 0 := by
      rw [presenceSize]
      exact somePresence.ne'
    dsimp only [FileStore.flush]
    rw [sizedRegion_old _ someBytes, sizedRegion_old _ someInit, sizedRegion_old _ records,
      sizedRegion_old _ someMaps, ← capacity]
    rfl

end FileStore

/-- The checks of `make_memory_backend` for a store in files. -/
def checkFileBacked (lineSize : Nat) (options : MemoryBackendOptions) : Except Exception Unit := do
  throwIf (lineSize = 0) (invalidArgument "memory backend line_size must be > 0")
  throwIf (options.capacityBytes = 0 ∨ options.capacityBytes % lineSize ≠ 0)
    (invalidArgument "file-backed memory capacity must be a non-zero multiple of line_size")
  throwIf (options.dataFile = "")
    (invalidArgument "file-backed memory backend requires memory_data_file")

/-! ### The mapped store -/

abbrev MmapSparseMemoryBackend := FileStore

namespace MmapSparseMemoryBackend

def make (lineSize : Nat) (options : MemoryBackendOptions) (files : BackendFiles) :
    Except Exception MmapSparseMemoryBackend := do
  checkFileBacked lineSize options
  FileStore.open "mmap_sparse" lineSize options files

def load (store : MmapSparseMemoryBackend) (base : Nat) :
    Except Exception (Option BackendLine) := do
  let slot ← store.checkedIndex "mmap_sparse" base
  return if store.isPresent slot then some (store.files.bank.line store.lineSize slot) else none

def store (store : MmapSparseMemoryBackend) (base : Nat) (line : BackendLine) :
    Except Exception (Bool × MmapSparseMemoryBackend) := do
  validateLine base line store.lineSize store.capacityBytes
  let slot ← store.checkedIndex "mmap_sparse" base
  let bank := store.files.bank.put store.lineSize slot line
  let stored : MmapSparseMemoryBackend := { store with files := { store.files with bank } }
  return (!store.isPresent slot, stored.mark slot line.version)

end MmapSparseMemoryBackend

end HbmSim
