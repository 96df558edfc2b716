/-
The memory image: a line store under one open-row buffer per bank.

A row buffer copies lines of its open row when they are first touched, serves
reads and writes from the copies, and writes them back when the row is closed
if any of them was written. Reads and writes are cut into line spans; the first
line uses the coordinates the caller passes, every later line decodes its own.

The access statistics and the power and thermal accounting are left out; the
error-correction counters are kept.
-/

import HbmSim.Ecc
import HbmSim.Backend
import HbmSim.Lib.Patch

namespace HbmSim

/-! ### State -/

structure RowBufferEntry where
  «open» : Bool := false
  dirty : Bool := false
  bankKey : StorageKey := {}
  rowKey : StorageKey := {}
  openedCycle : Nat := 0
  lastAccessCycle : Nat := 0
  columns : AList (fun _ : Nat => DataBlock) := ∅

structure MemoryImage (β : Type) where
  lineSize : Nat := 64
  defaultValue : UInt8 := 0
  spec : Option DramSpec := none
  options : StorageModelOptions := {}
  backend : β
  nextVersion : Nat := 1
  counters : EccCounters := {}
  rowBuffers : AList (fun _ : StorageKey => RowBufferEntry) := ∅

variable {β : Type} [MemoryBackend β]

namespace MemoryImage

/-- A zero capacity stands for the capacity of the geometry. -/
def configuredCapacity (spec : DramSpec) (options : StorageModelOptions) : Except Exception Nat :=
  if options.capacityBytes = 0 then spec.addressableCapacityBytes else .ok options.capacityBytes

/-- The constructor from a spec. -/
def create (spec : DramSpec) (defaultValue : UInt8) (options : StorageModelOptions) :
    Except Exception (MemoryImage β) := do
  validateSpec spec
  let _ ← spec.totalAddressableTransactions
  validateStorageOptions options
  let capacityBytes ← configuredCapacity spec options
  let options := { options with capacityBytes }
  let backend ← MemoryBackend.make spec.transactionBytes capacityBytes
  return { lineSize := spec.transactionBytes, defaultValue, spec := some spec, options, backend }

def capacityBytes (image : MemoryImage β) : Nat := MemoryBackend.capacityBytes image.backend

/-! ### Lines -/

def physicalAddress (image : MemoryImage β) (address : Nat) (decoded : Option DecodedAddress) :
    Except Exception PhysicalAddress :=
  HbmSim.physicalAddress image.lineSize image.spec image.options address decoded

def storageKey (image : MemoryImage β) (address : Nat) (decoded : Option DecodedAddress) :
    Except Exception StorageKey := do
  return keyFromPhysical (← image.physicalAddress address decoded)

def bankKeyFromDecoded (image : MemoryImage β) (decoded : DecodedAddress) : StorageKey where
  stack := image.options.stackId
  channel := decoded.channel
  pseudoChannel := decoded.pseudoChannel
  sid := decoded.sid
  rank := decoded.rank
  bankGroup := decoded.bankGroup
  bank := decoded.bank
  row := none
  column := none

def rowKeyFromDecoded (image : MemoryImage β) (decoded : DecodedAddress) : StorageKey :=
  { image.bankKeyFromDecoded decoded with row := some decoded.row }

/-- A line nobody has stored yet. -/
def makeLine (image : MemoryImage β) (base : Nat) (decoded : Option DecodedAddress) :
    Except Exception DataBlock := do
  let physical ← image.physicalAddress base decoded
  let bytes := List.replicate image.lineSize image.defaultValue
  return {
    bytes
    byteMask := List.replicate image.lineSize 0
    initializedMask := List.replicate image.lineSize 0
    physical
    storageKey := keyFromPhysical physical
    checksum := checksumBytes bytes }

def refreshLineMetadata (block : DataBlock) : DataBlock :=
  { block with
    initialized := allMasked block.initializedMask
    checksum := checksumBytes block.bytes
    storageKey := keyFromPhysical block.physical }

/-- The block a stored line becomes, before it is placed. -/
def blockFromBackendLine (lineSize : Nat) (line : BackendLine) : DataBlock where
  bytes := line.bytes
  byteMask := List.replicate lineSize 0
  initializedMask := line.initializedMask
  initialized := line.initialized
  version := line.version
  lastWriterRequestId := line.lastWriterRequestId
  lastWriteCycle := line.lastWriteCycle
  lastAccessCycle := line.lastAccessCycle
  checksum := line.checksum
  eccHamming := line.eccHamming
  eccOverall := line.eccOverall
  eccParityBits := line.eccParityBits
  eccValid := line.eccValid
  eccUncorrectable := line.eccUncorrectable
  eccErrorInjections := line.eccErrorInjections

def loadBackendLine (image : MemoryImage β) (base : Nat) (decoded : Option DecodedAddress) :
    Except Exception (Option DataBlock) := do
  match ← MemoryBackend.load image.backend base with
  | none => return none
  | some line =>
    let storageKey ← match decoded with
      | none => .ok line.storageKey
      | some decoded => image.storageKey base (some decoded)
    let physical ←
      image.physicalAddress base (some (decoded.getD (decodedFromStorageKey storageKey)))
    return some { blockFromBackendLine image.lineSize line with storageKey, physical }

def storeBackendLine (image : MemoryImage β) (base : Nat) (block : DataBlock) :
    Except Exception (MemoryImage β) := do
  let (_, backend) ← MemoryBackend.store image.backend base (backendLineFromBlock block)
  return { image with backend }

/-! ### Row buffers -/

/-- Move the error-correction counters and the next version on. -/
def account (image : MemoryImage β) (counters : EccCounters) (nextVersion : Nat) :
    MemoryImage β :=
  { image with counters, nextVersion }

/-- Replace the row buffer of one bank. -/
def setRowBuffer (image : MemoryImage β) (bankKey : StorageKey) (entry : RowBufferEntry) :
    MemoryImage β :=
  { image with rowBuffers := image.rowBuffers.insert bankKey entry }

/-- Store one buffered line, stamped with the cycle. -/
def storeColumn (cycle : Nat) (image : MemoryImage β) (block : DataBlock) :
    Except Exception (MemoryImage β) :=
  let block := refreshLineMetadata { block with lastAccessCycle := cycle }
  image.storeBackendLine block.physical.logicalLineBase block

/-- `writeback_row_buffer`: close the bank's row, storing its lines if any was written. -/
def writebackRowBuffer (image : MemoryImage β) (bankKey : StorageKey) (cycle : Nat) :
    Except Exception (MemoryImage β) :=
  match image.rowBuffers.lookup bankKey with
  | none => .ok image
  | some entry =>
    if entry.open = false then .ok image
    else do
      let image ←
        if entry.dirty = false then .ok image
        else (entry.columns.entries.map Sigma.snd).foldlM (storeColumn cycle) image
      return image.setRowBuffer bankKey
        { entry with dirty := false, «open» := false, columns := ∅ }

/-- `activate_row`: open the row, closing another open row of the bank first. -/
def activateRow (image : MemoryImage β) (decoded : DecodedAddress) (cycle : Nat) :
    Except Exception (MemoryImage β) := do
  validateDecodedAddress image.spec decoded
  let bankKey := image.bankKeyFromDecoded decoded
  let rowKey := image.rowKeyFromDecoded decoded
  let entry := (image.rowBuffers.lookup bankKey).getD {}
  if entry.open = true ∧ entry.rowKey = rowKey then
    return image.setRowBuffer bankKey { entry with lastAccessCycle := cycle }
  else
    let image ← if entry.open = true then image.writebackRowBuffer bankKey cycle else .ok image
    return image.setRowBuffer bankKey
      { «open» := true, dirty := false, bankKey, rowKey, openedCycle := cycle,
        lastAccessCycle := cycle, columns := ∅ }

def prechargeBank (image : MemoryImage β) (decoded : DecodedAddress) (cycle : Nat) :
    Except Exception (MemoryImage β) := do
  validateDecodedAddress image.spec decoded
  image.writebackRowBuffer (image.bankKeyFromDecoded decoded) cycle

/-- The banks with an open row that a predicate selects. -/
def openBanks (image : MemoryImage β) (select : StorageKey → Bool) : List StorageKey :=
  (image.rowBuffers.entries.filter fun entry => entry.2.open && select entry.1).map Sigma.fst

def writebackAll (image : MemoryImage β) (targets : List StorageKey) (cycle : Nat) :
    Except Exception (MemoryImage β) :=
  targets.foldlM (fun image bankKey => image.writebackRowBuffer bankKey cycle) image

/-- `precharge_all`: close every open row of the rank. -/
def prechargeAll (image : MemoryImage β) (decoded : DecodedAddress) (cycle : Nat) :
    Except Exception (MemoryImage β) := do
  validateDecodedAddress image.spec decoded
  let targets := image.openBanks fun key =>
    key.channel = decoded.channel ∧ key.pseudoChannel = decoded.pseudoChannel ∧
      key.sid = decoded.sid ∧ key.rank = decoded.rank
  image.writebackAll targets cycle

/-- Write back one bank's lines without closing its row. -/
def flushRowBuffer (cycle : Nat) (image : MemoryImage β) (bankKey : StorageKey) :
    Except Exception (MemoryImage β) :=
  match image.rowBuffers.lookup bankKey with
  | none => .ok image
  | some entry =>
    if entry.open = false ∨ entry.dirty = false then .ok image
    else do
      let image ← (entry.columns.entries.map Sigma.snd).foldlM (storeColumn cycle) image
      let columns : List (Sigma fun _ : Nat => DataBlock) :=
        entry.columns.entries.map
          (.map id fun _ block => refreshLineMetadata { block with lastAccessCycle := cycle })
      return image.setRowBuffer bankKey { entry with dirty := false, columns := columns.toAList }

/-- `flush_dirty_row_buffers`: a checkpoint; the rows stay open. -/
def flushDirtyRowBuffers (image : MemoryImage β) (cycle : Nat) :
    Except Exception (MemoryImage β) :=
  image.rowBuffers.keys.foldlM (flushRowBuffer cycle) image

/-- `flush_all_row_buffers`: close every open row. -/
def flushAllRowBuffers (image : MemoryImage β) (cycle : Nat) : Except Exception (MemoryImage β) :=
  image.writebackAll (image.openBanks fun _ => true) cycle

/-- Put a block into the open row of its bank. -/
def putRowBufferBlock (image : MemoryImage β) (key : StorageKey) (block : DataBlock) :
    MemoryImage β :=
  match image.rowBuffers.lookup (bankKeyFromStorageKey key) with
  | none => image
  | some entry =>
    image.setRowBuffer (bankKeyFromStorageKey key)
      { entry with columns := entry.columns.insert (key.column.getD 0) block }

/-- A loaded line, or a new one when nothing was stored. -/
def loadedOrNew (image : MemoryImage β) (stored : Option DataBlock) (base : Nat)
    (decoded : Option DecodedAddress) : Except Exception DataBlock :=
  match stored with
  | some backing => .ok backing
  | none => image.makeLine base decoded

/-- The copy of a line in an open row, or what fills it on the first access. -/
def openRowCopy (image : MemoryImage β) (entry : RowBufferEntry) (lineKey : StorageKey)
    (base : Nat) (decoded : DecodedAddress) : Except Exception DataBlock :=
  match entry.columns.lookup (lineKey.column.getD 0) with
  | some block => .ok block
  | none => do
    let stored ← image.loadBackendLine base (some decoded)
    image.loadedOrNew stored base (some decoded)

/-- The mutable `row_buffer_block`: the buffered copy of a line whose row is open, loaded or
made on its first access. The key is where the copy lives. -/
def rowBufferBlock (image : MemoryImage β) (base : Nat) (decoded : Option DecodedAddress)
    (cycle : Nat) : Except Exception (Option (StorageKey × DataBlock) × MemoryImage β) :=
  match decoded with
  | none => .ok (none, image)
  | some decoded => do
    let lineKey ← image.storageKey base (some decoded)
    let bankKey := bankKeyFromStorageKey lineKey
    match image.rowBuffers.lookup bankKey with
    | none => return (none, image)
    | some entry =>
      if entry.open = false ∨ entry.rowKey ≠ rowKeyFromStorageKey lineKey then
        return (none, image)
      else
        let block ← image.openRowCopy entry lineKey base decoded
        let physical ← image.physicalAddress base (some decoded)
        let block := { block with physical, storageKey := lineKey }
        let image := image.setRowBuffer bankKey { entry with lastAccessCycle := cycle }
        return (some (lineKey, block), image.putRowBufferBlock lineKey block)

/-- The read-only `row_buffer_block`: a copy that is already there. -/
def peekRowBufferBlock (image : MemoryImage β) (base : Nat) (decoded : Option DecodedAddress) :
    Except Exception (Option DataBlock) :=
  match decoded with
  | none => .ok none
  | some decoded => do
    let lineKey ← image.storageKey base (some decoded)
    match image.rowBuffers.lookup (bankKeyFromStorageKey lineKey) with
    | none => return none
    | some entry =>
      if entry.open = false ∨ entry.rowKey ≠ rowKeyFromStorageKey lineKey then return none
      else return entry.columns.lookup (lineKey.column.getD 0)

end MemoryImage

/-! ### Spans -/

/-- The part of an access that lies in one line: the line's base, the offset inside it, the
number of bytes already handled and the number handled here. -/
structure LineSpan where
  base : Nat
  offset : Nat
  copied : Nat
  chunk : Nat
  deriving DecidableEq, Repr

def spansFrom (lineSize address size : Nat) : Nat → Nat → List LineSpan
  | 0, _ => []
  | fuel + 1, copied =>
    if copied < size then
      let current := address + copied
      let offset := lineOffset lineSize current
      let chunk := min (size - copied) (lineSize - offset)
      { base := lineBase lineSize current, offset, copied, chunk } ::
        spansFrom lineSize address size fuel (copied + chunk)
    else []

/-- The spans of an access, in order. Every span has a byte, so `size` steps suffice. -/
def lineSpans (lineSize address size : Nat) : List LineSpan :=
  spansFrom lineSize address size size 0

/-- `validate_address_span`. -/
def validateAddressSpan (address size : Nat) (context : String) (capacityBytes : Nat) :
    Except Exception Unit := do
  throwIf (size ≠ 0 ∧ uint64Max < address + (size - 1))
    (overflowError (context ++ " address range exceeds Address space"))
  throwIf (size ≠ 0 ∧ capacityBytes ≠ 0 ∧
      (capacityBytes ≤ address ∨ capacityBytes - address ≤ size - 1))
    (outOfRange (context ++ " address range exceeds configured capacity"))

/-- Whether a write enables the byte at an index of its payload. -/
def maskEnables (mask : Option ByteVector) (index : Nat) : Bool :=
  match mask with
  | none => true
  | some mask => mask[index]?.any (· ≠ 0)

/-- The value a span writes at an index of its line, if it writes there. -/
def spanByte (span : LineSpan) (data : ByteVector) (mask : Option ByteVector) (index : Nat) :
    Option UInt8 :=
  if span.offset ≤ index ∧ index < span.offset + span.chunk ∧
      maskEnables mask (span.copied + (index - span.offset)) = true then
    data[span.copied + (index - span.offset)]?
  else none

/-- The masked copy of one span into a line. -/
def overlaySpan (block : DataBlock) (span : LineSpan) (data : ByteVector)
    (mask : Option ByteVector) : DataBlock :=
  let written (bytes : ByteVector) (value : UInt8 → UInt8) : ByteVector :=
    bytes.mapIdx fun index old => ((spanByte span data mask index).map value).getD old
  { block with
    bytes := written block.bytes id
    initializedMask := written block.initializedMask fun _ => 0xff
    byteMask := written (block.byteMask.map fun _ => 0) fun _ => 0xff }

/-- Whether a span writes any byte. -/
def spanWritesAny (span : LineSpan) (data : ByteVector) (mask : Option ByteVector) : Bool :=
  (List.range span.chunk).any fun index =>
    (spanByte span data mask (span.offset + index)).isSome

namespace MemoryImage

/-- The coordinates of a span: those of the access for its first line, decoded ones later. -/
def spanDecoded (image : MemoryImage β) (address : Nat) (decoded : Option DecodedAddress)
    (span : LineSpan) : Option DecodedAddress :=
  if span.base = lineBase image.lineSize address then decoded
  else image.spec.map fun spec => decode spec span.base

/-! ### Reading -/

/-- The bytes of a span inside a line. -/
def spanSlice (span : LineSpan) (bytes : ByteVector) : ByteVector :=
  (bytes.drop span.offset).take span.chunk

/-- Whether checking a stored line changed what the backend keeps of it. -/
def checkChanged (before after : DataBlock) : Bool :=
  after.bytes ≠ before.bytes ∨ after.eccHamming ≠ before.eccHamming ∨
    after.eccOverall ≠ before.eccOverall ∨ after.eccValid ≠ before.eccValid ∨
    after.eccUncorrectable ≠ before.eccUncorrectable

/-- One span of a read: checked in place in an open row, else checked on a copy that is stored
back when the check changed it. -/
def readSpan (image : MemoryImage β) (span : LineSpan) (decoded : Option DecodedAddress) :
    Except Exception (ByteVector × Bool × MemoryImage β) := do
  let (found, image) ← image.rowBufferBlock span.base decoded 0
  match found with
  | some (key, block) =>
    let (checked, counters) := checkEccShadow image.options block image.counters
    let image := (image.account counters image.nextVersion).putRowBufferBlock key checked
    return (spanSlice span checked.bytes, allMasked (spanSlice span checked.initializedMask), image)
  | none =>
    match ← image.loadBackendLine span.base decoded with
    | none => return (List.replicate span.chunk image.defaultValue, false, image)
    | some block =>
      let (checked, counters) := checkEccShadow image.options block image.counters
      let image := image.account counters image.nextVersion
      let image ←
        if checkChanged block checked then
          image.storeBackendLine span.base (refreshLineMetadata checked)
        else .ok image
      return (spanSlice span checked.bytes, allMasked (spanSlice span checked.initializedMask),
        image)

def readStep (address : Nat) (decoded : Option DecodedAddress)
    (result : ByteVector × Bool × MemoryImage β) (span : LineSpan) :
    Except Exception (ByteVector × Bool × MemoryImage β) := do
  let (bytes, initialized, image) ←
    result.2.2.readSpan span (result.2.2.spanDecoded address decoded span)
  return (result.1 ++ bytes, result.2.1 && initialized, image)

/-- `MemoryImage::read`: the bytes and whether all of them were initialized. -/
def read (image : MemoryImage β) (address size : Nat) (decoded : Option DecodedAddress) :
    Except Exception (ByteVector × Bool × MemoryImage β) := do
  validateAddressSpan address size "memory image read" image.capacityBytes
  (lineSpans image.lineSize address size).foldlM (readStep address decoded) ([], true, image)

def maskSpan (image : MemoryImage β) (span : LineSpan) (decoded : Option DecodedAddress) :
    Except Exception ByteVector := do
  match ← image.peekRowBufferBlock span.base decoded with
  | some block => return spanSlice span block.initializedMask
  | none =>
    match ← image.loadBackendLine span.base decoded with
    | some block => return spanSlice span block.initializedMask
    | none => return List.replicate span.chunk 0

/-- `MemoryImage::read_initialized_mask`. -/
def readInitializedMask (image : MemoryImage β) (address size : Nat)
    (decoded : Option DecodedAddress) : Except Exception ByteVector := do
  validateAddressSpan address size "memory image initialized-mask read" image.capacityBytes
  (lineSpans image.lineSize address size).foldlM
    (fun out span => do
      return out ++ (← image.maskSpan span (image.spanDecoded address decoded span)))
    []

/-! ### Writing -/

/-- Who writes, and when. -/
structure WriteStamp where
  requestId : Nat := 0
  cycle : Nat := 0
  deriving DecidableEq, Repr

/-- The block after the masked copy, with a new version if any byte was written. -/
def writtenBlock (image : MemoryImage β) (block : DataBlock) (span : LineSpan) (data : ByteVector)
    (mask : Option ByteVector) (stamp : WriteStamp) : DataBlock :=
  let block := overlaySpan block span data mask
  if spanWritesAny span data mask then
    { block with
      version := image.nextVersion
      lastWriterRequestId := stamp.requestId
      lastWriteCycle := stamp.cycle
      lastAccessCycle := stamp.cycle }
  else block

/-- Refresh the shadow of a written block and let the injector see it. -/
def protect (image : MemoryImage β) (block : DataBlock) : DataBlock × EccCounters :=
  let refreshed := refreshEccShadow image.options block image.counters
  maybeInjectEccError image.options refreshed.1 refreshed.2

/-- Mark the bank's open row as written. -/
def markDirty (image : MemoryImage β) (bankKey : StorageKey) : MemoryImage β :=
  match image.rowBuffers.lookup bankKey with
  | none => image
  | some entry => image.setRowBuffer bankKey { entry with dirty := true }

/-- A line nobody stored yet gets its backend block at once, also when its row is open. -/
def storeMissing (image : MemoryImage β) (stored : Option DataBlock) (base : Nat)
    (backing : DataBlock) : Except Exception (MemoryImage β) :=
  if stored.isNone then image.storeBackendLine base backing else .ok image

/-- One span of a write, into the open row if the line's row is open, else into the backend. -/
def writeSpan (image : MemoryImage β) (span : LineSpan) (decoded : Option DecodedAddress)
    (data : ByteVector) (mask : Option ByteVector) (stamp : WriteStamp) :
    Except Exception (MemoryImage β) := do
  let stored ← image.loadBackendLine span.base decoded
  let backing ← image.loadedOrNew stored span.base decoded
  let (found, image) ← image.rowBufferBlock span.base decoded stamp.cycle
  let wroteAny := spanWritesAny span data mask
  let bumped := if wroteAny then image.nextVersion + 1 else image.nextVersion
  match found with
  | some (key, target) =>
    -- The new bytes stay in the row; the backend only learns that the line exists.
    let image ← image.storeMissing stored span.base backing
    let block := image.writtenBlock target span data mask stamp
    let block := { block with
      initialized := allMasked block.initializedMask
      checksum := checksumBytes block.bytes }
    let (block, counters) := image.protect block
    let image := (image.account counters bumped).putRowBufferBlock key block
    return if wroteAny then image.markDirty (bankKeyFromStorageKey key) else image
  | none =>
    let block := refreshLineMetadata (image.writtenBlock backing span data mask stamp)
    let (block, counters) := image.protect block
    (image.account counters bumped).storeBackendLine span.base block

/-- `MemoryImage::write`. -/
def write (image : MemoryImage β) (address : Nat) (data : ByteVector) (mask : Option ByteVector)
    (decoded : Option DecodedAddress) (stamp : WriteStamp) :
    Except Exception (MemoryImage β) := do
  validateAddressSpan address data.length "memory image write" image.capacityBytes
  throwIf (mask.any fun mask => mask.length ≠ data.length)
    (invalidArgument "memory image write mask size does not match data size")
  (lineSpans image.lineSize address data.length).foldlM
    (fun image span =>
      image.writeSpan span (image.spanDecoded address decoded span) data mask stamp)
    image

end MemoryImage

end HbmSim
