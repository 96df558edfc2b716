/-
The text form of a memory image. Each line of a file gives an address, the bytes
from there on, which of them are initialized, and perhaps the coordinates of the
first cache line. A load puts them into the backend line by line and keeps what is
stored beside them; the open rows are not looked at.
-/

import HbmSim.Image

namespace HbmSim

/-- A line of the file, parsed. Without a mask every byte is initialized. -/
structure TextLine where
  address : Nat
  data : ByteVector
  initMask : ByteVector := []
  decoded : Option DecodedAddress := none

namespace TextLine

/-- Whether the byte at an index of the data is initialized. -/
def initializes (line : TextLine) (index : Nat) : Bool :=
  line.initMask.isEmpty || line.initMask[index]?.any (· ≠ 0)

/-- The copy of one span of the data into a line, with the mask it leaves there. -/
def overlay (line : TextLine) (span : LineSpan) (block : DataBlock) : DataBlock :=
  let inside (index : Nat) : Prop := span.offset ≤ index ∧ index < span.offset + span.chunk
  let source (index : Nat) : Nat := span.copied + (index - span.offset)
  let mask (index : Nat) : UInt8 := if line.initializes (source index) then 0xff else 0
  { block with
    bytes := block.bytes.mapIdx fun index old =>
      if inside index then line.data[source index]?.getD old else old
    initializedMask := block.initializedMask.mapIdx fun index old =>
      if inside index then mask index else old
    byteMask := block.byteMask.mapIdx fun index _ => if inside index then mask index else 0 }

end TextLine

namespace MemoryImage

variable {β : Type} [MemoryBackend β]

/-- One span of a line of the file. The coordinates are those of its first cache line only. -/
def loadTextSpan (line : TextLine) (image : MemoryImage β) (span : LineSpan) :
    Except Exception (MemoryImage β) := do
  let decoded := if span.base = lineBase image.lineSize line.address then line.decoded else none
  let stored ← image.loadBackendLine span.base decoded
  let block ← image.loadedOrNew stored span.base decoded
  let block := refreshLineMetadata { line.overlay span block with
    version := 0
    lastWriterRequestId := 0
    lastWriteCycle := 0 }
  let (block, counters) := refreshEccShadow image.options block image.counters
  (image.account counters image.nextVersion).storeBackendLine span.base block

/-- What `load_text` does with a line once it is parsed. -/
def loadTextLine (image : MemoryImage β) (line : TextLine) : Except Exception (MemoryImage β) := do
  validateAddressSpan line.address line.data.length "memory image text input" image.capacityBytes
  (lineSpans image.lineSize line.address line.data.length).foldlM (loadTextSpan line) image

end MemoryImage

end HbmSim
