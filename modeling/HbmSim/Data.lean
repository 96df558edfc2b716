/-
The records of the data path: where a line is placed in the stack, what one
stored line carries, and the options of the storage model.

The placement is computed in full, because every stored line carries it. The
floating-point options (power, thermal, density warning) and the accounting
they drive are left out.
-/

import HbmSim.Address

namespace HbmSim

/-! ### Keys and placement -/

/-- A position of the stack. `none` in `row` or `column` stands for the `-1` the source
puts in the key of a whole bank or of a whole row. -/
structure StorageKey where
  stack : Int := 0
  channel : Nat := 0
  pseudoChannel : Nat := 0
  sid : Nat := 0
  rank : Nat := 0
  bankGroup : Nat := 0
  bank : Nat := 0
  row : Option Nat := some 0
  column : Option Nat := some 0
  deriving DecidableEq, Repr

def bankKeyFromStorageKey (key : StorageKey) : StorageKey :=
  { key with row := none, column := none }

def rowKeyFromStorageKey (key : StorageKey) : StorageKey :=
  { key with column := none }

structure PhysicalAddress where
  logicalLineBase : Nat := 0
  byteOffset : Nat := 0
  stack : Int := 0
  die : Nat := 0
  layer : Nat := 0
  channel : Nat := 0
  pseudoChannel : Nat := 0
  sid : Nat := 0
  rank : Nat := 0
  bankGroup : Nat := 0
  bank : Nat := 0
  row : Nat := 0
  column : Nat := 0
  tileX : Nat := 0
  tileY : Nat := 0
  tileZ : Nat := 0
  tileId : Nat := 0
  floorplanCols : Nat := 1
  floorplanRows : Nat := 1
  thermalX : Nat := 0
  thermalY : Nat := 0
  thermalZ : Nat := 0
  thermalGridX : Nat := 0
  thermalGridY : Nat := 0
  thermalCols : Nat := 1
  thermalRows : Nat := 1
  subarray : Nat := 0
  matX : Nat := 0
  matY : Nat := 0
  matId : Nat := 0
  cellX : Nat := 0
  cellY : Nat := 0
  microbumpX : Nat := 0
  microbumpY : Nat := 0
  subarraysPerBank : Nat := 1
  matsPerSubarrayX : Nat := 1
  matsPerSubarrayY : Nat := 1
  deriving DecidableEq, Repr

def keyFromPhysical (physical : PhysicalAddress) : StorageKey where
  stack := physical.stack
  channel := physical.channel
  pseudoChannel := physical.pseudoChannel
  sid := physical.sid
  rank := physical.rank
  bankGroup := physical.bankGroup
  bank := physical.bank
  row := some physical.row
  column := some physical.column

def decodedFromStorageKey (key : StorageKey) : DecodedAddress where
  channel := key.channel
  pseudoChannel := key.pseudoChannel
  sid := key.sid
  rank := key.rank
  bankGroup := key.bankGroup
  bank := key.bank
  row := key.row.getD 0
  column := key.column.getD 0

/-! ### Options -/

structure StorageModelOptions where
  capacityBytes : Nat := 0
  stackId : Int := 0
  floorplanEnabled : Bool := true
  thermalGridColsPerTile : Int := 1
  thermalGridRowsPerTile : Int := 1
  thermalTsvsPerGrid : Int := 4
  subarraysPerBank : Int := 16
  matsPerSubarrayX : Int := 4
  matsPerSubarrayY : Int := 4
  cellsPerMatX : Int := 512
  cellsPerMatY : Int := 512
  microbumpsX : Int := 8
  microbumpsY : Int := 8
  eccShadowEnabled : Bool := true
  eccCheckOnRead : Bool := true
  eccCorrectSingleBit : Bool := true
  eccInjectPeriod : Int := 0
  deriving DecidableEq, Repr

/-- The named options that must be positive, in the order they are checked. -/
def positiveOptions (options : StorageModelOptions) : List (String × Int) :=
  [("thermal_grid_cols_per_tile", options.thermalGridColsPerTile),
   ("thermal_grid_rows_per_tile", options.thermalGridRowsPerTile),
   ("thermal_tsvs_per_grid", options.thermalTsvsPerGrid),
   ("subarrays_per_bank", options.subarraysPerBank),
   ("mats_per_subarray_x", options.matsPerSubarrayX),
   ("mats_per_subarray_y", options.matsPerSubarrayY),
   ("cells_per_mat_x", options.cellsPerMatX),
   ("cells_per_mat_y", options.cellsPerMatY),
   ("microbumps_x", options.microbumpsX),
   ("microbumps_y", options.microbumpsY)]

def validateStorageOptions (options : StorageModelOptions) : Except Exception Unit := do
  throwIf (options.stackId < 0) (invalidArgument "storage stack_id must be non-negative")
  (positiveOptions options).forM fun option =>
    throwIf (option.2 ≤ 0) (invalidArgument (option.1 ++ " must be > 0"))
  throwIf (options.eccInjectPeriod < 0) (invalidArgument "ecc_inject_period must be >= 0")

/-! ### Placing a line in the stack -/

def ceilSqrtSearch (value : Nat) : Nat → Nat → Nat
  | 0, root => root
  | fuel + 1, root => if root * root < value then ceilSqrtSearch value fuel (root + 1) else root

/-- The smallest positive integer whose square reaches the value. -/
def ceilSqrtInt (value : Nat) : Nat :=
  let value := max 1 value
  ceilSqrtSearch value value 1

/-- Scale an index of a span into one of `buckets` buckets. -/
def scaledIndex (value span buckets : Nat) : Nat :=
  min (value * buckets / max 1 span) (max 1 buckets - 1)

def positiveOption (value : Int) : Nat := max 1 value.toNat

/-- `line_base`. -/
def lineBase (lineSize : Nat) (address : Nat) : Nat := address - address % lineSize

/-- `line_offset`. -/
def lineOffset (lineSize : Nat) (address : Nat) : Nat := address % lineSize

/-- Where the coordinates sit: layer, floorplan tile, thermal cell, subarray, mat and
micro bump. -/
def placement (lineSize : Nat) (spec : Option DramSpec) (options : StorageModelOptions)
    (address : Nat) (d : DecodedAddress) : PhysicalAddress :=
  let dimension (field : Organization → Nat) : Nat :=
    max 1 ((spec.map fun spec => field spec.org).getD 1)
  let stackHeight := max 1 ((spec.map fun spec => spec.stackHeight.toNat).getD 1)
  let sidCount := dimension (·.sids)
  let banksPerGroup := dimension (·.banksPerGroup)
  let bankIndex := d.bankGroup * banksPerGroup + d.bank
  let layersPerSid := max 1 ((stackHeight + sidCount - 1) / sidCount)
  let rawLayer := d.sid * layersPerSid + bankIndex % layersPerSid
  let layer := if stackHeight ≤ rawLayer then rawLayer % stackHeight else rawLayer
  let pseudoChannels := dimension (·.pseudoChannels)
  let ranks := dimension (·.ranks)
  let bankGroups := dimension (·.bankGroups)
  let banksPerLayer := max 1 (bankGroups * banksPerGroup)
  let cols := ceilSqrtInt banksPerLayer
  let rowsPerSlice := (banksPerLayer + cols - 1) / cols
  let slice := (d.rank * sidCount + d.sid) * pseudoChannels + d.pseudoChannel
  let floorplanCols := if options.floorplanEnabled then cols else 1
  let floorplanRows :=
    if options.floorplanEnabled then max 1 (rowsPerSlice * pseudoChannels * sidCount * ranks) else 1
  let tileX := if options.floorplanEnabled then bankIndex % cols else 0
  let tileY := if options.floorplanEnabled then slice * rowsPerSlice + bankIndex / cols else 0
  let tileId :=
    if options.floorplanEnabled then (layer * floorplanRows + tileY) * floorplanCols + tileX
    else layer
  let gridCols := positiveOption options.thermalGridColsPerTile
  let gridRows := positiveOption options.thermalGridRowsPerTile
  let rowCount := if spec.isSome then dimension (·.rows) else d.row + 1
  let columnCount := if spec.isSome then dimension (·.columns) else d.column + 1
  let thermalGridX := scaledIndex d.row rowCount gridCols
  let thermalGridY := scaledIndex d.column columnCount gridRows
  let subarrays := positiveOption options.subarraysPerBank
  let matsX := positiveOption options.matsPerSubarrayX
  let matsY := positiveOption options.matsPerSubarrayY
  let rowPerSubarray := max 1 ((rowCount + subarrays - 1) / subarrays)
  let rowInSubarray := d.row % rowPerSubarray
  let matX := scaledIndex rowInSubarray rowPerSubarray matsX
  let matY := scaledIndex d.column columnCount matsY
  let microbumpsX := positiveOption options.microbumpsX
  let microbumpsY := positiveOption options.microbumpsY
  { logicalLineBase := lineBase lineSize address
    byteOffset := lineOffset lineSize address
    stack := options.stackId
    die := layer
    layer
    channel := d.channel
    pseudoChannel := d.pseudoChannel
    sid := d.sid
    rank := d.rank
    bankGroup := d.bankGroup
    bank := d.bank
    row := d.row
    column := d.column
    tileX
    tileY
    tileZ := layer
    tileId
    floorplanCols
    floorplanRows
    thermalX := tileX * gridCols + thermalGridX
    thermalY := tileY * gridRows + thermalGridY
    thermalZ := layer
    thermalGridX
    thermalGridY
    thermalCols := max 1 (floorplanCols * gridCols)
    thermalRows := max 1 (floorplanRows * gridRows)
    subarray := scaledIndex d.row rowCount subarrays
    matX
    matY
    matId := matY * matsX + matX
    cellX := scaledIndex rowInSubarray rowPerSubarray (positiveOption options.cellsPerMatX)
    cellY := scaledIndex d.column columnCount (positiveOption options.cellsPerMatY)
    microbumpX := min (tileX % microbumpsX) (microbumpsX - 1)
    microbumpY := min ((tileY + layer) % microbumpsY) (microbumpsY - 1)
    subarraysPerBank := subarrays
    matsPerSubarrayX := matsX
    matsPerSubarrayY := matsY }

/-- One coordinate check; each names the coordinate it rejects. -/
def requireCoordinate (value count : Nat) (name : String) : Except Exception Unit :=
  throwIf (count ≤ value) (outOfRange ("decoded " ++ name ++ " is outside the DRAM organization"))

def validateDecodedAddress (spec : Option DramSpec) (decoded : DecodedAddress) :
    Except Exception Unit :=
  match spec with
  | none => .ok ()
  | some spec => do
    requireCoordinate decoded.channel spec.org.channels "channel"
    requireCoordinate decoded.pseudoChannel spec.org.pseudoChannels "pseudo_channel"
    requireCoordinate decoded.sid spec.org.sids "sid"
    requireCoordinate decoded.rank spec.org.ranks "rank"
    requireCoordinate decoded.bankGroup spec.org.bankGroups "bank_group"
    requireCoordinate decoded.bank spec.org.banksPerGroup "bank"
    requireCoordinate decoded.row spec.org.rows "row"
    requireCoordinate decoded.column spec.org.columns "column"

theorem validateDecodedAddress_eq_ok {spec : DramSpec} {decoded : DecodedAddress} :
    validateDecodedAddress (some spec) decoded = .ok () ↔ decoded.InBounds spec := by
  unfold validateDecodedAddress requireCoordinate
  simp only [bind_eq_ok, throwIf_eq_ok, exists_const, not_le]
  constructor
  · rintro ⟨channel, pseudoChannel, sid, rank, bankGroup, bank, row, column⟩
    exact ⟨channel, pseudoChannel, sid, rank, bankGroup, bank, row, column⟩
  · rintro ⟨channel, pseudoChannel, sid, rank, bankGroup, bank, row, column⟩
    exact ⟨channel, pseudoChannel, sid, rank, bankGroup, bank, row, column⟩

/-- `MemoryImage::physical_address`: given coordinates are checked, missing ones are decoded,
and without a spec the line number serves as the row. -/
def physicalAddress (lineSize : Nat) (spec : Option DramSpec) (options : StorageModelOptions)
    (address : Nat) (decoded : Option DecodedAddress) : Except Exception PhysicalAddress :=
  match decoded, spec with
  | some decoded, spec => do
    validateDecodedAddress spec decoded
    return placement lineSize spec options address decoded
  | none, some spec =>
    return placement lineSize (some spec) options address (decode spec (lineBase lineSize address))
  | none, none =>
    return placement lineSize none options address
      { row := lineBase lineSize address / lineSize % 2 ^ 31 }

/-! ### Stored lines -/

/-- One line of data with its masks, its history and its check bits. -/
structure DataBlock where
  bytes : ByteVector := []
  byteMask : ByteVector := []
  initializedMask : ByteVector := []
  initialized : Bool := false
  version : Nat := 0
  lastWriterRequestId : Nat := 0
  lastWriteCycle : Nat := 0
  lastAccessCycle : Nat := 0
  checksum : UInt32 := 0
  eccHamming : Nat := 0
  eccOverall : Bool := false
  eccParityBits : Nat := 0
  eccValid : Bool := false
  eccUncorrectable : Bool := false
  eccErrorInjections : Nat := 0
  physical : PhysicalAddress := {}
  storageKey : StorageKey := {}
  deriving DecidableEq, Repr

/-- What a backend keeps of a block. -/
structure BackendLine where
  bytes : ByteVector := []
  initializedMask : ByteVector := []
  initialized : Bool := false
  version : Nat := 0
  lastWriterRequestId : Nat := 0
  lastWriteCycle : Nat := 0
  lastAccessCycle : Nat := 0
  checksum : UInt32 := 0
  eccHamming : Nat := 0
  eccOverall : Bool := false
  eccParityBits : Nat := 0
  eccValid : Bool := false
  eccUncorrectable : Bool := false
  eccErrorInjections : Nat := 0
  storageKey : StorageKey := {}
  deriving DecidableEq, Repr

def backendLineFromBlock (block : DataBlock) : BackendLine where
  bytes := block.bytes
  initializedMask := block.initializedMask
  initialized := block.initialized
  version := block.version
  lastWriterRequestId := block.lastWriterRequestId
  lastWriteCycle := block.lastWriteCycle
  lastAccessCycle := block.lastAccessCycle
  checksum := block.checksum
  eccHamming := block.eccHamming
  eccOverall := block.eccOverall
  eccParityBits := block.eccParityBits
  eccValid := block.eccValid
  eccUncorrectable := block.eccUncorrectable
  eccErrorInjections := block.eccErrorInjections
  storageKey := block.storageKey

/-- The FNV-1a checksum of a byte vector. -/
def checksumBytes (bytes : ByteVector) : UInt32 :=
  bytes.foldl (fun hash byte => (hash ^^^ byte.toUInt32) * 16777619) 2166136261

def allMasked (mask : ByteVector) : Bool := mask.all (· ≠ 0)

end HbmSim
