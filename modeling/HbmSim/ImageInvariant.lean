/-
What a memory image holds. A flat content says for every address whether it was
written and with what value; an image holds that content when every copy of a
line that can still be read is sound for it.

A line has up to two copies, one in an open row buffer and one in the backend.
The buffered copy is always sound. The backend copy is sound unless a dirty open
row holds the line, because only then is it never read before the row's copy
replaces it. A sound copy either carries the content and fits its check bits, or
differs from it by the injected flip of bit 0 that its check bits still undo.
-/

import HbmSim.Image

namespace HbmSim

open Parity

/-! ### The content of one line -/

/-- What the image was built with; no operation changes it. -/
structure ImageConfig where
  lineSize : Nat
  defaultValue : UInt8
  spec : Option DramSpec
  options : StorageModelOptions

def MemoryImage.config {β : Type} (image : MemoryImage β) : ImageConfig :=
  ⟨image.lineSize, image.defaultValue, image.spec, image.options⟩

variable {config : ImageConfig} {flat other : Patch Nat UInt8} {base : Nat} {block : DataBlock}

/-- The bytes a read of the content returns: what was written, or the default. -/
def contentBytes (defaultValue : UInt8) (flat : Patch Nat UInt8) (start count : Nat) :
    ByteVector :=
  (List.range count).map fun index => (flat (start + index)).getD defaultValue

/-- The initialized mask of the content: `0xff` on the written bytes. -/
def contentMask (flat : Patch Nat UInt8) (start count : Nat) : ByteVector :=
  (List.range count).map fun index => if (flat (start + index)).isSome then 0xff else 0

def lineBytes (config : ImageConfig) (flat : Patch Nat UInt8) (base : Nat) : ByteVector :=
  contentBytes config.defaultValue flat base config.lineSize

def lineMask (config : ImageConfig) (flat : Patch Nat UInt8) (base : Nat) : ByteVector :=
  contentMask flat base config.lineSize

@[simp] theorem lineBytes_length : (lineBytes config flat base).length = config.lineSize := by
  unfold lineBytes contentBytes
  rw [List.length_map, List.length_range]

@[simp] theorem lineMask_length : (lineMask config flat base).length = config.lineSize := by
  unfold lineMask contentMask
  rw [List.length_map, List.length_range]

theorem lineMask_canonical : ∀ byte ∈ lineMask config flat base, byte = 0 ∨ byte = 0xff := by
  unfold lineMask contentMask
  intro byte member
  obtain ⟨index, -, rfl⟩ := List.mem_map.mp member
  split
  · exact Or.inr rfl
  · exact Or.inl rfl

/-- The check bits, when there are any, fit the bytes. -/
def DataBlock.Clean (block : DataBlock) : Prop :=
  block.eccValid = true → block.ShadowOf block.bytes

/-- The block carries the content of its line. -/
structure Settled (config : ImageConfig) (flat : Patch Nat UInt8) (base : Nat)
    (block : DataBlock) : Prop where
  bytes : block.bytes = lineBytes config flat base
  mask : block.initializedMask = lineMask config flat base
  clean : block.Clean

/-- The block carries the content of its line up to an injected flip of bit 0 that its check
bits still undo. -/
structure Flipped (config : ImageConfig) (flat : Patch Nat UInt8) (base : Nat)
    (block : DataBlock) : Prop where
  bytes : block.bytes = flipByteBit (lineBytes config flat base) 0
  mask : block.initializedMask = lineMask config flat base
  shadow : block.ShadowOf (lineBytes config flat base)
  switches : config.options.EccOn
  injecting : 0 < config.options.eccInjectPeriod

def Sound (config : ImageConfig) (flat : Patch Nat UInt8) (base : Nat) (block : DataBlock) :
    Prop :=
  Settled config flat base block ∨ Flipped config flat base block

theorem Sound.mask (sound : Sound config flat base block) :
    block.initializedMask = lineMask config flat base := by
  rcases sound with settled | flipped
  · exact settled.mask
  · exact flipped.mask

theorem Sound.length (sound : Sound config flat base block) :
    block.bytes.length = config.lineSize := by
  rcases sound with settled | flipped
  · rw [settled.bytes, lineBytes_length]
  · rw [flipped.bytes, flipByteBit_length, lineBytes_length]

theorem Sound.fits (sound : Sound config flat base block) :
    (backendLineFromBlock block).Fits config.lineSize where
  bytes := sound.length
  mask := by
    show block.initializedMask.length = config.lineSize
    rw [sound.mask, lineMask_length]
  canonical := by
    show ∀ byte ∈ block.initializedMask, byte = 0 ∨ byte = 0xff
    rw [sound.mask]
    exact lineMask_canonical

/-- Soundness only depends on the content of the line. -/
theorem lineBytes_congr (same : ∀ index < config.lineSize,
    flat (base + index) = other (base + index)) :
    lineBytes config flat base = lineBytes config other base ∧
      lineMask config flat base = lineMask config other base := by
  unfold lineBytes lineMask contentBytes contentMask
  constructor <;> refine List.map_congr_left fun index member => ?_ <;>
    rw [same index (List.mem_range.mp member)]

theorem Sound.congr (sound : Sound config flat base block)
    (same : ∀ index < config.lineSize, flat (base + index) = other (base + index)) :
    Sound config other base block := by
  obtain ⟨bytes, mask⟩ : lineBytes config flat base = lineBytes config other base ∧
      lineMask config flat base = lineMask config other base := lineBytes_congr same
  rcases sound with settled | flipped
  · exact Or.inl ⟨settled.bytes.trans bytes, settled.mask.trans mask, settled.clean⟩
  · refine Or.inr ⟨?_, flipped.mask.trans mask, ?_, flipped.switches, flipped.injecting⟩
    · rw [← bytes]
      exact flipped.bytes
    · rw [← bytes]
      exact flipped.shadow

/-- Soundness looks at the bytes, the initialized mask and the check bits only. -/
theorem Sound.of_same {copy : DataBlock} (sound : Sound config flat base block)
    (bytes : copy.bytes = block.bytes) (mask : copy.initializedMask = block.initializedMask)
    (hamming : copy.eccHamming = block.eccHamming) (overall : copy.eccOverall = block.eccOverall)
    (valid : copy.eccValid = block.eccValid) : Sound config flat base copy := by
  rcases sound with settled | flipped
  · refine Or.inl ⟨bytes.trans settled.bytes, mask.trans settled.mask, fun isValid => ?_⟩
    have shadow := settled.clean (valid ▸ isValid)
    exact ⟨isValid, by rw [hamming, bytes, shadow.hamming], by rw [overall, bytes, shadow.overall]⟩
  · refine Or.inr ⟨bytes.trans flipped.bytes, mask.trans flipped.mask, ?_, flipped.switches,
      flipped.injecting⟩
    exact ⟨valid.trans flipped.shadow.valid, hamming.trans flipped.shadow.hamming,
      overall.trans flipped.shadow.overall⟩

/-! ### Checking and protecting a line -/

/-- A check never touches the masks or the place of a block. -/
theorem checkEccShadow_frame (options : StorageModelOptions) (block : DataBlock)
    (counters : EccCounters) :
    (checkEccShadow options block counters).1.initializedMask = block.initializedMask ∧
      (checkEccShadow options block counters).1.physical = block.physical := by
  unfold checkEccShadow
  split
  · exact ⟨rfl, rfl⟩
  dsimp only
  split
  · exact ⟨rfl, rfl⟩
  split
  · exact ⟨rfl, rfl⟩
  split
  · exact ⟨rfl, rfl⟩
  split
  · exact ⟨rfl, rfl⟩
  split
  · split
    · exact ⟨rfl, rfl⟩
    · unfold refreshEccShadow
      split <;> exact ⟨rfl, rfl⟩
  · exact ⟨rfl, rfl⟩

/-- Position 3, where bit 0 sits, has an even number of set bits. -/
theorem oddBelow_bit_zero (width : Nat) (fits : codePositionForDataBit 0 < 2 ^ width) :
    oddBelow width (codePositionForDataBit 0) = false := by
  rw [oddBelow_eq_false_iff fits]
  decide

/-- Checking a sound line yields its content: the injected flip is repaired. -/
theorem Sound.check (sound : Sound config flat base block) (positive : 0 < config.lineSize)
    (counters : EccCounters) :
    Settled config flat base (checkEccShadow config.options block counters).1 := by
  have frame := (checkEccShadow_frame config.options block counters).1
  rcases sound with settled | flipped
  · rw [checkEccShadow_clean counters settled.clean]
    exact settled
  · have inside : 0 < (lineBytes config flat base).length * 8 := by
      rw [lineBytes_length]
      omega
    obtain ⟨syndrome, mismatch⟩ := flip_syndrome flipped.shadow inside flipped.bytes
    rw [oddBelow_bit_zero _ (codePositionForDataBit_lt inside)] at mismatch
    have lengths : block.bytes.length = (lineBytes config flat base).length := by
      rw [flipped.bytes, flipByteBit_length]
    obtain ⟨restored, -, -, shadow⟩ := checkEccShadow_repair counters flipped.switches
      flipped.shadow (by rw [lengths]; exact inside) syndrome mismatch
    rw [flipped.bytes, flipByteBit_flipByteBit] at restored shadow
    exact ⟨restored, frame.trans flipped.mask, fun _ => restored ▸ shadow⟩

/-- A freshly protected line is sound, whether or not the injector fired on it. -/
theorem Sound.protect {β : Type} {image : MemoryImage β}
    (bytes : block.bytes = lineBytes image.config flat base)
    (mask : block.initializedMask = lineMask image.config flat base)
    (switches : image.options.eccInjectPeriod ≤ 0 ∨ image.options.EccOn) :
    Sound image.config flat base (image.protect block).1 := by
  have refreshedClean : (refreshEccShadow image.options block image.counters).1.Clean := by
    intro valid
    by_cases enabled : image.options.eccShadowEnabled = true
    · rw [refreshEccShadow_bytes]
      exact refreshEccShadow_shadowOf enabled block image.counters
    · unfold refreshEccShadow at valid
      rw [if_pos (Bool.eq_false_of_not_eq_true enabled)] at valid
      cases valid
  have refreshedShadow := fun enabled =>
    @refreshEccShadow_shadowOf image.options enabled block image.counters
  have refreshedMask : (refreshEccShadow image.options block image.counters).1.initializedMask =
      block.initializedMask := by
    unfold refreshEccShadow
    split <;> rfl
  have refreshedBytes := refreshEccShadow_bytes image.options block image.counters
  unfold MemoryImage.protect
  generalize refreshEccShadow image.options block image.counters = refreshed at *
  dsimp only
  unfold maybeInjectEccError
  split
  next => exact Or.inl ⟨refreshedBytes.trans bytes, refreshedMask.trans mask, refreshedClean⟩
  next injecting =>
    simp only [not_or, Bool.not_eq_false, not_le] at injecting
    have on : image.options.EccOn := switches.resolve_left (not_le.mpr injecting.2)
    split
    next => exact Or.inl ⟨refreshedBytes.trans bytes, refreshedMask.trans mask, refreshedClean⟩
    next =>
      have shadow := refreshedShadow injecting.1
      refine Or.inr ⟨?_, refreshedMask.trans mask, ?_, on, injecting.2⟩
      · exact congrArg (flipByteBit · 0) (refreshedBytes.trans bytes)
      · rw [← bytes]
        exact ⟨shadow.valid, shadow.hamming, shadow.overall⟩

/-! ### Where lines live -/

/-- The image belongs to an accepted, separating spec, and the injector only runs with every
error-correction switch on. -/
structure ImageConfig.Valid (config : ImageConfig) (spec : DramSpec) : Prop where
  hasSpec : config.spec = some spec
  positive : spec.org.Positive
  separating : spec.Separating
  lineSize : config.lineSize = spec.transactionBytes
  switches : config.options.eccInjectPeriod ≤ 0 ∨ config.options.EccOn

/-- The key of the coordinates. -/
def keyOf (options : StorageModelOptions) (decoded : DecodedAddress) : StorageKey where
  stack := options.stackId
  channel := decoded.channel
  pseudoChannel := decoded.pseudoChannel
  sid := decoded.sid
  rank := decoded.rank
  bankGroup := decoded.bankGroup
  bank := decoded.bank
  row := some decoded.row
  column := some decoded.column

theorem keyOf_injective {options : StorageModelOptions} {left right : DecodedAddress}
    (same : keyOf options left = keyOf options right) : left = right := by
  cases left
  cases right
  unfold keyOf at same
  simp only [StorageKey.mk.injEq, Option.some.injEq, true_and] at same
  simp only [DecodedAddress.mk.injEq]
  exact same

/-- The key a line's own coordinates give it. -/
def lineKey (config : ImageConfig) (spec : DramSpec) (base : Nat) : StorageKey :=
  keyOf config.options (decode spec base)

/-- A line of the geometry. -/
structure InGeometry (config : ImageConfig) (spec : DramSpec) (base : Nat) : Prop where
  aligned : base % config.lineSize = 0
  inside : base < spec.capacityOf

variable {spec : DramSpec}

theorem ImageConfig.Valid.lineSize_pos (valid : config.Valid spec) : 0 < config.lineSize := by
  rw [valid.lineSize]
  exact transactionBytes_pos spec

/-- Two lines of the geometry with one key are the same line. -/
theorem lineKey_injective (valid : config.Valid spec) {left right : Nat}
    (leftIn : InGeometry config spec left) (rightIn : InGeometry config spec right)
    (same : lineKey config spec left = lineKey config spec right) : left = right := by
  have quotients := decode_injective valid.positive valid.separating leftIn.inside rightIn.inside
    (keyOf_injective same)
  rw [← valid.lineSize] at quotients
  have leftParts := Nat.div_add_mod left config.lineSize
  have rightParts := Nat.div_add_mod right config.lineSize
  rw [leftIn.aligned, quotients] at leftParts
  rw [rightIn.aligned] at rightParts
  omega

/-- Two lines of the geometry in one row and one column are the same line. -/
theorem line_eq (valid : config.Valid spec) {left right : Nat}
    (leftIn : InGeometry config spec left) (rightIn : InGeometry config spec right)
    (row : rowKeyFromStorageKey (lineKey config spec left) =
      rowKeyFromStorageKey (lineKey config spec right))
    (column : (decode spec left).column = (decode spec right).column) : left = right := by
  refine lineKey_injective valid leftIn rightIn ?_
  unfold rowKeyFromStorageKey at row
  unfold lineKey keyOf at row ⊢
  simp only [StorageKey.mk.injEq] at row ⊢
  rw [column]
  tauto

section Image

variable {β : Type} {image after : MemoryImage β}

theorem setRowBuffer_lookup (bankKey : StorageKey) (entry : RowBufferEntry) :
    (image.setRowBuffer bankKey entry).rowBuffers.lookup bankKey = some entry :=
  AList.lookup_insert image.rowBuffers

theorem setRowBuffer_setRowBuffer (bankKey : StorageKey) (entry other : RowBufferEntry) :
    (image.setRowBuffer bankKey entry).setRowBuffer bankKey other =
      image.setRowBuffer bankKey other := by
  unfold MemoryImage.setRowBuffer
  rw [AList.insert_insert]

theorem setRowBuffer_account (bankKey : StorageKey) (entry : RowBufferEntry)
    (counters : EccCounters) (version : Nat) :
    (image.setRowBuffer bankKey entry).account counters version =
      (image.account counters version).setRowBuffer bankKey entry := rfl

theorem lineSize_eq (same : after.config = image.config) : after.lineSize = image.lineSize :=
  congrArg ImageConfig.lineSize same

theorem physicalAddress_of_spec (given : image.spec = some spec) {decoded : DecodedAddress}
    (bounds : decoded.InBounds spec) (address : Nat) :
    image.physicalAddress address (some decoded) =
      .ok (placement image.lineSize (some spec) image.options address decoded) := by
  unfold MemoryImage.physicalAddress physicalAddress
  rw [given]
  dsimp only
  rw [validateDecodedAddress_eq_ok.mpr bounds]
  rfl

theorem storageKey_of_spec (given : image.spec = some spec) {decoded : DecodedAddress}
    (bounds : decoded.InBounds spec) (address : Nat) :
    image.storageKey address (some decoded) = .ok (keyOf image.options decoded) := by
  unfold MemoryImage.storageKey
  rw [physicalAddress_of_spec given bounds]
  rfl

theorem physicalAddress_ok (valid : image.config.Valid spec) {decoded : DecodedAddress}
    (bounds : decoded.InBounds spec) (address : Nat) :
    image.physicalAddress address (some decoded) =
      .ok (placement image.lineSize (some spec) image.options address decoded) :=
  physicalAddress_of_spec valid.hasSpec bounds address

theorem storageKey_line (valid : image.config.Valid spec) (base : Nat) :
    image.storageKey base (some (decode spec base)) = .ok (lineKey image.config spec base) :=
  storageKey_of_spec valid.hasSpec (decode_inBounds valid.positive base) base

/-! ### The invariant -/

variable [MemoryBackend β]

/-- The backend's copy of a line is sound: what it stores carries the content, and a line it
does not store was never written. -/
def StoredSound (image : MemoryImage β) (flat : Patch Nat UInt8) (base : Nat) : Prop :=
  ∀ found, MemoryBackend.load image.backend base = .ok found →
    match found with
    | some line =>
      Sound image.config flat base (MemoryImage.blockFromBackendLine image.lineSize line)
    | none => ∀ index < image.lineSize, flat (base + index) = none

/-- A written open row holds a copy of the line. -/
structure RowBufferEntry.DirtyFor (entry : RowBufferEntry) (config : ImageConfig)
    (spec : DramSpec) (base : Nat) : Prop where
  isOpen : entry.open = true
  row : entry.rowKey = rowKeyFromStorageKey (lineKey config spec base)
  dirty : entry.dirty = true
  held : entry.columns.lookup (decode spec base).column ≠ none

/-- The bank of a line. -/
def bankOf (config : ImageConfig) (spec : DramSpec) (base : Nat) : StorageKey :=
  bankKeyFromStorageKey (lineKey config spec base)

/-- Some written open row holds the line, so the backend's copy is stale. -/
def HeldDirty (image : MemoryImage β) (spec : DramSpec) (base : Nat) : Prop :=
  ∃ entry, image.rowBuffers.lookup (bankOf image.config spec base) = some entry ∧
    entry.DirtyFor image.config spec base

/-- One buffered copy: it belongs to a line of the open row, knows where to go back to, and is
sound. -/
structure BufferedSound (config : ImageConfig) (spec : DramSpec) (flat : Patch Nat UInt8)
    (rowKey : StorageKey) (column : Nat) (block : DataBlock) (base : Nat) : Prop where
  inside : InGeometry config spec base
  row : rowKeyFromStorageKey (lineKey config spec base) = rowKey
  column : (decode spec base).column = column
  home : block.physical.logicalLineBase = base
  sound : Sound config flat base block

/-- The image holds the content. -/
structure Holds (image : MemoryImage β) (spec : DramSpec) (flat : Patch Nat UInt8) : Prop where
  valid : image.config.Valid spec
  backendLine : MemoryBackend.lineSize image.backend = image.lineSize
  bank : ∀ bankKey entry, image.rowBuffers.lookup bankKey = some entry → entry.open = true →
    bankKeyFromStorageKey entry.rowKey = bankKey
  buffered : ∀ bankKey entry, image.rowBuffers.lookup bankKey = some entry → entry.open = true →
    ∀ column block, entry.columns.lookup column = some block →
      ∃ base, BufferedSound image.config spec flat entry.rowKey column block base
  stored : ∀ base, InGeometry image.config spec base → ¬ HeldDirty image spec base →
    StoredSound image flat base

/-- A row buffer is good for the content when its open row belongs to the bank and all its copies
are sound. -/
structure RowBufferEntry.Good (entry : RowBufferEntry) (config : ImageConfig) (spec : DramSpec)
    (flat : Patch Nat UInt8) (bankKey : StorageKey) : Prop where
  bank : entry.open = true → bankKeyFromStorageKey entry.rowKey = bankKey
  buffered : entry.open = true → ∀ column block, entry.columns.lookup column = some block →
    ∃ base, BufferedSound config spec flat entry.rowKey column block base

theorem Holds.good {flat : Patch Nat UInt8} {bankKey : StorageKey} {entry : RowBufferEntry}
    (holds : Holds image spec flat) (found : image.rowBuffers.lookup bankKey = some entry) :
    entry.Good image.config spec flat bankKey :=
  ⟨holds.bank bankKey entry found, holds.buffered bankKey entry found⟩

/-- The counters and the next version are no part of the content. -/
theorem Holds.account {flat : Patch Nat UInt8} (holds : Holds image spec flat)
    (counters : EccCounters) (version : Nat) : Holds (image.account counters version) spec flat :=
  ⟨holds.valid, holds.backendLine, holds.bank, holds.buffered, holds.stored⟩

/-! ### Replacing the row buffer of one bank -/

/-- Soundness of a stored copy carries over to an image that loads the same line. -/
theorem StoredSound.of_load {flat : Patch Nat UInt8} {base : Nat}
    (sound : StoredSound image flat base) (config : after.config = image.config)
    (same : MemoryBackend.load after.backend base = MemoryBackend.load image.backend base) :
    StoredSound after flat base := by
  intro found loads
  rw [same] at loads
  have before := sound found loads
  rw [lineSize_eq config, config]
  exact before

theorem StoredSound.congr {flat other : Patch Nat UInt8} {base : Nat}
    (sound : StoredSound image flat base)
    (same : ∀ index < image.lineSize, flat (base + index) = other (base + index)) :
    StoredSound image other base := by
  intro found loads
  have before := sound found loads
  cases found with
  | some line => exact Sound.congr before same
  | none =>
    intro index inside
    rw [← same index inside]
    exact before index inside

theorem BufferedSound.congr {rowKey : StorageKey} {column : Nat} {flat other : Patch Nat UInt8}
    (buffered : BufferedSound config spec flat rowKey column block base)
    (same : ∀ index < config.lineSize, flat (base + index) = other (base + index)) :
    BufferedSound config spec other rowKey column block base :=
  { buffered with sound := buffered.sound.congr same }

theorem BufferedSound.bankOf_eq {rowKey : StorageKey} {column : Nat} {flat : Patch Nat UInt8}
    (buffered : BufferedSound config spec flat rowKey column block base) :
    bankOf config spec base = bankKeyFromStorageKey rowKey := by
  rw [← buffered.row]
  rfl

/-- Replace one bank's row buffer, and possibly some backend lines and the content of that bank's
lines: the image holds the new content when the new row buffer is good, the bank's lines that it
does not hold dirty are sound in the backend, and the other banks' lines kept their content and
their sound backend copies. -/
theorem Holds.replace {middle : MemoryImage β} {flat other : Patch Nat UInt8}
    {bankKey : StorageKey} {entry : RowBufferEntry} (holds : Holds image spec flat)
    (config : middle.config = image.config)
    (backendLine : MemoryBackend.lineSize middle.backend = MemoryBackend.lineSize image.backend)
    (rowBuffers : middle.rowBuffers = image.rowBuffers.insert bankKey entry)
    (good : entry.Good image.config spec other bankKey)
    (sameElsewhere : ∀ base, InGeometry image.config spec base →
      bankOf image.config spec base ≠ bankKey →
      ∀ index < image.lineSize, flat (base + index) = other (base + index))
    (storedHere : ∀ base, InGeometry image.config spec base →
      bankOf image.config spec base = bankKey → ¬ entry.DirtyFor image.config spec base →
      StoredSound middle other base)
    (storedElsewhere : ∀ base, InGeometry image.config spec base →
      bankOf image.config spec base ≠ bankKey → StoredSound image flat base →
      StoredSound middle flat base) :
    Holds middle spec other := by
  have entries : ∀ key found, middle.rowBuffers.lookup key = some found →
      found.Good image.config spec other key := by
    intro key found lookup
    rw [rowBuffers] at lookup
    by_cases here : key = bankKey
    · rw [here, AList.lookup_insert, Option.some.injEq] at lookup
      rw [here, ← lookup]
      exact good
    · rw [AList.lookup_insert_ne here] at lookup
      have before := holds.good lookup
      refine ⟨before.bank, fun isOpen column block held => ?_⟩
      obtain ⟨base, buffered⟩ := before.buffered isOpen column block held
      refine ⟨base, buffered.congr (sameElsewhere base buffered.inside ?_)⟩
      rw [buffered.bankOf_eq, before.bank isOpen]
      exact here
  constructor
  · rw [config]
    exact holds.valid
  · rw [backendLine, holds.backendLine, lineSize_eq config]
  · exact fun key found lookup => (entries key found lookup).bank
  · rw [config]
    exact fun key found lookup => (entries key found lookup).buffered
  · rw [config]
    intro base inside notHeld
    unfold HeldDirty at notHeld
    rw [config, rowBuffers] at notHeld
    by_cases here : bankOf image.config spec base = bankKey
    · refine storedHere base inside here fun dirty => notHeld ⟨entry, ?_, dirty⟩
      rw [here, AList.lookup_insert]
    · have before : ¬ HeldDirty image spec base := by
        rintro ⟨found, lookup, dirty⟩
        refine notHeld ⟨found, ?_, dirty⟩
        rw [AList.lookup_insert_ne here]
        exact lookup
      have stored := storedElsewhere base inside here (holds.stored base inside before)
      refine stored.congr fun index small => sameElsewhere base inside here index ?_
      rwa [lineSize_eq config] at small

/-- Opening an empty row in a bank with no open row keeps the content. -/
theorem openRow_holds {flat : Patch Nat UInt8} {bankKey : StorageKey} {entry : RowBufferEntry}
    (holds : Holds image spec flat)
    (closed : ∀ found, image.rowBuffers.lookup bankKey = some found → found.open = false)
    (bank : bankKeyFromStorageKey entry.rowKey = bankKey) (empty : entry.columns = ∅) :
    Holds (image.setRowBuffer bankKey entry) spec flat := by
  refine holds.replace rfl rfl rfl ⟨fun _ => bank, fun _ column block held => ?_⟩
    (fun _ _ _ _ _ => rfl) ?_ fun _ _ _ before => before
  · rw [empty, AList.lookup_empty] at held
    cases held
  · intro base inside here _
    refine (holds.stored base inside ?_).of_load rfl rfl
    rintro ⟨found, lookup, dirty⟩
    rw [here] at lookup
    have isOpen := dirty.isOpen
    rw [closed found lookup] at isOpen
    cases isOpen

/-! ### Storing lines -/

/-- What storing lines leaves alone: everything but the backend's lines. -/
structure StoreFrame (image after : MemoryImage β) : Prop where
  config : after.config = image.config
  rowBuffers : after.rowBuffers = image.rowBuffers
  nextVersion : after.nextVersion = image.nextVersion
  counters : after.counters = image.counters
  backendLine : MemoryBackend.lineSize after.backend = MemoryBackend.lineSize image.backend

theorem StoreFrame.refl (image : MemoryImage β) : StoreFrame image image :=
  ⟨rfl, rfl, rfl, rfl, rfl⟩

theorem StoreFrame.trans {middle : MemoryImage β} (first : StoreFrame image middle)
    (second : StoreFrame middle after) : StoreFrame image after where
  config := second.config.trans first.config
  rowBuffers := second.rowBuffers.trans first.rowBuffers
  nextVersion := second.nextVersion.trans first.nextVersion
  counters := second.counters.trans first.counters
  backendLine := second.backendLine.trans first.backendLine

variable [LawfulMemoryBackend β]

/-- Storing a block touches no other line, and the backend's copy is sound for every content the
block is sound for. -/
theorem storeBackendLine_spec {base : Nat} {block : DataBlock}
    (returns : image.storeBackendLine base block = .ok after)
    (backendLine : MemoryBackend.lineSize image.backend = image.lineSize) :
    StoreFrame image after ∧
      (∀ flat, Sound image.config flat base block → StoredSound after flat base) ∧
      ∀ other, other ≠ base →
        MemoryBackend.load after.backend other = MemoryBackend.load image.backend other := by
  unfold MemoryImage.storeBackendLine at returns
  obtain ⟨⟨inserted, backend⟩, stored, returned⟩ := bind_eq_ok.mp returns
  cases returned
  obtain ⟨line, loaded, others⟩ := LawfulMemoryBackend.store_ok _ _ _ _ _ stored
  refine ⟨⟨rfl, rfl, rfl, rfl, line⟩, ?_, others⟩
  intro flat sound found loads
  have fits : (backendLineFromBlock block).Fits (MemoryBackend.lineSize image.backend) := by
    rw [backendLine]
    exact sound.fits
  rw [loaded fits] at loads
  cases loads
  exact sound.of_same rfl rfl rfl rfl rfl

/-- Writing a list of buffered lines back keeps every sound backend copy sound and makes those of
the listed lines sound. -/
theorem storeColumns_spec {flat : Patch Nat UInt8} {cycle : Nat} (blocks : List DataBlock)
    (returns : blocks.foldlM (MemoryImage.storeColumn cycle) image = .ok after)
    (backendLine : MemoryBackend.lineSize image.backend = image.lineSize)
    (sound : ∀ block ∈ blocks, Sound image.config flat block.physical.logicalLineBase block) :
    StoreFrame image after ∧
      ∀ base, StoredSound image flat base ∨
          (∃ block ∈ blocks, block.physical.logicalLineBase = base) →
        StoredSound after flat base := by
  induction blocks generalizing image with
  | nil =>
    cases returns
    refine ⟨StoreFrame.refl _, fun base either => ?_⟩
    rcases either with before | ⟨_, member, -⟩
    · exact before
    · cases member
  | cons block rest inductionHypothesis =>
    rw [List.foldlM_cons] at returns
    obtain ⟨middle, stored, remaining⟩ := bind_eq_ok.mp returns
    have blockSound : Sound image.config flat block.physical.logicalLineBase
        (MemoryImage.refreshLineMetadata { block with lastAccessCycle := cycle }) :=
      (sound block List.mem_cons_self).of_same rfl rfl rfl rfl rfl
    obtain ⟨frame, storedHere, others⟩ := storeBackendLine_spec stored backendLine
    have restSound : ∀ other ∈ rest,
        Sound middle.config flat other.physical.logicalLineBase other := by
      intro other member
      rw [frame.config]
      exact sound other (List.mem_cons_of_mem block member)
    have middleLine : MemoryBackend.lineSize middle.backend = middle.lineSize := by
      rw [frame.backendLine, backendLine, lineSize_eq frame.config]
    obtain ⟨restFrame, restStored⟩ := inductionHypothesis remaining middleLine restSound
    refine ⟨frame.trans restFrame, fun base either => restStored base ?_⟩
    by_cases here : base = block.physical.logicalLineBase
    · exact Or.inl (here ▸ storedHere flat blockSound)
    · rcases either with before | ⟨other, member, home⟩
      · exact Or.inl (before.of_load frame.config (others base here))
      · rcases List.mem_cons.mp member with equal | inRest
        · exact absurd (equal ▸ home.symm) here
        · exact Or.inr ⟨other, inRest, home⟩

/-! ### Closing, opening and flushing rows -/

/-- The buffered lines of an open row, as the list a write-back stores. -/
theorem RowBufferEntry.Good.sound {entry : RowBufferEntry} {flat : Patch Nat UInt8}
    {bankKey : StorageKey} (good : entry.Good config spec flat bankKey)
    (isOpen : entry.open = true) :
    ∀ block ∈ entry.columns.entries.map Sigma.snd,
      Sound config flat block.physical.logicalLineBase block := by
  intro block member
  obtain ⟨⟨column, held⟩, inColumns, rfl⟩ := List.mem_map.mp member
  obtain ⟨base, buffered⟩ := good.buffered isOpen column held (AList.mem_lookup_iff.mpr inColumns)
  show Sound config flat held.physical.logicalLineBase held
  rw [buffered.home]
  exact buffered.sound

/-- A line that a dirty row holds is in the list a write-back stores. -/
theorem RowBufferEntry.Good.home {entry : RowBufferEntry} {flat : Patch Nat UInt8}
    {bankKey : StorageKey} (good : entry.Good config spec flat bankKey) (valid : config.Valid spec)
    {base : Nat} (inside : InGeometry config spec base) (dirty : entry.DirtyFor config spec base) :
    ∃ block ∈ entry.columns.entries.map Sigma.snd, block.physical.logicalLineBase = base := by
  obtain ⟨block, held⟩ := Option.ne_none_iff_exists'.mp dirty.held
  obtain ⟨other, buffered⟩ := good.buffered dirty.isOpen _ block held
  refine ⟨block, List.mem_map.mpr ⟨⟨_, block⟩, AList.mem_lookup_iff.mp held, rfl⟩, ?_⟩
  rw [buffered.home]
  exact line_eq valid buffered.inside inside (buffered.row.trans dirty.row) buffered.column

/-- After its dirty lines are stored, every line of the bank is sound in the backend. -/
theorem storeColumns_bank {flat : Patch Nat UInt8} {bankKey : StorageKey} {entry : RowBufferEntry}
    {cycle : Nat} (holds : Holds image spec flat)
    (found : image.rowBuffers.lookup bankKey = some entry) (isOpen : entry.open = true)
    (returns : (entry.columns.entries.map Sigma.snd).foldlM (MemoryImage.storeColumn cycle) image =
      .ok after) :
    StoreFrame image after ∧
      (∀ base, InGeometry image.config spec base → bankOf image.config spec base = bankKey →
        StoredSound after flat base) ∧
      ∀ base, StoredSound image flat base → StoredSound after flat base := by
  have good := holds.good found
  obtain ⟨frame, stored⟩ := storeColumns_spec _ returns holds.backendLine (good.sound isOpen)
  refine ⟨frame, fun base inside here => ?_, fun base before => stored base (Or.inl before)⟩
  by_cases held : HeldDirty image spec base
  · obtain ⟨other, lookup, dirty⟩ := held
    rw [here, found, Option.some.injEq] at lookup
    rw [← lookup] at dirty
    exact stored base (Or.inr (good.home holds.valid inside dirty))
  · exact stored base (Or.inl (holds.stored base inside held))

/-- Closing a row keeps the content. -/
theorem writebackRowBuffer_holds {flat : Patch Nat UInt8} {bankKey : StorageKey} {cycle : Nat}
    (holds : Holds image spec flat)
    (returns : image.writebackRowBuffer bankKey cycle = .ok after) :
    Holds after spec flat ∧ after.config = image.config ∧
      ∀ entry, after.rowBuffers.lookup bankKey = some entry → entry.open = false := by
  unfold MemoryImage.writebackRowBuffer at returns
  cases found : image.rowBuffers.lookup bankKey with
  | none =>
    rw [found] at returns
    cases returns
    refine ⟨holds, rfl, fun entry lookup => ?_⟩
    rw [found] at lookup
    cases lookup
  | some entry =>
    rw [found] at returns
    dsimp only at returns
    by_cases closed : entry.open = false
    · rw [if_pos closed] at returns
      cases returns
      refine ⟨holds, rfl, fun other lookup => ?_⟩
      rw [found, Option.some.injEq] at lookup
      rw [← lookup]
      exact closed
    rw [if_neg closed] at returns
    have isOpen := (Bool.not_eq_false _).mp closed
    have closedGood : (RowBufferEntry.Good
        { entry with dirty := false, «open» := false, columns := ∅ } image.config spec flat
        bankKey) :=
      ⟨fun isOpen => Bool.noConfusion isOpen, fun isOpen => Bool.noConfusion isOpen⟩
    by_cases clean : entry.dirty = false
    · rw [if_pos clean] at returns
      cases returns
      refine ⟨holds.replace rfl rfl rfl closedGood (fun _ _ _ _ _ => rfl) ?_
        fun _ _ _ before => before, rfl, fun other lookup => ?_⟩
      · intro base inside here _
        refine (holds.stored base inside ?_).of_load rfl rfl
        rintro ⟨other, lookup, dirty⟩
        rw [here, found, Option.some.injEq] at lookup
        rw [← lookup] at dirty
        have written := dirty.dirty
        rw [clean] at written
        cases written
      · rw [setRowBuffer_lookup, Option.some.injEq] at lookup
        rw [← lookup]
    · rw [if_neg clean] at returns
      obtain ⟨middle, stores, returned⟩ := bind_eq_ok.mp returns
      cases returned
      obtain ⟨frame, bankStored, allStored⟩ := storeColumns_bank holds found isOpen stores
      refine ⟨holds.replace frame.config frame.backendLine
        (congrArg (AList.insert bankKey _) frame.rowBuffers) closedGood
        (fun _ _ _ _ _ => rfl) ?_ ?_, frame.config, fun other lookup => ?_⟩
      · exact fun base inside here _ => (bankStored base inside here).of_load rfl rfl
      · exact fun base _ _ before => (allStored base before).of_load rfl rfl
      · rw [setRowBuffer_lookup, Option.some.injEq] at lookup
        rw [← lookup]

theorem prechargeBank_holds {flat : Patch Nat UInt8} {decoded : DecodedAddress} {cycle : Nat}
    (holds : Holds image spec flat) (returns : image.prechargeBank decoded cycle = .ok after) :
    Holds after spec flat ∧ after.config = image.config := by
  obtain ⟨_, -, closes⟩ := bind_eq_ok.mp returns
  obtain ⟨closed, config, -⟩ := writebackRowBuffer_holds holds closes
  exact ⟨closed, config⟩

/-- Closing a list of rows keeps the content. -/
theorem writebackAll_holds {flat : Patch Nat UInt8} {cycle : Nat} (targets : List StorageKey)
    (holds : Holds image spec flat) (returns : image.writebackAll targets cycle = .ok after) :
    Holds after spec flat ∧ after.config = image.config := by
  refine foldlM_keeps (fun middle : MemoryImage β => Holds middle spec flat ∧
    middle.config = image.config) ?_ targets ⟨holds, rfl⟩ returns
  rintro middle bankKey next ⟨kept, config⟩ closes
  obtain ⟨closed, same, -⟩ := writebackRowBuffer_holds kept closes
  exact ⟨closed, same.trans config⟩

theorem prechargeAll_holds {flat : Patch Nat UInt8} {decoded : DecodedAddress} {cycle : Nat}
    (holds : Holds image spec flat) (returns : image.prechargeAll decoded cycle = .ok after) :
    Holds after spec flat ∧ after.config = image.config := by
  obtain ⟨_, -, closes⟩ := bind_eq_ok.mp returns
  exact writebackAll_holds _ holds closes

theorem flushAllRowBuffers_holds {flat : Patch Nat UInt8} {cycle : Nat}
    (holds : Holds image spec flat) (returns : image.flushAllRowBuffers cycle = .ok after) :
    Holds after spec flat ∧ after.config = image.config :=
  writebackAll_holds _ holds returns

theorem activateRow_holds {flat : Patch Nat UInt8} {decoded : DecodedAddress} {cycle : Nat}
    (holds : Holds image spec flat) (returns : image.activateRow decoded cycle = .ok after) :
    Holds after spec flat ∧ after.config = image.config := by
  unfold MemoryImage.activateRow at returns
  obtain ⟨_, -, returns⟩ := bind_eq_ok.mp returns
  dsimp only at returns
  have bank : bankKeyFromStorageKey (image.rowKeyFromDecoded decoded) =
      image.bankKeyFromDecoded decoded := rfl
  generalize image.bankKeyFromDecoded decoded = bankKey at *
  generalize image.rowKeyFromDecoded decoded = rowKey at *
  cases found : image.rowBuffers.lookup bankKey with
  | none =>
    rw [found] at returns
    cases returns
    refine ⟨openRow_holds holds (fun entry lookup => ?_) bank rfl, rfl⟩
    rw [found] at lookup
    cases lookup
  | some entry =>
    rw [found, Option.getD_some] at returns
    split at returns
    next same =>
      cases returns
      have good := holds.good found
      refine ⟨holds.replace rfl rfl rfl ⟨good.bank, good.buffered⟩
        (fun _ _ _ _ _ => rfl) ?_ fun _ _ _ before => before, rfl⟩
      intro base inside here notDirty
      refine (holds.stored base inside ?_).of_load rfl rfl
      rintro ⟨other, lookup, dirty⟩
      rw [here, found, Option.some.injEq] at lookup
      rw [← lookup] at dirty
      exact notDirty ⟨dirty.isOpen, dirty.row, dirty.dirty, dirty.held⟩
    next =>
      split at returns
      next isOpen =>
        obtain ⟨middle, closes, returned⟩ := bind_eq_ok.mp returns
        cases returned
        obtain ⟨closed, config, isClosed⟩ := writebackRowBuffer_holds holds closes
        exact ⟨openRow_holds closed isClosed bank rfl, config⟩
      next notOpen =>
        cases returns
        refine ⟨openRow_holds holds (fun other lookup => ?_) bank rfl, rfl⟩
        rw [found, Option.some.injEq] at lookup
        rw [← lookup]
        exact Bool.eq_false_of_not_eq_true notOpen

/-- Flushing one bank keeps the content; the row stays open with the same copies. -/
theorem flushRowBuffer_holds {flat : Patch Nat UInt8} {bankKey : StorageKey} {cycle : Nat}
    (holds : Holds image spec flat)
    (returns : MemoryImage.flushRowBuffer cycle image bankKey = .ok after) :
    Holds after spec flat ∧ after.config = image.config := by
  unfold MemoryImage.flushRowBuffer at returns
  cases found : image.rowBuffers.lookup bankKey with
  | none =>
    rw [found] at returns
    cases returns
    exact ⟨holds, rfl⟩
  | some entry =>
    rw [found] at returns
    dsimp only at returns
    split at returns
    next =>
      cases returns
      exact ⟨holds, rfl⟩
    next written =>
      simp only [not_or, Bool.not_eq_false] at written
      obtain ⟨middle, stores, returned⟩ := bind_eq_ok.mp returns
      cases returned
      obtain ⟨frame, bankStored, allStored⟩ := storeColumns_bank holds found written.1 stores
      have good := holds.good found
      refine ⟨holds.replace frame.config frame.backendLine
        (congrArg (AList.insert bankKey _) frame.rowBuffers) ⟨good.bank, ?_⟩
        (fun _ _ _ _ _ => rfl) ?_ ?_, frame.config⟩
      · intro isOpen column block held
        rw [AList.lookup_to_alist, List.dlookup_map₂] at held
        obtain ⟨original, before, rfl⟩ := Option.map_eq_some_iff.mp held
        obtain ⟨base, buffered⟩ := good.buffered isOpen column original before
        exact ⟨base, { buffered with sound := buffered.sound.of_same rfl rfl rfl rfl rfl }⟩
      · exact fun base inside here _ => (bankStored base inside here).of_load rfl rfl
      · exact fun base _ _ before => (allStored base before).of_load rfl rfl

theorem flushDirtyRowBuffers_holds {flat : Patch Nat UInt8} {cycle : Nat}
    (holds : Holds image spec flat) (returns : image.flushDirtyRowBuffers cycle = .ok after) :
    Holds after spec flat ∧ after.config = image.config := by
  refine foldlM_keeps (fun middle : MemoryImage β => Holds middle spec flat ∧
    middle.config = image.config) ?_ image.rowBuffers.keys ⟨holds, rfl⟩ returns
  rintro middle bankKey next ⟨kept, config⟩ flushes
  obtain ⟨flushed, same⟩ := flushRowBuffer_holds kept flushes
  exact ⟨flushed, same.trans config⟩

end Image

end HbmSim
