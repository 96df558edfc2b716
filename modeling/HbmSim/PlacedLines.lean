/-
What a memory image stores is well formed. Every stored line has the size of a line,
an aligned address inside the capacity and coordinates of the device, whatever an
image is used for: a line gets its coordinates from a check or from the mapper, in an
open row as well, and a backend rejects what it cannot hold.

It is what a dump relies on: each line it writes can be loaded again.
-/

import HbmSim.AllocatedLines
import HbmSim.StackSpace
import HbmSim.TextForm

namespace HbmSim

open TextForm (coordinates)

/-! ### Backends that say what they accept -/

/-- A line of the right size at an aligned address inside the capacity. -/
structure Storable {β : Type} [MemoryBackend β] (backend : β) (base : Nat) (bytes mask : Nat) :
    Prop where
  aligned : base % MemoryBackend.lineSize backend = 0
  bytes : bytes = MemoryBackend.lineSize backend
  mask : mask = MemoryBackend.lineSize backend
  capacity : MemoryBackend.capacityBytes backend = 0 ∨
    (base < MemoryBackend.capacityBytes backend ∧
      base + MemoryBackend.lineSize backend ≤ MemoryBackend.capacityBytes backend)

/-- A store takes exactly the lines of the right size and place, and keeps their keys; the list of
addresses has every line once and is as long as the backend says. -/
class RestorableBackend (β : Type) [CheckpointBackend β] : Prop extends ListedBackend β where
  store_iff (backend : β) (base : Nat) (line : BackendLine) :
    (∃ result, MemoryBackend.store backend base line = .ok result) ↔
      Storable backend base line.bytes.length line.initializedMask.length
  store_key (backend : β) (base : Nat) (line : BackendLine) (inserted : Bool) (after : β) :
    MemoryBackend.store backend base line = .ok (inserted, after) →
      MemoryBackend.capacityBytes after = MemoryBackend.capacityBytes backend ∧
        ∀ kept, MemoryBackend.load after base = .ok (some kept) →
          kept.storageKey = line.storageKey
  load_inside (backend : β) (base size : Nat) :
    Storable backend base size size → ∃ found, MemoryBackend.load backend base = .ok found
  make_capacity (lineSize capacity : Nat) (backend : β) :
    MemoryBackend.make lineSize capacity = .ok backend →
      MemoryBackend.capacityBytes backend = capacity
  addresses (backend : β) : (CheckpointBackend.allAddresses backend).Nodup ∧
    CheckpointBackend.allocatedLines backend = (CheckpointBackend.allAddresses backend).length

theorem validateLine_eq_ok {base lineSize capacityBytes : Nat} {line : BackendLine} :
    validateLine base line lineSize capacityBytes = .ok () ↔
      base % lineSize = 0 ∧ line.bytes.length = lineSize ∧
        line.initializedMask.length = lineSize ∧
        (capacityBytes = 0 ∨ (base < capacityBytes ∧ base + lineSize ≤ capacityBytes)) := by
  unfold validateLine
  simp only [bind_eq_ok, throwIf_eq_ok, exists_const]
  omega

instance : RestorableBackend SparseMemoryBackend where
  store_iff backend base line := by
    constructor
    · rintro ⟨result, stores⟩
      obtain ⟨_, valid, -⟩ := bind_eq_ok.mp stores
      obtain ⟨aligned, bytes, mask, capacity⟩ := validateLine_eq_ok.mp valid
      exact ⟨aligned, bytes, mask, capacity⟩
    · rintro ⟨aligned, bytes, mask, capacity⟩
      exact ⟨_, bind_eq_ok.mpr
        ⟨(), validateLine_eq_ok.mpr ⟨aligned, bytes, mask, capacity⟩, rfl⟩⟩
  store_key backend base line inserted after stores := by
    obtain ⟨_, -, returned⟩ := bind_eq_ok.mp stores
    cases returned
    refine ⟨rfl, fun kept loads => ?_⟩
    have found : (backend.lines.insert base line).lookup base = some kept := Except.ok.inj loads
    rw [AList.lookup_insert] at found
    exact congrArg BackendLine.storageKey (Option.some.inj found).symm
  load_inside backend base size _ := ⟨_, rfl⟩
  make_capacity lineSize capacity backend makes := by
    obtain ⟨_, -, returned⟩ := bind_eq_ok.mp makes
    cases returned
    rfl
  addresses backend := by
    have perm : (backend.lines.keys.mergeSort).Perm backend.lines.keys := List.mergeSort_perm _ _
    refine ⟨perm.nodup_iff.mpr backend.lines.nodupKeys, ?_⟩
    show backend.lines.entries.length = (backend.lines.keys.mergeSort).length
    rw [perm.length_eq]
    exact (List.length_map _).symm

/-! ### The invariant -/

variable {β : Type} [CheckpointBackend β] {image after : MemoryImage β} {spec : DramSpec}
variable {base cycle : Nat} {place : Option DecodedAddress}

/-- A stored line can be stored again, and its key has coordinates of the device. -/
structure PlacedLine (spec : DramSpec) (backend : β) (base : Nat) (line : BackendLine) : Prop where
  storable : Storable backend base line.bytes.length line.initializedMask.length
  inBounds : (decodedFromStorageKey line.storageKey).InBounds spec

/-- The coordinates of a block, and those its key has, are of the device. -/
structure DataBlock.Placed (spec : DramSpec) (block : DataBlock) : Prop where
  physical : (coordinates block.physical).InBounds spec
  storageKey : (decodedFromStorageKey block.storageKey).InBounds spec

/-- Every copy in a row buffer is placed. -/
def RowBufferEntry.Placed (spec : DramSpec) (entry : RowBufferEntry) : Prop :=
  ∀ column block, entry.columns.lookup column = some block →
    (coordinates block.physical).InBounds spec

/-- The lines of the image and the copies in its open rows are placed. -/
structure MemoryImage.Placed (spec : DramSpec) (image : MemoryImage β) : Prop where
  hasSpec : image.spec = some spec
  transaction : image.lineSize = spec.transactionBytes
  lineSize : MemoryBackend.lineSize image.backend = image.lineSize
  capacity : 0 < MemoryBackend.capacityBytes image.backend
  configured : MemoryBackend.capacityBytes image.backend = image.options.capacityBytes
  stored : ∀ base line, MemoryBackend.load image.backend base = .ok (some line) →
    PlacedLine spec image.backend base line
  buffered : ∀ bankKey entry, image.rowBuffers.lookup bankKey = some entry → entry.Placed spec

omit [CheckpointBackend β] in
/-- An address that is placed has coordinates of the device. -/
theorem physicalAddress_inBounds (positive : spec.org.Positive) (given : image.spec = some spec)
    {address : Nat} {physical : PhysicalAddress}
    (returns : image.physicalAddress address place = .ok physical) :
    (coordinates physical).InBounds spec := by
  unfold MemoryImage.physicalAddress physicalAddress at returns
  rw [given] at returns
  cases place with
  | none =>
    cases returns
    exact decode_inBounds positive _
  | some decoded =>
    obtain ⟨_, checks, returned⟩ := bind_eq_ok.mp returns
    cases returned
    exact validateDecodedAddress_eq_ok.mp checks

omit [CheckpointBackend β] in
theorem storageKey_inBounds (positive : spec.org.Positive) (given : image.spec = some spec)
    {address : Nat} {key : StorageKey} (returns : image.storageKey address place = .ok key) :
    (decodedFromStorageKey key).InBounds spec := by
  obtain ⟨physical, places, returned⟩ := bind_eq_ok.mp returns
  cases returned
  exact physicalAddress_inBounds positive given places

/-! ### Storing -/

theorem MemoryImage.Placed.account (placed : image.Placed spec) (counters : EccCounters)
    (version : Nat) : (image.account counters version).Placed spec :=
  ⟨placed.hasSpec, placed.transaction, placed.lineSize, placed.capacity, placed.configured,
    placed.stored, placed.buffered⟩

theorem MemoryImage.Placed.setRowBuffer (placed : image.Placed spec) (bankKey : StorageKey)
    {entry : RowBufferEntry} (good : entry.Placed spec) :
    (image.setRowBuffer bankKey entry).Placed spec where
  hasSpec := placed.hasSpec
  transaction := placed.transaction
  lineSize := placed.lineSize
  capacity := placed.capacity
  configured := placed.configured
  stored := placed.stored
  buffered other found lookup := by
    by_cases same : other = bankKey
    · subst same
      rw [setRowBuffer_lookup] at lookup
      exact Option.some.inj lookup ▸ good
    · have elsewhere : image.rowBuffers.lookup other = some found :=
        (AList.lookup_insert_ne same).symm.trans lookup
      exact placed.buffered other found elsewhere

variable [RestorableBackend β]

/-- A placed block that is stored leaves a placed image. -/
theorem storeBackendLine_placed {block : DataBlock} (placed : image.Placed spec)
    (good : (decodedFromStorageKey block.storageKey).InBounds spec)
    (returns : image.storeBackendLine base block = .ok after) : after.Placed spec := by
  obtain ⟨⟨inserted, backend⟩, stores, returned⟩ := bind_eq_ok.mp returns
  cases returned
  obtain ⟨size, -, others⟩ := LawfulMemoryBackend.store_ok _ _ _ _ _ stores
  obtain ⟨kept, loads, keeps⟩ := LawfulCheckpointBackend.store_keeps _ _ _ _ _ stores
  obtain ⟨capacity, key⟩ := RestorableBackend.store_key _ _ _ _ _ stores
  have fits := (RestorableBackend.store_iff _ _ _).mp ⟨_, stores⟩
  have moved : ∀ {base bytes mask}, Storable image.backend base bytes mask →
      Storable backend base bytes mask := by
    rintro base bytes mask ⟨aligned, bytes, mask, inside⟩
    rw [← size] at aligned bytes mask inside
    rw [← capacity] at inside
    exact ⟨aligned, bytes, mask, inside⟩
  refine ⟨placed.hasSpec, placed.transaction, size.trans placed.lineSize,
    capacity.symm ▸ placed.capacity, capacity.trans placed.configured, fun other line found => ?_,
    placed.buffered⟩
  have found : MemoryBackend.load backend other = .ok (some line) := found
  by_cases here : other = base
  · subst here
    have same : kept = line := Option.some.inj (Except.ok.inj (loads.symm.trans found))
    subst same
    have maskLength := congrArg List.length keeps.mask
    rw [List.length_map, List.length_map] at maskLength
    refine ⟨?_, ?_⟩
    · rw [keeps.bytes, maskLength]
      exact moved fits
    · rw [key kept loads]
      exact good
  · rw [others other here] at found
    obtain ⟨storable, inBounds⟩ := placed.stored other line found
    exact ⟨moved storable, inBounds⟩

theorem storeColumn_placed {block : DataBlock} (placed : image.Placed spec)
    (good : (coordinates block.physical).InBounds spec)
    (returns : image.storeColumn cycle block = .ok after) : after.Placed spec := by
  refine storeBackendLine_placed placed ?_ returns
  exact good

/-- The copies of a row buffer, as they are stored. -/
theorem RowBufferEntry.Placed.columns {entry : RowBufferEntry} (good : entry.Placed spec) :
    ∀ block ∈ entry.columns.entries.map Sigma.snd, (coordinates block.physical).InBounds spec := by
  intro block member
  obtain ⟨⟨column, found⟩, listed, rfl⟩ := List.mem_map.mp member
  exact good column found (AList.mem_lookup_iff.mpr listed)

theorem storeColumns_placed {blocks : List DataBlock} (placed : image.Placed spec)
    (good : ∀ block ∈ blocks, (coordinates block.physical).InBounds spec)
    (returns : blocks.foldlM (MemoryImage.storeColumn cycle) image = .ok after) :
    after.Placed spec := by
  induction blocks generalizing image with
  | nil =>
    cases returns
    exact placed
  | cons block rest inductionHypothesis =>
    rw [List.foldlM_cons] at returns
    obtain ⟨middle, first, later⟩ := bind_eq_ok.mp returns
    obtain ⟨here, others⟩ := List.forall_mem_cons.mp good
    exact inductionHypothesis (storeColumn_placed placed here first) others later

/-! ### Rows -/

theorem placed_empty : ∀ entry : RowBufferEntry, entry.columns = ∅ → entry.Placed spec := by
  intro entry empty column block lookup
  rw [empty] at lookup
  cases lookup

theorem writebackRowBuffer_placed {bankKey : StorageKey} (placed : image.Placed spec)
    (returns : image.writebackRowBuffer bankKey cycle = .ok after) : after.Placed spec := by
  unfold MemoryImage.writebackRowBuffer at returns
  cases lookup : image.rowBuffers.lookup bankKey with
  | none =>
    rw [lookup] at returns
    cases returns
    exact placed
  | some entry =>
    rw [lookup] at returns
    dsimp only at returns
    split at returns
    · cases returns
      exact placed
    split at returns
    · cases returns
      exact placed.setRowBuffer bankKey (placed_empty _ rfl)
    · obtain ⟨middle, stores, returned⟩ := bind_eq_ok.mp returns
      cases returned
      exact (storeColumns_placed placed (placed.buffered bankKey entry lookup).columns
        stores).setRowBuffer bankKey (placed_empty _ rfl)

theorem writebackAll_placed {targets : List StorageKey} (placed : image.Placed spec)
    (returns : image.writebackAll targets cycle = .ok after) : after.Placed spec :=
  foldlM_keeps (fun middle : MemoryImage β => middle.Placed spec)
    (fun _ _ _ placed closes => writebackRowBuffer_placed placed closes) targets placed returns

theorem activateRow_placed {decoded : DecodedAddress} (placed : image.Placed spec)
    (returns : image.activateRow decoded cycle = .ok after) : after.Placed spec := by
  obtain ⟨_, -, returns⟩ := bind_eq_ok.mp returns
  dsimp only at returns
  split at returns
  · cases returns
    refine placed.setRowBuffer _ ?_
    cases lookup : image.rowBuffers.lookup (image.bankKeyFromDecoded decoded) with
    | none => exact placed_empty _ rfl
    | some entry => exact placed.buffered _ entry lookup
  split at returns
  · obtain ⟨closed, closes, returned⟩ := bind_eq_ok.mp returns
    cases returned
    exact (writebackRowBuffer_placed placed closes).setRowBuffer _ (placed_empty _ rfl)
  · cases returns
    exact placed.setRowBuffer _ (placed_empty _ rfl)

theorem flushRowBuffer_placed {bankKey : StorageKey} (placed : image.Placed spec)
    (returns : image.flushRowBuffer cycle bankKey = .ok after) : after.Placed spec := by
  unfold MemoryImage.flushRowBuffer at returns
  cases lookup : image.rowBuffers.lookup bankKey with
  | none =>
    rw [lookup] at returns
    cases returns
    exact placed
  | some entry =>
    rw [lookup] at returns
    dsimp only at returns
    split at returns
    · cases returns
      exact placed
    obtain ⟨middle, stores, returned⟩ := bind_eq_ok.mp returns
    cases returned
    have good := placed.buffered bankKey entry lookup
    refine (storeColumns_placed placed good.columns stores).setRowBuffer bankKey ?_
    intro column block found
    dsimp only at found
    rw [AList.lookup_to_alist, List.dlookup_map₂] at found
    obtain ⟨original, before, rfl⟩ := Option.map_eq_some_iff.mp found
    exact good column original before

theorem flushDirtyRowBuffers_placed (placed : image.Placed spec)
    (returns : image.flushDirtyRowBuffers cycle = .ok after) : after.Placed spec :=
  foldlM_keeps (fun middle : MemoryImage β => middle.Placed spec)
    (fun _ _ _ placed flushes => flushRowBuffer_placed placed flushes) _ placed returns

/-! ### Blocks -/

omit [CheckpointBackend β] [RestorableBackend β] in
theorem makeLine_placed {block : DataBlock} (positive : spec.org.Positive)
    (given : image.spec = some spec) (makes : image.makeLine base place = .ok block) :
    block.Placed spec := by
  obtain ⟨physical, places, returned⟩ := bind_eq_ok.mp makes
  cases returned
  have inBounds := physicalAddress_inBounds positive given places
  exact ⟨inBounds, inBounds⟩

omit [RestorableBackend β] in
theorem loadBackendLine_placed {block : DataBlock} (positive : spec.org.Positive)
    (placed : image.Placed spec) (loads : image.loadBackendLine base place = .ok (some block)) :
    block.Placed spec := by
  obtain ⟨line, loaded, loads⟩ := bind_eq_ok.mp loads
  cases line with
  | none => cases loads
  | some line =>
    dsimp only at loads
    cases place with
    | none =>
      obtain ⟨key, same, loads⟩ := bind_eq_ok.mp loads
      cases same
      obtain ⟨physical, places, returned⟩ := bind_eq_ok.mp loads
      cases returned
      exact ⟨physicalAddress_inBounds positive placed.hasSpec places,
        (placed.stored base line loaded).inBounds⟩
    | some decoded =>
      obtain ⟨key, keys, loads⟩ := bind_eq_ok.mp loads
      obtain ⟨physical, places, returned⟩ := bind_eq_ok.mp loads
      cases returned
      exact ⟨physicalAddress_inBounds positive placed.hasSpec places,
        storageKey_inBounds positive placed.hasSpec keys⟩

omit [RestorableBackend β] in
theorem loadedOrNew_placed {stored : Option DataBlock} {block : DataBlock}
    (positive : spec.org.Positive) (placed : image.Placed spec)
    (loads : image.loadBackendLine base place = .ok stored)
    (makes : image.loadedOrNew stored base place = .ok block) : block.Placed spec := by
  cases stored with
  | none => exact makeLine_placed positive placed.hasSpec makes
  | some backing =>
    cases makes
    exact loadBackendLine_placed positive placed loads

omit [RestorableBackend β] in
theorem putRowBufferBlock_placed {key : StorageKey} {block : DataBlock}
    (placed : image.Placed spec) (good : (coordinates block.physical).InBounds spec) :
    (image.putRowBufferBlock key block).Placed spec := by
  unfold MemoryImage.putRowBufferBlock
  cases lookup : image.rowBuffers.lookup (bankKeyFromStorageKey key) with
  | none => exact placed
  | some entry =>
    refine placed.setRowBuffer _ fun column found there => ?_
    have there : (entry.columns.insert (key.column.getD 0) block).lookup column = some found := there
    by_cases here : column = key.column.getD 0
    · subst here
      rw [AList.lookup_insert] at there
      exact Option.some.inj there ▸ good
    · rw [AList.lookup_insert_ne here] at there
      exact placed.buffered _ entry lookup column found there

omit [RestorableBackend β] in
theorem markDirty_placed {bankKey : StorageKey} (placed : image.Placed spec) :
    (image.markDirty bankKey).Placed spec := by
  unfold MemoryImage.markDirty
  cases lookup : image.rowBuffers.lookup bankKey with
  | none => exact placed
  | some entry => exact placed.setRowBuffer _ (placed.buffered bankKey entry lookup)

omit [RestorableBackend β] in
/-- A copy that an open row hands out is placed, and so is the image it leaves. -/
theorem rowBufferBlock_placed {found : Option (StorageKey × DataBlock)}
    (positive : spec.org.Positive) (placed : image.Placed spec)
    (returns : image.rowBufferBlock base place cycle = .ok (found, after)) :
    after.Placed spec ∧ ∀ key block, found = some (key, block) → block.Placed spec := by
  unfold MemoryImage.rowBufferBlock at returns
  cases place with
  | none =>
    cases returns
    exact ⟨placed, fun _ _ absurd => (Option.some_ne_none _ absurd.symm).elim⟩
  | some decoded =>
    obtain ⟨key, keys, returns⟩ := bind_eq_ok.mp returns
    dsimp only at returns
    split at returns
    · cases returns
      exact ⟨placed, fun _ _ absurd => (Option.some_ne_none _ absurd.symm).elim⟩
    next entry lookup =>
      split at returns
      · cases returns
        exact ⟨placed, fun _ _ absurd => (Option.some_ne_none _ absurd.symm).elim⟩
      obtain ⟨block, -, returns⟩ := bind_eq_ok.mp returns
      obtain ⟨physical, places, returned⟩ := bind_eq_ok.mp returns
      cases returned
      have inBounds := physicalAddress_inBounds positive placed.hasSpec places
      have keyInBounds := storageKey_inBounds positive placed.hasSpec keys
      refine ⟨putRowBufferBlock_placed (placed.setRowBuffer _ ?_) inBounds, ?_⟩
      · exact placed.buffered _ entry lookup
      · rintro other result same
        cases same
        exact ⟨inBounds, keyInBounds⟩

/-! ### Reads, writes and loads -/

omit [CheckpointBackend β] [RestorableBackend β] in
theorem refreshEccShadow_storageKey (options : StorageModelOptions) (block : DataBlock)
    (counters : EccCounters) :
    (refreshEccShadow options block counters).1.storageKey = block.storageKey := by
  unfold refreshEccShadow
  split <;> rfl

omit [CheckpointBackend β] [RestorableBackend β] in
/-- Protecting a written block leaves it where it is. -/
theorem protect_storageKey (block : DataBlock) :
    (image.protect block).1.storageKey = block.storageKey := by
  have refreshed := refreshEccShadow_storageKey image.options block image.counters
  unfold MemoryImage.protect maybeInjectEccError
  dsimp only
  split
  · exact refreshed
  split
  · exact refreshed
  · exact refreshed

omit [CheckpointBackend β] [RestorableBackend β] in
theorem writtenBlock_physical (block : DataBlock) (span : LineSpan) (data : ByteVector)
    (mask : Option ByteVector) (stamp : MemoryImage.WriteStamp) :
    (image.writtenBlock block span data mask stamp).physical = block.physical := by
  unfold MemoryImage.writtenBlock
  dsimp only
  split <;> rfl

theorem readSpan_placed {span : LineSpan} {bytes : ByteVector} {initialized : Bool}
    (positive : spec.org.Positive) (placed : image.Placed spec)
    (returns : image.readSpan span place = .ok (bytes, initialized, after)) :
    after.Placed spec := by
  obtain ⟨⟨hit, middle⟩, looks, continues⟩ := bind_eq_ok.mp returns
  obtain ⟨placed, copies⟩ := rowBufferBlock_placed positive placed looks
  cases hit with
  | some pair =>
    have good : (coordinates
        (checkEccShadow middle.options pair.2 middle.counters).1.physical).InBounds spec := by
      rw [(checkEccShadow_frame _ _ _).2]
      exact (copies pair.1 pair.2 rfl).physical
    cases continues
    exact putRowBufferBlock_placed (placed.account _ _) good
  | none =>
    obtain ⟨stored, loads, rest⟩ := bind_eq_ok.mp continues
    cases stored with
    | none =>
      cases rest
      exact placed
    | some block =>
      have good := loadBackendLine_placed positive placed loads
      dsimp only at rest
      split at rest
      · obtain ⟨settled, stores, returned⟩ := bind_eq_ok.mp rest
        cases returned
        refine storeBackendLine_placed (placed.account _ _) ?_ stores
        show (coordinates (checkEccShadow _ _ _).1.physical).InBounds spec
        rw [(checkEccShadow_frame _ _ _).2]
        exact good.physical
      · cases rest
        exact placed.account _ _

theorem read_placed {address size : Nat} {bytes : ByteVector} {initialized : Bool}
    (positive : spec.org.Positive) (placed : image.Placed spec)
    (returns : image.read address size place = .ok (bytes, initialized, after)) :
    after.Placed spec := by
  obtain ⟨_, -, folds⟩ := bind_eq_ok.mp returns
  refine foldlM_keeps (fun result : ByteVector × Bool × MemoryImage β => result.2.2.Placed spec)
    (fun result span next placed steps => ?_) _ placed folds
  obtain ⟨⟨more, flag, middle⟩, reads, returned⟩ := bind_eq_ok.mp steps
  cases returned
  exact readSpan_placed positive placed reads

theorem writeSpan_placed {span : LineSpan} {data : ByteVector} {mask : Option ByteVector}
    {stamp : MemoryImage.WriteStamp} (positive : spec.org.Positive) (placed : image.Placed spec)
    (returns : image.writeSpan span place data mask stamp = .ok after) : after.Placed spec := by
  obtain ⟨stored, loads, returns⟩ := bind_eq_ok.mp returns
  obtain ⟨backing, backs, returns⟩ := bind_eq_ok.mp returns
  obtain ⟨⟨hit, middle⟩, looks, continues⟩ := bind_eq_ok.mp returns
  have backed := loadedOrNew_placed positive placed loads backs
  obtain ⟨placed, copies⟩ := rowBufferBlock_placed positive placed looks
  cases hit with
  | none =>
    have good : (decodedFromStorageKey (middle.protect (MemoryImage.refreshLineMetadata
        (middle.writtenBlock backing span data mask stamp))).1.storageKey).InBounds spec := by
      rw [protect_storageKey]
      show (coordinates (middle.writtenBlock _ _ _ _ _).physical).InBounds spec
      rw [writtenBlock_physical]
      exact backed.physical
    exact storeBackendLine_placed (placed.account _ _) good continues
  | some pair =>
    obtain ⟨settled, missing, continues⟩ := bind_eq_ok.mp continues
    have placed : settled.Placed spec := by
      unfold MemoryImage.storeMissing at missing
      split at missing
      · exact storeBackendLine_placed placed backed.storageKey missing
      · cases missing
        exact placed
    have good : (coordinates (settled.protect { settled.writtenBlock pair.2 span data mask stamp with
        initialized := allMasked (settled.writtenBlock pair.2 span data mask stamp).initializedMask
        checksum := checksumBytes (settled.writtenBlock pair.2 span data mask stamp).bytes
        }).1.physical).InBounds spec := by
      rw [protect_physical]
      show (coordinates (settled.writtenBlock _ _ _ _ _).physical).InBounds spec
      rw [writtenBlock_physical]
      exact (copies pair.1 pair.2 rfl).physical
    dsimp only at continues
    split at continues
    · cases continues
      exact markDirty_placed (putRowBufferBlock_placed (placed.account _ _) good)
    · cases continues
      exact putRowBufferBlock_placed (placed.account _ _) good

theorem write_placed {address : Nat} {data : ByteVector} {mask : Option ByteVector}
    {stamp : MemoryImage.WriteStamp} (positive : spec.org.Positive) (placed : image.Placed spec)
    (returns : image.write address data mask place stamp = .ok after) : after.Placed spec := by
  obtain ⟨_, -, returns⟩ := bind_eq_ok.mp returns
  obtain ⟨_, -, folds⟩ := bind_eq_ok.mp returns
  exact foldlM_keeps (fun middle : MemoryImage β => middle.Placed spec)
    (fun _ _ _ placed writes => writeSpan_placed positive placed writes) _ placed folds

theorem loadTextLine_placed {line : TextLine} (positive : spec.org.Positive)
    (placed : image.Placed spec) (returns : image.loadTextLine line = .ok after) :
    after.Placed spec := by
  obtain ⟨_, -, folds⟩ := bind_eq_ok.mp returns
  refine foldlM_keeps (fun middle : MemoryImage β => middle.Placed spec)
    (fun before span next placed loads => ?_) _ placed folds
  obtain ⟨stored, found, loads⟩ := bind_eq_ok.mp loads
  obtain ⟨block, makes, stores⟩ := bind_eq_ok.mp loads
  have good := loadedOrNew_placed positive placed found makes
  refine storeBackendLine_placed (placed.account _ _) ?_ stores
  show (decodedFromStorageKey (refreshEccShadow _ _ _).1.storageKey).InBounds spec
  rw [refreshEccShadow_storageKey]
  exact good.physical

/-! ### Checkpoints -/

omit [CheckpointBackend β] [RestorableBackend β] in
theorem restoredBlock_physical {entry : Checkpoint.Entry} {block : DataBlock}
    (positive : spec.org.Positive) (given : image.spec = some spec)
    (restores : image.restoredBlock entry = .ok block) : block.Placed spec := by
  obtain ⟨physical, places, returned⟩ := bind_eq_ok.mp restores
  cases returned
  unfold MemoryImage.restoredPhysical at places
  rw [given] at places
  have inBounds := physicalAddress_inBounds positive given places
  exact ⟨inBounds, inBounds⟩

/-- An entry leaves a placed image, also one that is rejected. -/
theorem restoreEntry_placed {entry : Checkpoint.Entry} {result : Except Exception Unit}
    (positive : spec.org.Positive) (placed : image.Placed spec)
    (returns : image.restoreEntry entry = (result, after)) : after.Placed spec := by
  unfold MemoryImage.restoreEntry at returns
  split at returns
  · cases returns
    exact placed
  next block restores =>
    have good := restoredBlock_physical positive placed.hasSpec restores
    dsimp only at returns
    split at returns
    · cases returns
      exact placed.account _ _
    next stored stores =>
      cases returns
      refine storeBackendLine_placed (placed.account _ _) ?_ stores
      rw [refreshEccShadow_storageKey]
      exact good.storageKey

theorem loadEntries_placed {count index : Nat} {input : ByteVector}
    {result : Except Exception Unit} (positive : spec.org.Positive) (placed : image.Placed spec)
    (returns : image.loadEntries count index input = (result, after)) : after.Placed spec := by
  induction count generalizing index image input with
  | zero =>
    cases returns
    exact placed
  | succ count inductionHypothesis =>
    unfold MemoryImage.loadEntries at returns
    split at returns
    · cases returns
      exact placed
    split at returns
    next restores =>
      cases returns
      exact restoreEntry_placed positive placed restores
    next restores =>
      exact inductionHypothesis (restoreEntry_placed positive placed restores) returns

theorem cleared_placed (placed : image.Placed spec) : image.cleared.Placed spec := by
  obtain ⟨size, capacity, empty⟩ := LawfulCheckpointBackend.clear_ok image.backend
  refine ⟨placed.hasSpec, placed.transaction, size.trans placed.lineSize, ?_,
    capacity.trans placed.configured, fun base line loads => ?_, fun bankKey entry lookup => ?_⟩
  · exact capacity.symm ▸ placed.capacity
  · cases empty base _ loads
  · cases lookup

/-- A checkpoint leaves a placed image, also one that fails. -/
theorem loadBinary_placed {path : String} {file : Option ByteVector}
    {result : Except Exception Unit} (positive : spec.org.Positive) (placed : image.Placed spec)
    (returns : image.loadBinary path file = (result, after)) : after.Placed spec := by
  unfold MemoryImage.loadBinary at returns
  split at returns
  · cases returns
    exact placed
  split at returns
  · cases returns
    exact placed
  · exact loadEntries_placed positive (cleared_placed placed) returns

/-! ### The images of a run -/

theorem applyStorage_placed {op : StorageOp} {outputs : List ByteVector}
    (positive : spec.org.Positive) (placed : image.Placed spec)
    (returns : image.applyStorage op = .ok (outputs, after)) : after.Placed spec := by
  cases op with
  | activateRow =>
    obtain ⟨_, activates, returned⟩ := bind_eq_ok.mp returns
    cases returned
    exact activateRow_placed placed activates
  | prechargeBank =>
    obtain ⟨_, closes, returned⟩ := bind_eq_ok.mp returns
    cases returned
    obtain ⟨_, -, closes⟩ := bind_eq_ok.mp closes
    exact writebackRowBuffer_placed placed closes
  | prechargeAll =>
    obtain ⟨_, closes, returned⟩ := bind_eq_ok.mp returns
    cases returned
    obtain ⟨_, -, closes⟩ := bind_eq_ok.mp closes
    exact writebackAll_placed placed closes
  | flushDirtyRowBuffers =>
    obtain ⟨_, flushes, returned⟩ := bind_eq_ok.mp returns
    cases returned
    exact flushDirtyRowBuffers_placed placed flushes
  | flushAllRowBuffers =>
    obtain ⟨_, closes, returned⟩ := bind_eq_ok.mp returns
    cases returned
    exact writebackAll_placed placed closes
  | read =>
    obtain ⟨_, reads, returned⟩ := bind_eq_ok.mp returns
    cases returned
    exact read_placed positive placed reads
  | write =>
    obtain ⟨_, writes, returned⟩ := bind_eq_ok.mp returns
    cases returned
    exact write_placed positive placed writes
  | loadTextLine =>
    obtain ⟨_, loads, returned⟩ := bind_eq_ok.mp returns
    cases returned
    exact loadTextLine_placed positive placed loads
  | loadBinary =>
    unfold MemoryImage.applyStorage at returns
    dsimp only at returns
    split at returns
    · cases returns
    next loads =>
      cases returns
      exact loadBinary_placed positive placed loads

omit [CheckpointBackend β] [RestorableBackend β] in
theorem configuredCapacity_pos {options : StorageModelOptions} {capacityBytes : Nat}
    (positive : spec.org.Positive)
    (configured : MemoryImage.configuredCapacity spec options = .ok capacityBytes) :
    0 < capacityBytes := by
  unfold MemoryImage.configuredCapacity at configured
  split at configured
  · rw [(spec.addressableCapacityBytes_eq configured).1]
    exact capacityOf_pos positive
  · cases configured
    exact Nat.pos_of_ne_zero ‹_›

/-- A new image stores nothing. -/
theorem create_placed {defaultValue : UInt8} {options : StorageModelOptions}
    (created : MemoryImage.create spec defaultValue options = .ok image) :
    spec.org.Positive ∧ image.Placed spec := by
  unfold MemoryImage.create at created
  obtain ⟨_, valid, created⟩ := bind_eq_ok.mp created
  obtain ⟨_, -, created⟩ := bind_eq_ok.mp created
  obtain ⟨_, -, created⟩ := bind_eq_ok.mp created
  obtain ⟨capacityBytes, configured, created⟩ := bind_eq_ok.mp created
  obtain ⟨backend, made, returned⟩ := bind_eq_ok.mp created
  cases returned
  obtain ⟨-, lineSize, empty⟩ := LawfulMemoryBackend.make_ok _ _ _ made
  have capacity := RestorableBackend.make_capacity _ _ _ made
  refine ⟨validateSpec_positive valid, rfl, rfl, lineSize, ?_, capacity,
    fun base line loads => ?_, fun bankKey entry lookup => ?_⟩
  · show 0 < MemoryBackend.capacityBytes backend
    rw [capacity]
    exact configuredCapacity_pos (validateSpec_positive valid) configured
  · cases empty base _ loads
  · cases lookup

/-- The images the operations come to from a new one. An operation that throws ends what a caller
can rely on, but a checkpoint that fails is gone on from. -/
inductive MemoryImage.Reachable (spec : DramSpec) : MemoryImage β → Prop
  | created {defaultValue : UInt8} {options : StorageModelOptions} {image : MemoryImage β} :
    MemoryImage.create spec defaultValue options = .ok image → Reachable spec image
  | operation {image after : MemoryImage β} {op : StorageOp} {outputs : List ByteVector} :
    Reachable spec image → image.applyStorage op = .ok (outputs, after) → Reachable spec after
  | failedLoad {image after : MemoryImage β} {path : String} {file : Option ByteVector}
    {error : Exception} :
    Reachable spec image → image.loadBinary path file = (.error error, after) →
      Reachable spec after

/-- Every image that is reached is placed. -/
theorem MemoryImage.Reachable.placed (reachable : image.Reachable spec) :
    spec.org.Positive ∧ image.Placed spec := by
  induction reachable with
  | created creates => exact create_placed creates
  | operation _ steps inductionHypothesis =>
    exact ⟨inductionHypothesis.1, applyStorage_placed inductionHypothesis.1 inductionHypothesis.2
      steps⟩
  | failedLoad _ fails inductionHypothesis =>
    exact ⟨inductionHypothesis.1, loadBinary_placed inductionHypothesis.1 inductionHypothesis.2
      fails⟩

omit [RestorableBackend β] in
theorem MemoryImage.Reachable.run {ops : List StorageOp} {outputs : List ByteVector}
    (reachable : image.Reachable spec)
    (returns : Transition.run MemoryImage.applyStorage image ops = .ok (outputs, after)) :
    after.Reachable spec := by
  induction ops generalizing image outputs with
  | nil =>
    cases returns
    exact reachable
  | cons op rest inductionHypothesis =>
    obtain ⟨now, next, later, steps, runs, -⟩ := Transition.run_cons returns
    exact inductionHypothesis (reachable.operation steps) runs

/-- Every line that an image lists, whatever it has been used for, is there, has the size of a
transaction, lies aligned inside the capacity, and is kept under coordinates of the device. -/
theorem reachable_lines (reachable : image.Reachable spec)
    (listed : base ∈ CheckpointBackend.allAddresses image.backend) :
    ∃ line, MemoryBackend.load image.backend base = .ok (some line) ∧
      line.bytes.length = spec.transactionBytes ∧
      line.initializedMask.length = spec.transactionBytes ∧
      base % spec.transactionBytes = 0 ∧
      base + spec.transactionBytes ≤ image.options.capacityBytes ∧
      (decodedFromStorageKey line.storageKey).InBounds spec := by
  obtain ⟨-, placed⟩ := reachable.placed
  obtain ⟨line, loads⟩ := (ListedBackend.mem_allAddresses _ _).mp listed
  obtain ⟨⟨aligned, bytes, mask, inside⟩, inBounds⟩ := placed.stored base line loads
  have size := placed.lineSize.trans placed.transaction
  have room := (inside.resolve_left placed.capacity.ne').2
  rw [size] at aligned bytes mask room
  exact ⟨line, loads, bytes, mask, aligned, placed.configured ▸ room, inBounds⟩

/-- The small device with a line that a write stored and one that a read put into its row. -/
theorem reachable_lines_small : ∃ outputs final,
    Transition.run MemoryImage.applyStorage fullImage writeThenRead = .ok (outputs, final) ∧
      4 ∈ CheckpointBackend.allAddresses final.backend ∧
      ∀ base ∈ CheckpointBackend.allAddresses final.backend, ∃ line,
        MemoryBackend.load final.backend base = .ok (some line) ∧ line.bytes.length = 4 ∧
        line.initializedMask.length = 4 ∧ base % 4 = 0 ∧
        base + 4 ≤ final.options.capacityBytes ∧
        (decodedFromStorageKey line.storageKey).InBounds smallSpec := by
  have returns : ∃ result, Transition.run MemoryImage.applyStorage fullImage writeThenRead =
      .ok result ∧ 4 ∈ allocated result.2.backend := ⟨_, rfl, _, rfl⟩
  obtain ⟨⟨outputs, final⟩, returns, there⟩ := returns
  have created : MemoryImage.create smallSpec 0 {} = .ok fullImage := rfl
  have reachable : final.Reachable smallSpec :=
    MemoryImage.Reachable.run (.created created) returns
  exact ⟨outputs, final, returns, (ListedBackend.mem_allAddresses _ _).mpr there,
    fun base listed => reachable_lines reachable listed⟩

end HbmSim
