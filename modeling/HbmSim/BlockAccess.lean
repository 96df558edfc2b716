/-
Accesses by blocks: every access has one size and starts at a multiple of it, as
the transactions of a host do. Two such accesses overlap only when they are to
the same block.

The write buffer is then a patch of the memory: each pending write covers its
own block, and a read that the buffer answers sees the patch over the image.
-/

import HbmSim.WriteCoalesce

namespace HbmSim

/-! ### Blocks -/

/-- The address of a block inside the geometry. -/
structure Block (storage : DramSpec) (size address : Nat) : Prop where
  aligned : address % size = 0
  inside : address + size ≤ storage.capacityOf

section Blocks

variable {storage : DramSpec} {size address other target index : Nat}

theorem Block.rangeEnd (block : Block storage size address)
    (bounded : storage.capacityOf ≤ uint64Max) : rangeEnd address size = address + size := by
  have inside := block.inside
  unfold HbmSim.rangeEnd
  exact if_neg (by omega)

/-- The base of a byte of a block is the block. -/
theorem Block.lineBase_add (block : Block storage size address) (inside : index < size) :
    lineBase size (address + index) = address := by
  obtain ⟨factor, rfl⟩ := Nat.dvd_of_mod_eq_zero block.aligned
  unfold lineBase
  rw [Nat.mul_add_mod, Nat.mod_eq_of_lt inside, Nat.add_sub_cancel]

theorem exists_offset (positive : 0 < size) (same : lineBase size target = address) :
    ∃ index < size, target = address + index := by
  refine ⟨target % size, Nat.mod_lt _ positive, ?_⟩
  have below : target % size ≤ target := Nat.mod_le _ _
  unfold lineBase at same
  omega

/-- Blocks overlap only when they are the same. -/
theorem Block.overlap_iff (positive : 0 < size) (bounded : storage.capacityOf ≤ uint64Max)
    (first : Block storage size address) (second : Block storage size other) :
    rangesOverlap address size other size = true ↔ address = other := by
  unfold rangesOverlap
  rw [if_neg (by omega), first.rangeEnd bounded, second.rangeEnd bounded, decide_eq_true_eq]
  refine ⟨fun ⟨left, right⟩ => ?_, fun same => ⟨by omega, by omega⟩⟩
  rcases Nat.le_total address other with before | before
  · obtain ⟨index, rfl⟩ := Nat.exists_eq_add_of_le before
    have inside : index < size := by omega
    have base := first.lineBase_add inside
    unfold lineBase at base
    rw [second.aligned] at base
    omega
  · obtain ⟨index, rfl⟩ := Nat.exists_eq_add_of_le before
    have inside : index < size := by omega
    have base := second.lineBase_add inside
    unfold lineBase at base
    rw [first.aligned] at base
    omega

end Blocks

/-! ### Writes of blocks -/

section Writes

variable {storage : DramSpec} {size target index : Nat} {request : Request}

/-- The sizes a request gives for its data agree with the block. -/
structure Request.Sized (size : Nat) (request : Request) : Prop where
  transfer : request.transferBytes = 0 ∨ request.transferBytes = size
  expected : request.hasExpectedPayload = true → request.expectedPayload ≠ [] →
    request.expectedPayload.length = size
  payload : request.payload.length = size

/-- A write of a block that has its bytes and its mask. -/
structure Request.WritesBlock (storage : DramSpec) (size : Nat) (request : Request) : Prop where
  block : Block storage size request.address
  ready : request.Ready
  sized : request.Sized size

theorem Request.Sized.dataSize (sized : request.Sized size) (hasPayload : request.hasPayload = true)
    (payload : request.payload ≠ []) (spec : DramSpec) : requestDataSize spec request = size := by
  unfold requestDataSize
  split
  next positive => exact sized.transfer.resolve_left (Nat.ne_of_gt positive)
  split
  next given => exact sized.expected given.1 given.2
  rw [if_pos ⟨hasPayload, payload⟩]
  exact sized.payload

namespace Request.WritesBlock

variable (writes : request.WritesBlock storage size)
include writes

theorem dataSize (spec : DramSpec) : requestDataSize spec request = size :=
  writes.sized.dataSize writes.ready.hasPayload writes.ready.payload spec

/-- A write of a block changes nothing outside it. -/
theorem patch_outside (elsewhere : lineBase size target ≠ request.address) :
    request.patch target = none := by
  by_cases before : target < request.address
  · exact Request.patch_before before
  · obtain ⟨index, rfl⟩ := Nat.exists_eq_add_of_le (Nat.not_lt.mp before)
    rw [Request.patch_add]
    unfold Request.byteAt
    rw [List.getElem?_eq_none, ite_self]
    rw [writes.sized.payload]
    exact Nat.not_lt.mp fun inside => elsewhere (writes.block.lineBase_add inside)

/-- A write without a mask gives every byte of its block. -/
theorem patch_whole (unmasked : request.hasByteMask = false)
    (here : lineBase size target = request.address) : (request.patch target).isSome = true := by
  have positive : 0 < size := by
    rw [← writes.sized.payload]
    exact List.length_pos_iff.mpr writes.ready.payload
  obtain ⟨index, inside, rfl⟩ := exists_offset positive here
  rw [Request.patch_add, Request.byteAt_unmasked unmasked]
  rw [List.getElem?_eq_getElem (by rw [writes.sized.payload]; exact inside)]
  rfl

end Request.WritesBlock

end Writes

/-! ### The write buffer as a patch -/

/-- The pending writes of a buffer. -/
abbrev WriteBuffer := AList fun _ : Nat => BufferedWriteState

/-- Each pending write covers the block of its address. -/
def BlockBuffer (storage : DramSpec) (size : Nat) (writes : WriteBuffer) : Prop :=
  ∀ address state, writes.lookup address = some state →
    state.request.address = address ∧ state.request.WritesBlock storage size

/-- What the pending writes of a buffer change. -/
def bufferPatch (size : Nat) (writes : WriteBuffer) : Patch Nat UInt8 := fun target =>
  (writes.lookup (lineBase size target)).bind fun state => state.request.patch target

section Buffer

variable {storage : DramSpec} {size address target : Nat} {writes : WriteBuffer}
variable {state : BufferedWriteState} {newer : Request}

theorem bufferPatch_of_none (missing : writes.lookup (lineBase size target) = none) :
    bufferPatch size writes target = none := by
  unfold bufferPatch
  rw [missing]
  rfl

theorem bufferPatch_of_some (held : writes.lookup (lineBase size target) = some state) :
    bufferPatch size writes target = state.request.patch target := by
  unfold bufferPatch
  rw [held]
  rfl

/-- A pending write that covers a new write and what was pending at its block adds the new write
to the patch. -/
theorem bufferPatch_insert (outside : ∀ target, lineBase size target ≠ address →
      newer.patch target = none)
    (covers : ∀ target, lineBase size target = address →
      state.request.patch target = newer.patch.onto (bufferPatch size writes) target) :
    bufferPatch size (writes.insert address state) =
      newer.patch.onto (bufferPatch size writes) := by
  funext target
  by_cases here : lineBase size target = address
  · have held : (writes.insert address state).lookup (lineBase size target) = some state := by
      rw [here]
      exact AList.lookup_insert _
    rw [bufferPatch_of_some held]
    exact covers target here
  · rw [Patch.onto_apply, outside target here, Option.none_or]
    unfold bufferPatch
    rw [AList.lookup_insert_ne here]

/-- A pending write that leaves the buffer leaves the patch of the others. -/
theorem bufferPatch_erase (buffer : BlockBuffer storage size writes)
    (held : writes.lookup address = some state) :
    bufferPatch size writes =
      state.request.patch.onto (bufferPatch size (writes.erase address)) := by
  obtain ⟨here, block⟩ := buffer address state held
  funext target
  rw [Patch.onto_apply]
  by_cases same : lineBase size target = address
  · have missing : (writes.erase address).lookup (lineBase size target) = none := by
      rw [same]
      exact AList.lookup_erase _ _
    rw [← same] at held
    rw [bufferPatch_of_some held, bufferPatch_of_none missing, Option.or_none]
  · rw [block.patch_outside (fun is => same (is.trans here)), Option.none_or]
    unfold bufferPatch
    rw [AList.lookup_erase_ne same]

theorem BlockBuffer.insert (buffer : BlockBuffer storage size writes)
    (here : state.request.address = address)
    (block : state.request.WritesBlock storage size) :
    BlockBuffer storage size (writes.insert address state) := by
  intro other found held
  by_cases same : other = address
  · subst same
    rw [AList.lookup_insert] at held
    cases held
    exact ⟨here, block⟩
  · rw [AList.lookup_insert_ne same] at held
    exact buffer other found held

theorem BlockBuffer.erase (buffer : BlockBuffer storage size writes) :
    BlockBuffer storage size (writes.erase address) := by
  intro other found held
  by_cases same : other = address
  · subst same
    rw [AList.lookup_erase] at held
    cases held
  · rw [AList.lookup_erase_ne same] at held
    exact buffer other found held

end Buffer

/-! ### Merging writes of blocks -/

theorem Request.coalesceExact_of_length {older newer : Request}
    (same : older.payload.length = newer.payload.length) : older.CoalesceExact newer := by
  unfold CoalesceExact
  split
  · exact Or.inr fun index inside beyond => absurd inside (Nat.not_lt.mpr (same ▸ beyond))
  · exact fun index inside beyond => absurd inside (Nat.not_lt.mpr (same ▸ beyond))

namespace Controller

section Merging

variable {β : Type} {c : Controller β} {storage : DramSpec} {size : Nat}
variable {older : BufferedWriteState} {newer : Request}

/-- The pending write that a merge leaves is one of the block. -/
theorem coalesced_writesBlock (ready : BufferReady c)
    (held : c.bufferedWrites.lookup newer.address = some older)
    (oldWrites : older.request.WritesBlock storage size)
    (newWrites : newer.WritesBlock storage size) :
    (c.coalesced newer).request.WritesBlock storage size := by
  obtain ⟨isReady, address⟩ := coalesced_ready ready newWrites.ready
  refine ⟨address ▸ newWrites.block, isReady, ?_⟩
  unfold coalesced
  rw [held]
  dsimp only
  split
  · rw [mergeMasked_request oldWrites.ready]
    refine ⟨oldWrites.sized.transfer, oldWrites.sized.expected, ?_⟩
    unfold mergedPayload
    rw [List.length_map, List.length_range, oldWrites.sized.payload]
    dsimp only
    rw [newWrites.sized.payload, max_self]
  · exact newWrites.sized

/-- A merge lays the new write over the pending one. -/
theorem coalesced_patch (ready : BufferReady c)
    (held : c.bufferedWrites.lookup newer.address = some older)
    (oldWrites : older.request.WritesBlock storage size)
    (newWrites : newer.WritesBlock storage size) :
    (c.coalesced newer).request.patch = newer.patch.onto older.request.patch :=
  (coalesced_patch_iff ready newWrites.ready held).mpr (Request.coalesceExact_of_length
    (oldWrites.sized.payload.trans newWrites.sized.payload.symm))

theorem coalesced_unmasked (unmasked : newer.hasByteMask = false) :
    (c.coalesced newer).request = newer := by
  unfold coalesced
  split
  · rfl
  · rw [if_neg (by rw [unmasked]; exact Bool.false_ne_true)]

end Merging

end Controller

/-! ### Reads of blocks -/

theorem contentBytes_getD (defaultValue : UInt8) (flat : Patch Nat UInt8) {start count index : Nat}
    (inside : index < count) :
    (contentBytes defaultValue flat start count).getD index 0 =
      (flat (start + index)).getD defaultValue := by
  unfold contentBytes
  rw [List.getD_eq_getElem?_getD, List.getElem?_map, List.getElem?_range inside]
  rfl

theorem contentMask_getD (flat : Patch Nat UInt8) {start count index : Nat}
    (inside : index < count) :
    (contentMask flat start count).getD index 0 =
      if (flat (start + index)).isSome then 0xff else 0 := by
  unfold contentMask
  rw [List.getD_eq_getElem?_getD, List.getElem?_map, List.getElem?_range inside]
  rfl

namespace Controller

section Reads

variable {β : Type} {c : Controller β} {storage : DramSpec} {size target index : Nat}
variable {read : Request} {state : BufferedWriteState}

/-- The states of a buffer that are at one address. -/
theorem filter_states {entries : List (Sigma fun _ : Nat => BufferedWriteState)} {address : Nat}
    {select : BufferedWriteState → Bool}
    (selects : ∀ entry ∈ entries, select entry.2 = decide (entry.1 = address)) :
    (entries.map fun entry => entry.2).filter select = entries.lookupAll address := by
  induction entries with
  | nil => rfl
  | cons entry rest inductionHypothesis =>
    obtain ⟨here, later⟩ := List.forall_mem_cons.mp selects
    rw [List.map_cons]
    by_cases same : entry.1 = address
    · obtain ⟨key, found⟩ := entry
      obtain rfl : key = address := same
      rw [List.filter_cons_of_pos (by rw [here]; exact decide_eq_true rfl),
        inductionHypothesis later]
      exact (@List.lookupAll_cons_eq Nat (fun _ => BufferedWriteState) _ rest key found).symm
    · rw [List.filter_cons_of_neg (by rw [here]; exact fun is => same (of_decide_eq_true is)),
        inductionHypothesis later]
      exact (List.lookupAll_cons_ne rest entry (Ne.symm same)).symm

section Hits

variable (positive : 0 < size) (bounded : storage.capacityOf ≤ uint64Max)
variable (buffer : BlockBuffer storage size c.bufferedWrites)
variable (block : Block storage size read.address) (dataSize : requestDataSize c.spec read = size)
include positive bounded buffer block dataSize

/-- A read that the write buffer answers is to a block with a pending write. -/
theorem hits_lookup (hits : c.readHitsBufferedWrite read = true) :
    ∃ state, c.bufferedWrites.lookup read.address = some state := by
  obtain ⟨⟨address, state⟩, member, hit⟩ := List.any_eq_true.mp hits
  have held : c.bufferedWrites.lookup address = some state := AList.mem_lookup_iff.mpr member
  obtain ⟨here, writes⟩ := buffer address state held
  have overlap := (Bool.and_eq_true_iff.mp hit).1
  rw [dataSize, writes.dataSize] at overlap
  have same := (block.overlap_iff positive bounded (here ▸ writes.block)).mp overlap
  exact ⟨state, same ▸ held⟩

/-- The write buffer changes nothing of a block whose reads it does not answer. -/
theorem misses_patch (misses : c.readHitsBufferedWrite read = false)
    (here : lineBase size target = read.address) :
    bufferPatch size c.bufferedWrites target = none := by
  cases held : c.bufferedWrites.lookup read.address with
  | none => exact bufferPatch_of_none (by rw [here]; exact held)
  | some state =>
    obtain ⟨same, writes⟩ := buffer _ _ held
    rw [bufferPatch_of_some (by rw [here]; exact held)]
    have member : ⟨read.address, state⟩ ∈ c.bufferedWrites.entries := AList.mem_lookup_iff.mp held
    have missed := List.any_eq_false.mp misses _ member
    rw [Bool.not_eq_true] at missed
    unfold hitsBufferedWrite at missed
    dsimp only at missed
    rw [dataSize, writes.dataSize, (block.overlap_iff positive bounded block).mpr rfl,
      Bool.true_and, Bool.or_eq_false_iff, Bool.not_eq_false', max_self, min_self,
      block.rangeEnd bounded, Nat.add_sub_cancel_left] at missed
    obtain ⟨masked, clear⟩ := missed
    obtain ⟨index, inside, rfl⟩ := exists_offset positive here
    rw [← same, Request.patch_add, writes.ready.byteAt_masked masked]
    have unset := List.any_eq_false.mp clear index (List.mem_range.mpr inside)
    have normal := writes.ready.mask masked
    rw [writes.sized.payload] at normal
    rw [normal, Nat.add_sub_cancel_left] at unset
    exact if_neg unset

end Hits

/-- What a pending write gives to a byte of its block. -/
theorem forwardedByte_block (bounded : storage.capacityOf ≤ uint64Max) (spec : DramSpec)
    (writes : state.request.WritesBlock storage size) (inside : index < size) :
    forwardedByte spec state (state.request.address + index) =
      (state.request.byteAt index).map fun value => (state.byteSequence.getD index 0, value) := by
  unfold forwardedByte Request.byteAt
  dsimp only
  rw [writes.dataSize, writes.block.rangeEnd bounded, Nat.add_sub_cancel_left]
  have enabled : normalizeMask.maskByteSet state.request.enableMask index =
      maskEnables state.request.writeMask index := by
    unfold Request.enableMask Request.writeMask
    cases masked : state.request.hasByteMask with
    | false =>
      rw [if_neg Bool.false_ne_true, if_neg Bool.false_ne_true, writes.sized.payload]
      unfold normalizeMask.maskByteSet
      rw [List.getElem?_replicate, if_pos inside]
      rfl
    | true =>
      rw [if_pos rfl, if_pos rfl, writes.ready.mask masked]
      rfl
  rw [enabled]
  by_cases set : maskEnables state.request.writeMask index = true
  · rw [if_pos ⟨writes.ready.hasPayload, Nat.le_add_right .., by omega, set⟩, if_pos set]
  · rw [if_neg (fun all => set all.2.2.2), if_neg set]
    rfl

/-- The pending writes that a read of a block looks at. -/
theorem forwarding_writes (positive : 0 < size) (bounded : storage.capacityOf ≤ uint64Max)
    (buffer : BlockBuffer storage size c.bufferedWrites)
    (block : Block storage size read.address) (dataSize : requestDataSize c.spec read = size) :
    ((c.bufferedWrites.entries.map fun entry => entry.2).filter fun state =>
        rangesOverlap read.address (requestDataSize c.spec read) state.request.address
          (requestDataSize c.spec state.request)) =
      (c.bufferedWrites.lookup read.address).toList := by
  refine (filter_states fun entry member => ?_).trans
    (List.lookupAll_eq_dlookup _ c.bufferedWrites.nodupKeys)
  obtain ⟨here, writes⟩ := buffer entry.1 entry.2 (AList.mem_lookup_iff.mpr member)
  rw [dataSize, writes.dataSize]
  refine Bool.eq_iff_iff.mpr ((block.overlap_iff positive bounded writes.block).trans ?_)
  rw [decide_eq_true_eq, here]
  exact eq_comm

/-- A byte that the write buffer answers is that of the pending write, or the one of the image. -/
theorem foldl_forwardStep (bounded : storage.capacityOf ≤ uint64Max)
    (buffer : BlockBuffer storage size c.bufferedWrites)
    (block : Block storage size read.address) (inside : index < size) (byte set : UInt8) :
    let best := (c.bufferedWrites.lookup read.address).toList.foldl
      (forwardStep c.spec (read.address + index)) (byte, set, 0)
    best.1 = (bufferPatch size c.bufferedWrites (read.address + index)).getD byte ∧
      best.2.1 = if (bufferPatch size c.bufferedWrites (read.address + index)).isSome then 0xff
        else set := by
  have base := block.lineBase_add inside
  cases held : c.bufferedWrites.lookup read.address with
  | none =>
    rw [bufferPatch_of_none (by rw [base]; exact held)]
    exact ⟨rfl, rfl⟩
  | some state =>
    obtain ⟨here, writes⟩ := buffer _ _ held
    rw [bufferPatch_of_some (by rw [base]; exact held), ← here, Request.patch_add]
    have forwarded := forwardedByte_block bounded c.spec writes inside
    dsimp only [Option.toList, List.foldl]
    unfold forwardStep
    rw [forwarded]
    cases state.request.byteAt index with
    | none => exact ⟨rfl, rfl⟩
    | some value =>
      dsimp only [Option.map]
      rw [if_pos (Nat.zero_le _)]
      exact ⟨rfl, rfl⟩

variable [MemoryBackend β] [LawfulMemoryBackend β] {flat : Patch Nat UInt8}
variable {payload byteMask : ByteVector} {image : MemoryImage β}

/-- A read of a block that the write buffer answers sees the buffer over the image. -/
theorem readForwardPayload_block (positive : 0 < size)
    (bounded : storage.capacityOf ≤ uint64Max) (holds : Holds c.memoryImage storage flat)
    (buffer : BlockBuffer storage size c.bufferedWrites)
    (block : Block storage size read.address) (dataSize : requestDataSize c.spec read = size)
    (decoded : c.storageDecodedFor read = decode storage read.address)
    (returns : c.readForwardPayload read = .ok (payload, byteMask, image)) :
    payload = contentBytes c.memoryImage.defaultValue
        ((bufferPatch size c.bufferedWrites).onto flat) read.address size ∧
      byteMask = contentMask ((bufferPatch size c.bufferedWrites).onto flat) read.address size ∧
      Keeps c.memoryImage image storage flat := by
  unfold readForwardPayload at returns
  obtain ⟨⟨actual, initialized, after⟩, reads, returns⟩ := bind_eq_ok.mp returns
  obtain ⟨resultMask, masks, returns⟩ := bind_eq_ok.mp returns
  rw [decoded, dataSize] at reads
  rw [decoded] at masks
  obtain ⟨rfl, -, keeps⟩ := read_spec holds (Or.inr block.inside) reads
  have length : (contentBytes c.memoryImage.defaultValue flat read.address size).length = size := by
    unfold contentBytes
    rw [List.length_map, List.length_range]
  rw [length] at masks
  obtain rfl := readInitializedMask_spec keeps.holds (Or.inr block.inside) masks
  have result := Except.ok.inj returns
  rw [forwarding_writes positive bounded buffer block dataSize, length, dataSize,
    block.rangeEnd bounded] at result
  obtain ⟨bytes, result⟩ := Prod.mk.inj result
  obtain ⟨set, same⟩ := Prod.mk.inj result
  have step : ∀ index ∈ List.range size, _ := fun index member =>
    foldl_forwardStep bounded buffer block (List.mem_range.mp member)
      ((contentBytes c.memoryImage.defaultValue flat read.address size).getD index 0)
      ((contentMask flat read.address size).getD index 0)
  refine ⟨bytes.symm.trans ?_, set.symm.trans ?_, same ▸ keeps⟩
  · rw [List.map_map]
    refine List.map_congr_left fun index member => ?_
    have inside := List.mem_range.mp member
    dsimp only [Function.comp]
    rw [if_pos (Nat.add_lt_add_left inside _), (step index member).1, Patch.onto_apply,
      contentBytes_getD _ _ inside]
    cases bufferPatch size c.bufferedWrites (read.address + index) <;> rfl
  · rw [List.map_map]
    refine List.map_congr_left fun index member => ?_
    have inside := List.mem_range.mp member
    dsimp only [Function.comp]
    rw [if_pos (Nat.add_lt_add_left inside _), (step index member).2, Patch.onto_apply,
      contentMask_getD _ inside]
    cases bufferPatch size c.bufferedWrites (read.address + index) <;> rfl

end Reads

end Controller

end HbmSim
