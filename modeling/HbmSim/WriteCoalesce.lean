/-
Merging writes to one address. The write buffer keeps one pending write for an
address: a masked write is laid over it, an unmasked one replaces it. A replaced
write loses the bytes it had behind the end of the new one, and an unmasked write
that a longer masked one extends covers all of the extension; in every other case
the merged write covers exactly the bytes of the two.
-/

import HbmSim.CommandHistory

namespace HbmSim

/-! ### The bytes of a write -/

namespace Request

variable {older newer request : Request}

/-- The byte a write gives to an offset behind its address. -/
def byteAt (request : Request) (index : Nat) : Option UInt8 :=
  if maskEnables request.writeMask index = true then request.payload[index]? else none

/-- What a write changes when it is committed. -/
def patch (request : Request) : Patch Nat UInt8 :=
  writePatch request.address request.payload request.writeMask

theorem patch_add (request : Request) (index : Nat) :
    request.patch (request.address + index) = request.byteAt index := by
  unfold patch writePatch byteAt
  rw [Nat.add_sub_cancel_left]
  exact if_congr (and_iff_right (Nat.le_add_right ..)) rfl rfl

theorem patch_before {target : Nat} (before : target < request.address) :
    request.patch target = none :=
  if_neg fun inside => absurd inside.1 (Nat.not_le.mpr before)

/-- Writes to one address compare byte by byte. -/
theorem patch_eq_onto_iff {merged : Request} (address : merged.address = older.address)
    (same : newer.address = older.address) :
    merged.patch = newer.patch.onto older.patch ↔
      ∀ index, merged.byteAt index = (newer.byteAt index).or (older.byteAt index) := by
  constructor
  · intro equal index
    have here := congrFun equal (older.address + index)
    rw [Patch.onto_apply, patch_add] at here
    rwa [← address, patch_add, address, ← same, patch_add] at here
  · intro bytes
    funext target
    rw [Patch.onto_apply]
    by_cases before : target < older.address
    · rw [patch_before before, patch_before (address ▸ before), patch_before (same ▸ before)]
      rfl
    · obtain ⟨index, rfl⟩ := Nat.exists_eq_add_of_le (Nat.not_lt.mp before)
      have here := bytes index
      rw [patch_add]
      rwa [← patch_add merged, address, ← patch_add newer, same] at here

/-- The write has its bytes and a mask of their length. -/
structure Ready (request : Request) : Prop where
  hasPayload : request.hasPayload = true
  payload : request.payload ≠ []
  mask : request.hasByteMask = true →
    normalizeMask request.byteMask request.payload.length = request.byteMask

theorem Ready.ensured (ready : request.Ready) (spec : DramSpec) :
    ensureWritePayload spec request = request :=
  ensureWritePayload_of_given ready.hasPayload ready.payload ready.mask

theorem Ready.mask_length (ready : request.Ready) (masked : request.hasByteMask = true) :
    request.byteMask.length = request.payload.length :=
  (congrArg List.length (ready.mask masked)).symm.trans (normalizeMask_length _ _)

/-- Laying a new write over a pending one makes no byte up and loses none: an unmasked write reaches
as far as the bytes of the old one, and a masked one covers what it appends to an unmasked one. -/
def CoalesceExact (older newer : Request) : Prop :=
  if newer.hasByteMask = true then
    older.hasByteMask = true ∨ ∀ index < newer.payload.length, older.payload.length ≤ index →
      maskEnables newer.writeMask index = true
  else ∀ index < older.payload.length, newer.payload.length ≤ index →
    maskEnables older.writeMask index = false

instance (older newer : Request) : Decidable (CoalesceExact older newer) :=
  by unfold CoalesceExact; infer_instance

theorem byteAt_unmasked (unmasked : request.hasByteMask = false) (index : Nat) :
    request.byteAt index = request.payload[index]? := by
  unfold byteAt writeMask
  rw [unmasked]
  rfl

/-- An unmasked write that replaces the pending one. -/
theorem replaced_iff (unmasked : newer.hasByteMask = false) :
    (∀ index, newer.byteAt index = (newer.byteAt index).or (older.byteAt index)) ↔
      CoalesceExact older newer := by
  unfold CoalesceExact
  rw [if_neg (by rw [unmasked]; exact Bool.false_ne_true)]
  simp only [byteAt_unmasked unmasked]
  constructor
  · intro same index inside beyond
    have here := same index
    rw [List.getElem?_eq_none beyond, Option.none_or] at here
    by_contra enabled
    unfold byteAt at here
    rw [if_pos (Bool.eq_true_of_not_eq_false enabled), List.getElem?_eq_getElem inside] at here
    cases here
  · intro exact index
    by_cases inside : index < newer.payload.length
    · rw [List.getElem?_eq_getElem inside]
      rfl
    · rw [List.getElem?_eq_none (Nat.not_lt.mp inside), Option.none_or]
      unfold byteAt
      by_cases old : index < older.payload.length
      · rw [exact index old (Nat.not_lt.mp inside), if_neg Bool.false_ne_true]
      · rw [List.getElem?_eq_none (Nat.not_lt.mp old), ite_self]

/-- A mask that enables everything may be left out. -/
theorem byteAt_of_mask {mask : ByteVector} (length : mask.length = request.payload.length)
    (partly : request.hasByteMask = !allMasked mask)
    (kept : request.byteMask = if !allMasked mask then mask else []) (index : Nat) :
    request.byteAt index =
      if normalizeMask.maskByteSet mask index = true then request.payload[index]? else none := by
  unfold byteAt writeMask
  rw [partly, kept]
  cases whole : allMasked mask with
  | false => rfl
  | true =>
    refine (if_pos rfl).trans ?_
    split
    · rfl
    next clear =>
      refine List.getElem?_eq_none (Nat.not_lt.mp fun inside => clear ?_)
      rw [← length] at inside
      unfold normalizeMask.maskByteSet
      rw [List.getElem?_eq_getElem inside]
      exact List.all_eq_true.mp whole _ (List.getElem_mem inside)

end Request

theorem maskByteSet_range (size : Nat) (value : Nat → UInt8) (index : Nat) :
    normalizeMask.maskByteSet ((List.range size).map value) index =
      decide (index < size ∧ value index ≠ 0) := by
  unfold normalizeMask.maskByteSet
  rw [List.getElem?_map]
  by_cases inside : index < size
  · rw [List.getElem?_range inside]
    simp [inside]
  · rw [List.getElem?_eq_none (by rw [List.length_range]; exact Nat.not_lt.mp inside)]
    simp [inside]

theorem maskByteSet_normalizeMask {mask : ByteVector} (nonempty : mask ≠ []) (size index : Nat) :
    normalizeMask.maskByteSet (normalizeMask mask size) index =
      decide (index < size ∧ normalizeMask.maskByteSet mask index = true) := by
  unfold normalizeMask
  rw [if_neg nonempty, maskByteSet_range]
  refine decide_eq_decide.mpr (and_congr_right fun _ => ?_)
  split
  next set => exact iff_of_true (by decide) set
  next clear => exact iff_of_false (fun absurd => absurd rfl) clear

theorem maskByteSet_iff (mask : ByteVector) (index : Nat) :
    normalizeMask.maskByteSet mask index = true ↔ mask.getD index 0 ≠ 0 := by
  unfold normalizeMask.maskByteSet
  rw [List.getD_eq_getElem?_getD]
  cases mask[index]? with
  | none => exact iff_of_false Bool.false_ne_true fun absurd => absurd rfl
  | some byte => exact decide_eq_true_iff

theorem lt_length_of_maskByteSet {mask : ByteVector} {index : Nat}
    (set : normalizeMask.maskByteSet mask index = true) : index < mask.length := by
  by_contra beyond
  unfold normalizeMask.maskByteSet at set
  rw [List.getElem?_eq_none (Nat.not_lt.mp beyond)] at set
  cases set

theorem normalizeMask_of_canonical {mask : ByteVector} {size : Nat} (length : mask.length = size)
    (canonical : ∀ byte ∈ mask, byte = 0 ∨ byte = 0xff) : normalizeMask mask size = mask := by
  by_cases empty : mask = []
  · subst empty
    subst length
    rfl
  · unfold normalizeMask
    rw [if_neg empty]
    refine List.ext_getElem (by simp [length]) fun index inside within => ?_
    rw [List.getElem_map, List.getElem_range]
    have set := maskByteSet_iff mask index
    rw [List.getD_eq_getElem _ _ within] at set
    rcases canonical _ (List.getElem_mem within) with zero | full
    · rw [if_neg fun is => set.mp is zero, zero]
    · rw [if_pos (set.mpr (by rw [full]; decide)), full]

theorem normalizeMask_canonical (mask : ByteVector) (size : Nat) :
    ∀ byte ∈ normalizeMask mask size, byte = 0 ∨ byte = 0xff := by
  unfold normalizeMask
  split
  · exact fun byte member => Or.inr (List.eq_of_mem_replicate member)
  · intro byte member
    obtain ⟨index, -, rfl⟩ := List.mem_map.mp member
    split
    · exact Or.inr rfl
    · exact Or.inl rfl

/-- A write with a mask gives the bytes its mask sets. -/
theorem Request.Ready.byteAt_masked {request : Request} (ready : request.Ready)
    (masked : request.hasByteMask = true) (index : Nat) : request.byteAt index =
      if normalizeMask.maskByteSet request.byteMask index = true then
        some (request.payload.getD index 0)
      else none := by
  unfold Request.byteAt Request.writeMask
  rw [if_pos masked]
  split
  next set =>
    have inside := lt_length_of_maskByteSet set
    rw [ready.mask_length masked] at inside
    refine (List.getElem?_eq_getElem inside).trans ((congrArg some ?_).trans (if_pos set).symm)
    rw [List.getD_eq_getElem?_getD, List.getElem?_eq_getElem inside, Option.getD_some]
  next clear => exact (if_neg clear).symm

namespace Controller

variable {spec : DramSpec} {older : BufferedWriteState} {newer : Request}

/-- What an unmasked pending write covers once it is as long as the new write. -/
def extendedByteAt (older newer : Request) (index : Nat) : Option UInt8 :=
  if older.hasByteMask = true then older.byteAt index
  else if index < max older.payload.length newer.payload.length then
    some (older.payload.getD index 0)
  else none

/-- The mask of the pending write, for as many bytes as the two writes have. -/
def extendedMask (older newer : Request) : ByteVector :=
  if older.hasByteMask then
    normalizeMask older.byteMask (max older.payload.length newer.payload.length)
  else List.replicate (max older.payload.length newer.payload.length) 0xff

theorem extendedByteAt_eq (oldReady : older.request.Ready) {index : Nat}
    (inside : index < max older.request.payload.length newer.payload.length) :
    extendedByteAt older.request newer index =
      if (extendedMask older.request newer).getD index 0 ≠ 0 then
        some (older.request.payload.getD index 0)
      else none := by
  unfold extendedByteAt extendedMask
  cases masked : older.request.hasByteMask with
  | false =>
    rw [if_neg Bool.false_ne_true, if_pos inside, if_neg Bool.false_ne_true,
      List.getD_replicate _ inside]
    rfl
  | true =>
    have nonempty : older.request.byteMask ≠ [] := fun empty => oldReady.payload
      (List.length_eq_zero_iff.mp ((oldReady.mask_length masked).symm.trans (by rw [empty]; rfl)))
    rw [if_pos rfl, if_pos rfl, oldReady.byteAt_masked masked]
    refine if_congr ?_ rfl rfl
    rw [← maskByteSet_iff, maskByteSet_normalizeMask nonempty, decide_eq_true_eq]
    exact (and_iff_right inside).symm

/-- The mask and the bytes of two writes of which the newer has a mask. -/
def mergedMask (older newer : Request) : ByteVector :=
  (List.range (max older.payload.length newer.payload.length)).map fun index =>
    if normalizeMask.maskByteSet newer.byteMask index then 0xff
    else (extendedMask older newer).getD index 0

def mergedPayload (older newer : Request) : ByteVector :=
  (List.range (max older.payload.length newer.payload.length)).map fun index =>
    if normalizeMask.maskByteSet newer.byteMask index then newer.payload.getD index 0
    else (older.payload ++ List.replicate (max older.payload.length newer.payload.length -
      older.payload.length) 0).getD index 0

theorem mergeMasked_request (oldReady : older.request.Ready) :
    (mergeMasked spec older newer).request = { older.request with
      payload := mergedPayload older.request newer
      hasPayload := true
      hasByteMask := !allMasked (mergedMask older.request newer)
      byteMask := if !allMasked (mergedMask older.request newer) then
          mergedMask older.request newer
        else [] } := by
  unfold mergeMasked
  rw [oldReady.ensured]
  rfl

theorem mergedMask_iff (older newer : Request) (index : Nat) :
    normalizeMask.maskByteSet (mergedMask older newer) index = true ↔
      index < max older.payload.length newer.payload.length ∧
        (normalizeMask.maskByteSet newer.byteMask index = true ∨
          (extendedMask older newer).getD index 0 ≠ 0) := by
  unfold mergedMask
  rw [maskByteSet_range, decide_eq_true_eq]
  refine and_congr_right fun _ => ?_
  by_cases set : normalizeMask.maskByteSet newer.byteMask index = true
  · rw [if_pos set]
    exact iff_of_true (by decide) (Or.inl set)
  · rw [if_neg set]
    exact (or_iff_right set).symm

theorem mergedPayload_getElem? {older newer : Request} {index : Nat}
    (inside : index < max older.payload.length newer.payload.length) :
    (mergedPayload older newer)[index]? =
      some (if normalizeMask.maskByteSet newer.byteMask index then newer.payload.getD index 0
        else older.payload.getD index 0) := by
  unfold mergedPayload
  rw [List.getElem?_map, List.getElem?_range inside, Option.map_some]
  have padded : (older.payload ++ List.replicate (max older.payload.length newer.payload.length -
      older.payload.length) 0).getD index 0 = older.payload.getD index 0 := by
    rcases Nat.lt_or_ge index older.payload.length with old | beyond
    · exact List.getD_append _ _ _ _ old
    · rw [List.getD_append_right _ _ _ _ beyond, List.getD_eq_default _ _ beyond,
        List.getD_replicate]
      exact Nat.sub_lt_sub_right beyond inside
  rw [padded]

theorem extendedByteAt_beyond {older newer : Request} {index : Nat}
    (beyond : ¬ index < max older.payload.length newer.payload.length) :
    extendedByteAt older newer index = none := by
  unfold extendedByteAt
  rw [if_neg beyond]
  refine ite_eq_right_iff.mpr fun _ => ?_
  unfold Request.byteAt
  rw [List.getElem?_eq_none, ite_self]
  exact (Nat.le_max_left ..).trans (Nat.not_lt.mp beyond)

/-- The bytes of the merged write are those of the new one, laid over what the pending one has once
it is as long. -/
theorem mergeMasked_byteAt (oldReady : older.request.Ready) (newReady : newer.Ready)
    (masked : newer.hasByteMask = true) (index : Nat) :
    (mergeMasked spec older newer).request.byteAt index =
      (newer.byteAt index).or (extendedByteAt older.request newer index) := by
  rw [mergeMasked_request oldReady,
    @Request.byteAt_of_mask _ (mergedMask older.request newer)
      (by simp [mergedMask, mergedPayload]) rfl rfl,
    newReady.byteAt_masked masked]
  refine (if_congr (mergedMask_iff older.request newer index) rfl rfl).trans ?_
  by_cases set : normalizeMask.maskByteSet newer.byteMask index = true
  · have inside : index < max older.request.payload.length newer.payload.length :=
      (newReady.mask_length masked ▸ lt_length_of_maskByteSet set).trans_le (Nat.le_max_right ..)
    rw [if_pos ⟨inside, Or.inl set⟩, if_pos set]
    exact (mergedPayload_getElem? inside).trans (by rw [if_pos set]; rfl)
  · rw [if_neg set, Option.none_or]
    by_cases inside : index < max older.request.payload.length newer.payload.length
    · rw [extendedByteAt_eq oldReady inside]
      refine if_congr ((and_iff_right inside).trans (or_iff_right set)) ?_ rfl
      exact (mergedPayload_getElem? inside).trans (by rw [if_neg set])
    · rw [if_neg fun both => inside both.1, extendedByteAt_beyond inside]

/-- A masked write that is laid over the pending one. -/
theorem overlaid_iff {older newer : Request}
    (masked : newer.hasByteMask = true) :
    (∀ index, (newer.byteAt index).or (extendedByteAt older newer index) =
        (newer.byteAt index).or (older.byteAt index)) ↔ Request.CoalesceExact older newer := by
  unfold Request.CoalesceExact extendedByteAt
  rw [if_pos masked]
  cases oldMasked : older.hasByteMask with
  | true => exact iff_of_true (fun _ => rfl) (Or.inl rfl)
  | false =>
    simp only [Request.byteAt_unmasked oldMasked, Bool.false_eq_true, if_false, false_or]
    constructor
    · intro same index inside beyond
      have here := same index
      rw [if_pos (inside.trans_le (Nat.le_max_right ..)), List.getElem?_eq_none beyond,
        Option.or_none] at here
      by_contra clear
      unfold Request.byteAt at here
      rw [if_neg clear] at here
      cases here
    · intro exact index
      cases new : newer.byteAt index with
      | some value => rfl
      | none =>
        rw [Option.none_or, Option.none_or]
        rcases Nat.lt_or_ge index older.payload.length with old | beyond
        · rw [if_pos (old.trans_le (Nat.le_max_left ..)), List.getD_eq_getElem _ _ old,
            List.getElem?_eq_getElem old]
        · rw [List.getElem?_eq_none beyond, if_neg]
          intro inside
          have appended := (lt_max_iff.mp inside).resolve_left (Nat.not_lt.mpr beyond)
          unfold Request.byteAt at new
          rw [if_pos (exact index appended beyond), List.getElem?_eq_getElem appended] at new
          cases new

/-! ### The pending writes of every run -/

variable {β : Type} {c after : Controller β} {request : Request} {candidate : Candidate}
variable {bus : BusClass}

/-- A pending write is one of the addresses in the buffer, lies there and has its bytes. -/
def BufferReady (c : Controller β) : Prop :=
  ∀ address state, c.bufferedWrites.lookup address = some state →
    address ∈ c.bufferedWriteAddrs ∧ state.request.address = address ∧ state.request.Ready

theorem BufferReady.of_same (ready : BufferReady c)
    (writes : after.bufferedWrites = c.bufferedWrites)
    (addrs : after.bufferedWriteAddrs = c.bufferedWriteAddrs) : BufferReady after := by
  unfold BufferReady
  rw [writes, addrs]
  exact ready

theorem BufferReady.housekeeping (ready : BufferReady c) (keeps : Housekeeping c after) :
    BufferReady after :=
  ready.of_same (congrArg Core.bufferedWrites keeps.core)
    (congrArg Core.bufferedWriteAddrs keeps.core)

/-- A write leaves the buffer together with its address. -/
theorem BufferReady.leave (ready : BufferReady c) (request : Request) :
    BufferReady (c.leaveBuffer request) := by
  unfold leaveBuffer
  split
  · intro address state held
    have elsewhere : address ≠ request.address := by
      rintro rfl
      dsimp only at held
      rw [AList.lookup_erase] at held
      cases held
    dsimp only at held
    rw [AList.lookup_erase_ne elsewhere] at held
    obtain ⟨listed, rest⟩ := ready address state held
    exact ⟨Finset.mem_erase.mpr ⟨elsewhere, listed⟩, rest⟩
  · exact ready

theorem ensureWritePayload_ready (spec : DramSpec) (request : Request) :
    (ensureWritePayload spec request).Ready where
  hasPayload := ensureWritePayload_hasPayload
  payload := ensureWritePayload_payload_ne_nil
  mask := by
    have again : ∀ mask size, normalizeMask (normalizeMask mask size) size =
        normalizeMask mask size := fun mask size =>
      normalizeMask_of_canonical (normalizeMask_length ..) (normalizeMask_canonical _ _)
    unfold ensureWritePayload
    dsimp only
    split <;> split <;> intro masked
    · exact again _ _
    · contradiction
    · exact again _ _
    · contradiction

theorem extendedMask_canonical (older newer : Request) :
    ∀ byte ∈ extendedMask older newer, byte = 0 ∨ byte = 0xff := by
  unfold extendedMask
  split
  · exact normalizeMask_canonical _ _
  · exact fun byte member => Or.inr (List.eq_of_mem_replicate member)

theorem mergedMask_canonical (older newer : Request) :
    ∀ byte ∈ mergedMask older newer, byte = 0 ∨ byte = 0xff := by
  intro byte member
  obtain ⟨index, -, rfl⟩ := List.mem_map.mp member
  split
  · exact Or.inr rfl
  · rw [List.getD_eq_getElem?_getD]
    cases found : (extendedMask older newer)[index]? with
    | none => exact Or.inl rfl
    | some byte => exact extendedMask_canonical older newer byte (List.mem_of_getElem? found)

theorem mergeMasked_ready (oldReady : older.request.Ready) :
    (mergeMasked spec older newer).request.Ready := by
  rw [mergeMasked_request oldReady]
  have length : (mergedMask older.request newer).length =
      (mergedPayload older.request newer).length := by
    simp [mergedMask, mergedPayload]
  refine ⟨rfl, fun empty => ?_, fun partly => ?_⟩
  · have zero : (mergedPayload older.request newer).length = 0 :=
      List.length_eq_zero_iff.mpr empty
    rw [mergedPayload, List.length_map, List.length_range] at zero
    exact oldReady.payload (List.length_eq_zero_iff.mp
      (Nat.le_zero.mp ((Nat.le_max_left ..).trans_eq zero)))
  · dsimp only at partly ⊢
    rw [if_pos partly]
    exact normalizeMask_of_canonical length (mergedMask_canonical _ _)

/-- The pending write that a merge leaves covers exactly the bytes of the two, under the
condition. -/
theorem coalesced_patch_iff (ready : BufferReady c) (newReady : newer.Ready)
    (held : c.bufferedWrites.lookup newer.address = some older) :
    (c.coalesced newer).request.patch = newer.patch.onto older.request.patch ↔
      older.request.CoalesceExact newer := by
  obtain ⟨-, address, oldReady⟩ := ready newer.address older held
  unfold coalesced
  rw [held]
  dsimp only
  by_cases masked : newer.hasByteMask = true
  · have normal : ({ newer with
        byteMask := normalizeMask newer.byteMask newer.payload.length } : Request) = newer := by
      rw [newReady.mask masked]
    have there : (mergeMasked c.spec older newer).request.address = older.request.address := by
      rw [mergeMasked_request oldReady]
    rw [if_pos masked, normal, Request.patch_eq_onto_iff there address.symm, ← overlaid_iff masked]
    simp only [mergeMasked_byteAt oldReady newReady masked]
  · rw [if_neg masked, Request.patch_eq_onto_iff address.symm address.symm]
    exact Request.replaced_iff (Bool.eq_false_of_not_eq_true masked)

/-- The pending write that a merge leaves is ready, and lies at the address. -/
theorem coalesced_ready (ready : BufferReady c) (newReady : newer.Ready) :
    (c.coalesced newer).request.Ready ∧ (c.coalesced newer).request.address = newer.address := by
  unfold coalesced
  split
  · exact ⟨newReady, rfl⟩
  next older held =>
    obtain ⟨-, address, oldReady⟩ := ready newer.address older held
    split
    · refine ⟨mergeMasked_ready oldReady, ?_⟩
      rw [mergeMasked_request oldReady]
      exact address
    · exact ⟨newReady, rfl⟩

theorem BufferReady.insert (ready : BufferReady c) {address : Nat} {state : BufferedWriteState}
    (here : state.request.address = address) (isReady : state.request.Ready)
    (writes : after.bufferedWrites = c.bufferedWrites.insert address state)
    (addrs : after.bufferedWriteAddrs = insert address c.bufferedWriteAddrs) :
    BufferReady after := by
  intro other found held
  rw [writes] at held
  rw [addrs, Finset.mem_insert]
  by_cases same : other = address
  · subst same
    rw [AList.lookup_insert] at held
    cases held
    exact ⟨Or.inl rfl, here, isReady⟩
  · rw [AList.lookup_insert_ne same] at held
    obtain ⟨listed, rest⟩ := ready other found held
    exact ⟨Or.inr listed, rest⟩

section Runs

variable [MemoryBackend β]

/-- A merged write as it is accepted: it has its bytes and its sequence. -/
def mergedAs (c : Controller β) (request : Request) : Request :=
  { ensureWritePayload c.spec request with
    controllerSequence := c.nextControllerSequence
    bypassDram := true
    issuedCycle := c.clk
    completion := c.clk + 1 }

omit [MemoryBackend β] in
theorem mergedAs_ready (c : Controller β) (request : Request) : (c.mergedAs request).Ready :=
  have ready := ensureWritePayload_ready c.spec request
  ⟨ready.hasPayload, ready.payload, ready.mask⟩

omit [MemoryBackend β] in
/-- The mask of an accepted write is normalized already when the merge normalizes it. -/
theorem coalesceWrite_pending (c : Controller β) (request : Request) :
    (c.coalesceWrite (ensureWritePayload c.spec request)).pending =
      c.pending ++ [c.mergedAs request] := by
  unfold coalesceWrite
  refine congrArg (fun byteMask => c.pending ++ [{ c.mergedAs request with byteMask }]) ?_
  dsimp only
  split
  next merges =>
    exact (mergedAs_ready c request).mask ((Bool.and_eq_true _ _).mp merges).1
  next => rfl

omit [MemoryBackend β] in
/-- The arrival is no part of what a write does. -/
theorem ensureWritePayload_arrival (spec : DramSpec) (request : Request) (arrival : Nat) :
    ensureWritePayload spec { request with arrival } =
      { ensureWritePayload spec request with arrival } := by
  unfold ensureWritePayload
  have size : requestDataSize spec { request with arrival } = requestDataSize spec request := rfl
  rw [size]
  dsimp only
  split <;> split <;> rfl

theorem Entry.bufferReady {accepted : Bool} (ready : BufferReady c)
    (entry : Entry c request accepted after) : BufferReady after := by
  cases entry with
  | refused => exact ready
  | forwarded isRead hits forwards =>
    unfold forwardRead at forwards
    obtain ⟨⟨payload, byteMask, image⟩, -, forwards⟩ := bind_eq_ok.mp forwards
    cases forwards
    exact ready
  | queuedRead => exact ready
  | coalesced isWrite buffered =>
    obtain ⟨merged, address⟩ := coalesced_ready ready (mergedAs_ready c request)
    refine ready.insert address merged rfl (Finset.insert_eq_of_mem ?_).symm
    exact (ensureWritePayload_address c.spec request).symm ▸ buffered
  | buffered isWrite unbuffered =>
    have given := ensureWritePayload_ready c.spec request
    exact @BufferReady.insert β c _ ready (ensureWritePayload c.spec request).address _ rfl
      ⟨given.hasPayload, given.payload, given.mask⟩ rfl rfl
  | maintenance => exact ready

theorem Advance.bufferReady (ready : BufferReady c)
    (advance : Advance c candidate request after) : BufferReady after := by
  cases advance with
  | served => exact ready
  | promoted => exact ready
  | stayed => exact ready
  | retired _ _ _ how =>
    rw [how.result]
    exact ready.leave (c.retiring candidate.command request)

theorem bufferReady_kept :
    Kept (fun _ _ => True) (fun _ _ => True) fun _ (c : Controller β) => BufferReady c where
  enqueue _ c request _ _ ready _ returns := (enqueue_cases returns).2.bufferReady
    (ready.housekeeping (prepareAccept_housekeeping c request))
  beginTick _ _ _ ready returns := by
    have frame := (beginTick_eq returns).2
    refine ready.of_same ?_ ?_ <;> rw [frame]
  upkeep _ c ready _ := ready.housekeeping (upkeep_housekeeping c)
  turn _ c bus _ after ready _ returns := by
    cases turn_cases returns with
    | idle chosen choosing => exact ready.housekeeping choosing.housekeeping
    | issue choosing _ issuing =>
      exact Advance.bufferReady
        ((ready.housekeeping choosing.housekeeping).of_same (by rw [issueEffects_eq])
          (by rw [issueEffects_eq])) issuing.advance
  idleLowPower _ c ready := ready.housekeeping (idleLowPower_housekeeping c)
  popResponse _ _ _ _ ready returns := by
    unfold popResponse at returns
    split at returns
    · cases returns
    · cases returns
      exact ready
  flushStorage _ _ _ ready returns := by
    obtain ⟨image, -, returned⟩ := bind_eq_ok.mp returns
    cases returned
    exact ready

omit [MemoryBackend β] in
/-- What the data command of a queued write commits is the pending write of its address. -/
theorem mergedRequest_patch {queued : Request} {state : BufferedWriteState} {address : Nat}
    (held : c.bufferedWrites.lookup address = some state)
    (here : state.request.address = address) (isWrite : queued.type = .write)
    (same : queued.address = address) : (c.mergedRequest queued).patch = state.request.patch := by
  subst same
  unfold mergedRequest
  rw [if_pos isWrite, held]
  unfold Request.patch Request.writeMask
  rw [here]

/-- In every state a run reaches, an accepted write to an address with a pending write leaves there
a pending write, which is what the data command of the address will commit; and it covers exactly
the bytes of the two, the new ones where both have one, if and only if an unmasked new write reaches
as far as the bytes of the old one, and a masked one covers what it appends to an unmasked one. -/
theorem coalesce_exact_iff {spec : DramSpec} {options : ControllerOptions} {image : MemoryImage β}
    {start : Controller β} (created : create spec options image = .ok start)
    {ops : List ControllerOp} {events : List ControllerEvent}
    (returns : start.run ops = .ok (events, c)) {older : BufferedWriteState}
    (held : c.bufferedWrites.lookup request.address = some older)
    (isWrite : request.type = .write) (accepts : c.enqueue request = .ok (true, after)) :
    ∃ merged, after.bufferedWrites.lookup request.address = some merged ∧
      (∀ queued : Request, queued.type = .write → queued.address = request.address →
        (after.mergedRequest queued).patch = merged.request.patch) ∧
      (merged.request.patch =
          (ensureWritePayload c.spec request).patch.onto older.request.patch ↔
        older.request.CoalesceExact (ensureWritePayload c.spec request)) := by
  have ready : BufferReady c := bufferReady_kept.run
    (by rw [(create_created created).result]; exact fun _ _ held => nomatch held)
    (runMeets_of_forall (fun _ _ => trivial) (fun _ _ => trivial) start ops) returns
  have keeps := prepareAccept_housekeeping c request
  have prepared := ready.housekeeping keeps
  have writes : (c.prepareAccept request).bufferedWrites = c.bufferedWrites :=
    congrArg Core.bufferedWrites keeps.core
  obtain ⟨-, entry⟩ := enqueue_cases accepts
  cases entry with
  | forwarded isRead => cases isRead.symm.trans isWrite
  | queuedRead isRead => cases isRead.symm.trans isWrite
  | maintenance isMaintenance => cases isMaintenance.symm.trans isWrite
  | buffered _ unbuffered =>
    exact absurd (prepared request.address older (writes ▸ held)).1 unbuffered
  | coalesced =>
    have newReady := mergedAs_ready (c.prepareAccept request) { request with arrival := c.clk }
    have address : ((c.prepareAccept request).mergedAs
        { request with arrival := c.clk }).address = request.address :=
      ensureWritePayload_address ..
    have ensured := ensureWritePayload_arrival (c.prepareAccept request).spec request c.clk
    obtain ⟨-, here⟩ := coalesced_ready prepared newReady
    have there : (AList.insert (ensureWritePayload (c.prepareAccept request).spec
          { request with arrival := c.clk }).address
        ((c.prepareAccept request).coalesced ((c.prepareAccept request).mergedAs
          { request with arrival := c.clk }))
        (c.prepareAccept request).bufferedWrites).lookup request.address =
        some ((c.prepareAccept request).coalesced ((c.prepareAccept request).mergedAs
          { request with arrival := c.clk })) := by
      rw [ensureWritePayload_address]
      exact AList.lookup_insert _
    have exact := coalesced_patch_iff prepared newReady (by rw [address, writes]; exact held)
    rw [← keeps.spec]
    refine ⟨_, there, fun queued type same =>
      mergedRequest_patch there (here.trans address) type same, ?_⟩
    have patch : ((c.prepareAccept request).mergedAs { request with arrival := c.clk }).patch =
        (ensureWritePayload (c.prepareAccept request).spec request).patch := by
      unfold mergedAs
      rw [ensured]
      rfl
    have condition : older.request.CoalesceExact
          ((c.prepareAccept request).mergedAs { request with arrival := c.clk }) ↔
        older.request.CoalesceExact
          (ensureWritePayload (c.prepareAccept request).spec request) := by
      unfold mergedAs
      rw [ensured]
      exact Iff.rfl
    rwa [patch, condition] at exact

end Runs

/-- A controller with a pending write of one line at `0`, and what offering another request does. -/
def offered (request : Request) : Except Exception
    (Controller SparseMemoryBackend × Bool × Controller SparseMemoryBackend) := do
  let start ← create twoBanks {} (imageOf twoBanks)
  let (_, c) ← start.run [.enqueue (writeAt twoBanks 1 0 [1, 2, 3, 4])]
  return (c, ← c.enqueue request)

theorem offered_cases {c after : Controller SparseMemoryBackend} {accepted : Bool}
    (returns : offered request = .ok (c, accepted, after)) : ∃ start events,
    create twoBanks {} (imageOf twoBanks) = .ok start ∧
      start.run [.enqueue (writeAt twoBanks 1 0 [1, 2, 3, 4])] = .ok (events, c) ∧
      c.enqueue request = .ok (accepted, after) := by
  obtain ⟨start, creates, returns⟩ := bind_eq_ok.mp returns
  obtain ⟨⟨events, queued⟩, runs, returns⟩ := bind_eq_ok.mp returns
  obtain ⟨_, accepts, returned⟩ := bind_eq_ok.mp returns
  cases returned
  exact ⟨start, events, creates, runs, accepts⟩

/-- A masked write of the second and the third byte of the line. -/
def maskedWrite : Request :=
  { writeAt twoBanks 2 0 [7, 8, 9] with byteMask := [0, 1, 1], hasByteMask := true }

theorem coalesce_exact_masked : ∃ start events, ∃ c after : Controller SparseMemoryBackend,
    ∃ older merged, create twoBanks {} (imageOf twoBanks) = .ok start ∧
      start.run [.enqueue (writeAt twoBanks 1 0 [1, 2, 3, 4])] = .ok (events, c) ∧
      c.bufferedWrites.lookup 0 = some older ∧ c.enqueue maskedWrite = .ok (true, after) ∧
      after.bufferedWrites.lookup 0 = some merged ∧ merged.request.patch =
        (ensureWritePayload c.spec maskedWrite).patch.onto older.request.patch := by
  obtain ⟨⟨c, accepted, after⟩, returns, checks⟩ := passes_iff.mp (show passes (offered maskedWrite)
    (fun (c, accepted, _) => accepted && (c.bufferedWrites.lookup 0).any fun older =>
      decide (older.request.CoalesceExact (ensureWritePayload c.spec maskedWrite))) = true by
    decide +kernel)
  obtain ⟨start, events, created, runs, accepts⟩ := offered_cases returns
  obtain ⟨rfl, held⟩ := Bool.and_eq_true_iff.mp checks
  obtain ⟨older, held, exact⟩ := (Option.any_eq_true _ _).mp held
  obtain ⟨merged, there, -, covers⟩ := coalesce_exact_iff created runs
    (show c.bufferedWrites.lookup maskedWrite.address = some older from held) rfl accepts
  exact ⟨start, events, c, after, older, merged, created, runs, held, accepts, there,
    covers.mpr (of_decide_eq_true exact)⟩

/-- An unmasked write of the first byte replaces the pending line: its other bytes are lost. -/
theorem short_write_drops_bytes : ∃ start events, ∃ c after : Controller SparseMemoryBackend,
    ∃ older merged, create twoBanks {} (imageOf twoBanks) = .ok start ∧
      start.run [.enqueue (writeAt twoBanks 1 0 [1, 2, 3, 4])] = .ok (events, c) ∧
      c.bufferedWrites.lookup 0 = some older ∧
      c.enqueue (writeAt twoBanks 2 0 [9]) = .ok (true, after) ∧
      after.bufferedWrites.lookup 0 = some merged ∧ older.request.patch 1 = some 2 ∧
      (ensureWritePayload c.spec (writeAt twoBanks 2 0 [9])).patch 1 = none ∧
      merged.request.patch 1 = none := by
  obtain ⟨⟨c, accepted, after⟩, returns, checks⟩ := passes_iff.mp (show passes
    (offered (writeAt twoBanks 2 0 [9])) (fun (c, accepted, after) => accepted &&
      (c.bufferedWrites.lookup 0).any fun older => (after.bufferedWrites.lookup 0).any fun merged =>
        decide (older.request.patch 1 = some 2 ∧
          (ensureWritePayload c.spec (writeAt twoBanks 2 0 [9])).patch 1 = none ∧
          merged.request.patch 1 = none)) = true by
    decide +kernel)
  obtain ⟨start, events, created, runs, accepts⟩ := offered_cases returns
  obtain ⟨rfl, held⟩ := Bool.and_eq_true_iff.mp checks
  obtain ⟨older, held, there⟩ := (Option.any_eq_true _ _).mp held
  obtain ⟨merged, there, bytes⟩ := (Option.any_eq_true _ _).mp there
  exact ⟨start, events, c, after, older, merged, created, runs, held, accepts, there,
    of_decide_eq_true bytes⟩

end Controller

end HbmSim
