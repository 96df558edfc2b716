/-
What is dumped is loaded again. A text file lays its lines over those an image has, a
binary file takes their place; either way the lines of the dumped image come back with
their bytes and marks, into an image of the same device with the same capacity, on any
backend.

The numbers of a device are signed 32-bit and addresses unsigned 64-bit in the source,
which the files rely on.
-/

import HbmSim.ImageDump
import HbmSim.LineIsolation

namespace HbmSim

open TextForm (coordinates dumpHeader dumpTextLine parseTextLine)

/-! ### Images that take lines over -/

/-- A mask with `0xff` for every mark. -/
def canonicalMask (mask : ByteVector) : ByteVector := mask.map fun byte => if byte ≠ 0 then 0xff else 0

theorem canonicalMask_bits (mask : ByteVector) :
    (canonicalMask mask).map (· != 0) = mask.map (· != 0) := by
  unfold canonicalMask
  rw [List.map_map]
  refine List.map_congr_left fun byte _ => ?_
  by_cases marked : byte = 0
  · simp [marked]
  · simp [marked]

theorem canonicalMask_of_canonical {mask : ByteVector}
    (canonical : ∀ byte ∈ mask, byte = 0 ∨ byte = 0xff) : canonicalMask mask = mask := by
  refine (List.map_congr_left fun byte member => ?_).trans (List.map_id mask)
  rcases canonical byte member with rfl | rfl <;> rfl

theorem canonicalMask_canonical {mask : ByteVector} :
    ∀ byte ∈ canonicalMask mask, byte = 0 ∨ byte = 0xff := by
  intro byte member
  obtain ⟨old, -, rfl⟩ := List.mem_map.mp member
  split
  · exact Or.inr rfl
  · exact Or.inl rfl

variable {β γ : Type} [CheckpointBackend β] [CheckpointBackend γ]
variable {image : MemoryImage β} {target middle after : MemoryImage γ} {spec : DramSpec}
variable {base : Nat} {block : DataBlock} {content : Nat → DataBlock}

/-- The line has the bytes and the marks of the block; where the marks are spelt as a write spells
them, they are the same and the check bits are those of the bytes. -/
def HasLine (backend : γ) (base : Nat) (block : DataBlock) : Prop :=
  ∃ kept, MemoryBackend.load backend base = .ok (some kept) ∧
    kept.Keeps block.bytes block.initializedMask ∧
    ((∀ byte ∈ block.initializedMask, byte = 0 ∨ byte = 0xff) →
      kept.initializedMask = block.initializedMask ∧
        ∀ lineSize, (MemoryImage.blockFromBackendLine lineSize kept).Clean)

/-- An image took over the content of some lines, and changed nothing else it stores. -/
structure Restores (before after : MemoryImage γ) (bases : List Nat) (content : Nat → DataBlock) :
    Prop where
  config : after.config = before.config
  lineSize : MemoryBackend.lineSize after.backend = MemoryBackend.lineSize before.backend
  capacity : MemoryBackend.capacityBytes after.backend = MemoryBackend.capacityBytes before.backend
  rows : after.rowBuffers = before.rowBuffers
  there : ∀ base ∈ bases, HasLine after.backend base (content base)
  others : ∀ base ∉ bases,
    MemoryBackend.load after.backend base = MemoryBackend.load before.backend base

theorem Restores.refl : Restores target target [] content :=
  ⟨rfl, rfl, rfl, rfl, fun _ member => absurd member List.not_mem_nil, fun _ _ => rfl⟩

theorem Restores.append {first second : List Nat} (front : Restores target middle first content)
    (back : Restores middle after second content) :
    Restores target after (first ++ second) content where
  config := back.config.trans front.config
  lineSize := back.lineSize.trans front.lineSize
  capacity := back.capacity.trans front.capacity
  rows := back.rows.trans front.rows
  there base member := by
    by_cases later : base ∈ second
    · exact back.there base later
    · obtain ⟨kept, loads, keeps⟩ :=
        front.there base ((List.mem_append.mp member).resolve_right later)
      exact ⟨kept, (back.others base later).trans loads, keeps⟩
  others base member := by
    rw [List.mem_append, not_or] at member
    exact (back.others base member.2).trans (front.others base member.1)

/-- A block whose marks are spelt out stands for the block it was made from. -/
theorem HasLine.of_canonical {backend : γ} {stored : DataBlock} (has : HasLine backend base stored)
    (bytes : stored.bytes = block.bytes)
    (mask : stored.initializedMask = canonicalMask block.initializedMask) :
    HasLine backend base block := by
  obtain ⟨kept, loads, keeps, exactly⟩ := has
  refine ⟨kept, loads, ⟨keeps.bytes.trans bytes, ?_⟩, fun canonical => ?_⟩
  · rw [keeps.mask, mask, canonicalMask_bits]
  · obtain ⟨same, clean⟩ := exactly (mask ▸ canonicalMask_canonical)
    exact ⟨same.trans (mask.trans (canonicalMask_of_canonical canonical)), clean⟩

omit [CheckpointBackend γ] in
theorem Storable.transfer {backend : β} {backend' : γ} [MemoryBackend γ] {bytes mask : Nat}
    (storable : Storable backend base bytes mask)
    (size : MemoryBackend.lineSize backend' = MemoryBackend.lineSize backend)
    (capacity : MemoryBackend.capacityBytes backend' = MemoryBackend.capacityBytes backend) :
    Storable backend' base bytes mask := by
  obtain ⟨aligned, bytes, mask, inside⟩ := storable
  rw [← size] at aligned bytes mask inside
  rw [← capacity] at inside
  exact ⟨aligned, bytes, mask, inside⟩

theorem refreshEccShadow_clean (options : StorageModelOptions) (block : DataBlock)
    (counters : EccCounters) : (refreshEccShadow options block counters).1.Clean := by
  intro valid
  by_cases enabled : options.eccShadowEnabled = true
  · rw [refreshEccShadow_bytes]
    exact refreshEccShadow_shadowOf enabled block counters
  · unfold refreshEccShadow at valid
    rw [if_pos (Bool.eq_false_of_not_eq_true enabled)] at valid
    cases valid

variable [RestorableBackend γ]

/-- A block of the right size and place is stored. -/
theorem storeBackendLine_restores
    (storable : Storable target.backend base block.bytes.length block.initializedMask.length)
    (clean : block.Clean) :
    ∃ after, target.storeBackendLine base block = .ok after ∧
      Restores target after [base] fun _ => block := by
  obtain ⟨⟨inserted, backend⟩, stores⟩ := (RestorableBackend.store_iff target.backend base
    (backendLineFromBlock block)).mpr storable
  obtain ⟨size, exactly, others⟩ := LawfulMemoryBackend.store_ok _ _ _ _ _ stores
  obtain ⟨kept, loads, keeps⟩ := LawfulCheckpointBackend.store_keeps _ _ _ _ _ stores
  obtain ⟨capacity, -⟩ := RestorableBackend.store_key _ _ _ _ _ stores
  refine ⟨{ target with backend }, bind_eq_ok.mpr ⟨_, stores, rfl⟩, rfl, size, capacity, rfl, ?_,
    fun other elsewhere => others other (List.ne_of_not_mem_cons elsewhere)⟩
  intro other here
  obtain rfl := List.mem_singleton.mp here
  refine ⟨kept, loads, keeps, fun canonical => ?_⟩
  have same : kept = backendLineFromBlock block := Option.some.inj (Except.ok.inj
    (loads.symm.trans (exactly ⟨storable.bytes, storable.mask, canonical⟩)))
  subst same
  refine ⟨rfl, fun lineSize valid => ?_⟩
  obtain ⟨valid, hamming, overall⟩ := clean valid
  exact ⟨valid, hamming, overall⟩

/-! ### A line of a text file -/

/-- The span of an access to a whole line. -/
def wholeSpan (base size : Nat) : LineSpan := { base, offset := 0, copied := 0, chunk := size }

omit [CheckpointBackend γ] [RestorableBackend γ] in
/-- A map that puts the element of another list in every place makes that list. -/
theorem mapIdx_eq {α : Type} {old new : List α} {place : Nat → α → α}
    (length : old.length = new.length)
    (each : ∀ index (below : index < new.length) value, place index value = new[index]) :
    old.mapIdx place = new := by
  refine List.ext_getElem (List.length_mapIdx.trans length) fun index _ below => ?_
  rw [List.getElem_mapIdx, each index below]

omit [CheckpointBackend γ] [RestorableBackend γ] in
/-- The data of a whole line takes the place of what was there. -/
theorem overlay_whole {line : TextLine} (bytes : block.bytes.length = line.data.length)
    (mask : block.initializedMask.length = line.data.length)
    (marks : line.initMask.length = line.data.length) (some : line.data ≠ []) :
    (line.overlay (wholeSpan base line.data.length) block).bytes = line.data ∧
      (line.overlay (wholeSpan base line.data.length) block).initializedMask =
        canonicalMask line.initMask := by
  have inside : ∀ index < line.data.length,
      (0 ≤ index ∧ index < 0 + line.data.length) ∧ 0 + (index - 0) = index := by
    intro index below
    omega
  have given : line.initMask.isEmpty = false := by
    rw [List.isEmpty_eq_false_iff]
    intro empty
    rw [empty] at marks
    exact some (List.length_eq_zero_iff.mp marks.symm)
  refine ⟨mapIdx_eq bytes fun index below old => ?_, mapIdx_eq ?_ fun index below old => ?_⟩
  · obtain ⟨here, same⟩ := inside index below
    refine (if_pos here).trans ?_
    show line.data[0 + (index - 0)]?.getD old = _
    rw [same, List.getElem?_eq_getElem below]
    rfl
  · rw [canonicalMask, List.length_map, marks, mask]
  · have marked : index < line.initMask.length := by
      rw [canonicalMask, List.length_map] at below
      exact below
    have entry : (canonicalMask line.initMask)[index] =
        if line.initMask[index] ≠ 0 then 0xff else 0 := List.getElem_map _
    obtain ⟨here, same⟩ := inside index (marks ▸ marked)
    refine (if_pos here).trans ?_
    show (if line.initializes (0 + (index - 0)) then _ else _) = _
    rw [entry, same]
    unfold TextLine.initializes
    rw [given, List.getElem?_eq_getElem marked]
    simp

omit [RestorableBackend γ] in
/-- What a load lays a line over has the size of a line. -/
theorem loadedOrNew_sized {decoded : DecodedAddress} (placed : target.Placed spec)
    (inBounds : decoded.InBounds spec)
    (inside : ∃ found, MemoryBackend.load target.backend base = .ok found) :
    ∃ stored block, target.loadBackendLine base (some decoded) = .ok stored ∧
      target.loadedOrNew stored base (some decoded) = .ok block ∧
      block.bytes.length = target.lineSize ∧ block.initializedMask.length = target.lineSize := by
  have places := physicalAddress_of_spec placed.hasSpec inBounds base
  obtain ⟨found, loads⟩ := inside
  cases found with
  | none =>
    refine ⟨none, _, bind_eq_ok.mpr ⟨none, loads, rfl⟩, bind_eq_ok.mpr ⟨_, places, rfl⟩, ?_, ?_⟩
    · exact List.length_replicate
    · exact List.length_replicate
  | some line =>
    obtain ⟨storable, -⟩ := placed.stored base line loads
    have keys := storageKey_of_spec placed.hasSpec inBounds base
    have found : ∃ block, target.loadBackendLine base (some decoded) = .ok (some block) ∧
        block.bytes = line.bytes ∧ block.initializedMask = line.initializedMask :=
      ⟨_, bind_eq_ok.mpr ⟨some line, loads, bind_eq_ok.mpr ⟨_, keys,
        bind_eq_ok.mpr ⟨_, places, rfl⟩⟩⟩, rfl, rfl⟩
    obtain ⟨block, found, bytes, mask⟩ := found
    refine ⟨some block, block, found, rfl, ?_, ?_⟩
    · rw [bytes, storable.bytes, placed.lineSize]
    · rw [mask, storable.mask, placed.lineSize]

/-- A line with everything a dump says of it is stored. -/
theorem loadTextLine_restores {line : TextLine} {decoded : DecodedAddress}
    (placed : target.Placed spec) (wide : target.capacityBytes ≤ uint64Max)
    (storable : Storable target.backend line.address line.data.length line.initMask.length)
    (given : line.decoded = some decoded) (inBounds : decoded.InBounds spec) :
    ∃ after, target.loadTextLine line = .ok after ∧ Restores target after [line.address]
      fun _ => { bytes := line.data, initializedMask := line.initMask } := by
  obtain ⟨aligned, bytes, mask, inside⟩ := storable
  have sized := placed.lineSize
  have positive : 0 < target.lineSize := placed.transaction ▸ transactionBytes_pos spec
  have room : line.address + target.lineSize ≤ target.capacityBytes :=
    sized ▸ (inside.resolve_left placed.capacity.ne').2
  rw [sized] at aligned bytes mask
  have valid : validateAddressSpan line.address line.data.length "memory image text input"
      target.capacityBytes = .ok () := by
    unfold validateAddressSpan
    refine bind_eq_ok.mpr ⟨(), throwIf_eq_ok.mpr ?_, throwIf_eq_ok.mpr ?_⟩ <;> omega
  have spans : lineSpans target.lineSize line.address line.data.length =
      [wholeSpan line.address line.data.length] :=
    @lineSpans_line target.lineSize line.address 0 _ aligned (bytes ▸ positive) (by omega)
  have first : lineBase target.lineSize line.address = line.address := by
    unfold lineBase
    rw [aligned, Nat.sub_zero]
  obtain ⟨stored, block, found, makes, blockBytes, blockMask⟩ :=
    @loadedOrNew_sized γ _ target spec line.address decoded placed inBounds
      (RestorableBackend.load_inside _ _ _ ⟨sized.symm ▸ aligned, rfl, rfl, inside⟩)
  obtain ⟨data, marks⟩ := @overlay_whole line.address block line (blockBytes.trans bytes.symm)
    (blockMask.trans bytes.symm) (mask.trans bytes.symm)
    (List.ne_nil_of_length_pos (bytes ▸ positive))
  let loaded := MemoryImage.refreshLineMetadata
    { line.overlay (wholeSpan line.address line.data.length) block with
      version := 0
      lastWriterRequestId := 0
      lastWriteCycle := 0 }
  let shadowed := refreshEccShadow target.options loaded target.counters
  have shadowedBytes : shadowed.1.bytes = line.data := (refreshEccShadow_bytes _ _ _).trans data
  have shadowedMask : shadowed.1.initializedMask = canonicalMask line.initMask :=
    (Checkpoint.refreshEccShadow_mask _ _ _).trans marks
  have fits : Storable (target.account shadowed.2 target.nextVersion).backend line.address
      shadowed.1.bytes.length shadowed.1.initializedMask.length := by
    rw [shadowedBytes, shadowedMask, canonicalMask, List.length_map]
    exact ⟨sized.symm ▸ aligned, bytes.trans sized.symm, mask.trans sized.symm, inside⟩
  obtain ⟨after, stores, restores⟩ := storeBackendLine_restores fits (refreshEccShadow_clean _ _ _)
  refine ⟨after, bind_eq_ok.mpr ⟨(), valid, ?_⟩, restores.config, restores.lineSize,
    restores.capacity, restores.rows, fun base here => ?_, restores.others⟩
  · rw [spans, List.foldlM_cons]
    refine bind_eq_ok.mpr ⟨after, ?_, rfl⟩
    have place : (if (wholeSpan line.address line.data.length).base =
        lineBase target.lineSize line.address then line.decoded else none) = some decoded :=
      (if_pos first.symm).trans given
    unfold MemoryImage.loadTextSpan
    dsimp only
    rw [place]
    exact bind_eq_ok.mpr ⟨stored, found, bind_eq_ok.mpr ⟨block, makes, stores⟩⟩
  · exact (restores.there base here).of_canonical shadowedBytes shadowedMask

/-! ### Text -/

/-- The numbers of a device are signed 32-bit in the source. -/
structure DramSpec.IntSized (spec : DramSpec) : Prop where
  channels : spec.org.channels ≤ intMax
  pseudoChannels : spec.org.pseudoChannels ≤ intMax
  sids : spec.org.sids ≤ intMax
  ranks : spec.org.ranks ≤ intMax
  bankGroups : spec.org.bankGroups ≤ intMax
  banksPerGroup : spec.org.banksPerGroup ≤ intMax
  rows : spec.org.rows ≤ intMax
  columns : spec.org.columns ≤ intMax
  transaction : spec.transactionBytes ≤ intMax

theorem DramSpec.IntSized.fitsInt {decoded : DecodedAddress} (sized : spec.IntSized)
    (inBounds : decoded.InBounds spec) : TextForm.FitsInt decoded where
  channel := inBounds.channel.le.trans sized.channels
  pseudoChannel := inBounds.pseudoChannel.le.trans sized.pseudoChannels
  sid := inBounds.sid.le.trans sized.sids
  rank := inBounds.rank.le.trans sized.ranks
  bankGroup := inBounds.bankGroup.le.trans sized.bankGroups
  bank := inBounds.bank.le.trans sized.banksPerGroup
  row := inBounds.row.le.trans sized.rows
  column := inBounds.column.le.trans sized.columns

/-- A block that a dump found, in a backend of the same size as the image it goes to. -/
structure Dumped (spec : DramSpec) (target : MemoryImage γ) (base : Nat) (block : DataBlock) :
    Prop where
  storable : Storable target.backend base block.bytes.length block.initializedMask.length
  inBounds : (coordinates block.physical).InBounds spec

omit [RestorableBackend γ] in
theorem Dumped.restores {other : Nat} {bases : List Nat} (dumped : Dumped spec target other block)
    (restores : Restores target after bases content) : Dumped spec after other block :=
  ⟨dumped.storable.transfer restores.lineSize restores.capacity, dumped.inBounds⟩

/-- A dumped line, read back, is stored. -/
theorem loadTextStep_restores (positive : spec.org.Positive) (sized : spec.IntSized)
    (placed : target.Placed spec) (wide : target.capacityBytes ≤ uint64Max)
    (dumped : Dumped spec target base block) (lineno : Nat) :
    ∃ after, target.loadTextStep (dumpTextLine base block, lineno) = .ok after ∧
      after.Placed spec ∧ Restores target after [base] fun _ => block := by
  obtain ⟨storable, inBounds⟩ := dumped
  have below : base ≤ uint64Max := by
    obtain inside := storable.capacity.resolve_left placed.capacity.ne'
    exact inside.1.le.trans wide
  have some : block.bytes ≠ [] := by
    refine List.ne_nil_of_length_pos ?_
    rw [storable.bytes, placed.lineSize, placed.transaction]
    exact transactionBytes_pos spec
  obtain ⟨after, loads, restores⟩ := @loadTextLine_restores γ _ target spec _
    { address := base
      data := block.bytes
      initMask := block.initializedMask
      decoded := Option.some (coordinates block.physical) } _ placed wide storable rfl inBounds
  refine ⟨after, bind_eq_ok.mpr ⟨_, TextForm.parseTextLine_dumpTextLine lineno below
    (sized.fitsInt inBounds) some, loads⟩, loadTextLine_placed positive placed loads, ?_⟩
  exact ⟨restores.config, restores.lineSize, restores.capacity, restores.rows, restores.there,
    restores.others⟩

/-- The lines of a dump, read back one by one, are stored. -/
theorem loadTextLines_restores (positive : spec.org.Positive) (sized : spec.IntSized)
    (placed : target.Placed spec) (wide : target.capacityBytes ≤ uint64Max) (bases : List Nat)
    (dumped : ∀ base ∈ bases, Dumped spec target base (content base)) (lineno : Nat) :
    ∃ after, ((bases.map fun base => dumpTextLine base (content base)).zipIdx lineno).foldlM
        MemoryImage.loadTextStep target = .ok after ∧
      Restores target after bases content := by
  induction bases generalizing target lineno with
  | nil => exact ⟨target, rfl, Restores.refl⟩
  | cons base rest inductionHypothesis =>
    obtain ⟨here, later⟩ := List.forall_mem_cons.mp dumped
    obtain ⟨middle, first, placed, restores⟩ :=
      loadTextStep_restores positive sized placed wide here lineno
    have front : Restores target middle [base] content := by
      refine ⟨restores.config, restores.lineSize, restores.capacity, restores.rows,
        fun other member => ?_, restores.others⟩
      obtain rfl := List.mem_singleton.mp member
      exact restores.there other member
    have wide : middle.capacityBytes ≤ uint64Max := restores.capacity.le.trans wide
    obtain ⟨after, others, back⟩ := inductionHypothesis placed wide
      (fun other member => (later other member).restores restores) (lineno + 1)
    refine ⟨after, ?_, front.append back⟩
    rw [List.map_cons, List.zipIdx_cons, List.foldlM_cons]
    exact bind_eq_ok.mpr ⟨middle, first, others⟩

theorem dumpHeader_comment : ∃ rest, dumpHeader.toList = '#' :: rest := by
  unfold dumpHeader
  simp only [String.toList_append]
  exact ⟨_, rfl⟩

/-- The first line of a dump says nothing. -/
theorem parseTextLine_dumpHeader (lineno : Nat) : parseTextLine lineno dumpHeader = .ok none := by
  have empty : TextForm.strippedLine dumpHeader = "" := by
    obtain ⟨rest, starts⟩ := dumpHeader_comment
    unfold TextForm.strippedLine
    rw [starts, List.takeWhile_cons_of_neg (by simp)]
    rfl
  unfold parseTextLine
  exact if_pos empty

variable [RestorableBackend β]

omit [RestorableBackend γ] in
/-- What a dump finds can be stored in an image of the same size. -/
theorem storedBlock_dumped (placed : image.Placed spec) (placed' : target.Placed spec)
    (capacity : target.capacityBytes = image.capacityBytes)
    (listed : base ∈ CheckpointBackend.allAddresses image.backend) :
    Dumped spec target base (image.storedBlock base) := by
  obtain ⟨line, loads, -, found⟩ := storedBlock_found placed listed
  obtain ⟨storable, -⟩ := placed.stored base line loads
  have size : MemoryBackend.lineSize target.backend = MemoryBackend.lineSize image.backend := by
    rw [placed'.lineSize, placed'.transaction, placed.lineSize, placed.transaction]
  refine ⟨?_, found.inBounds⟩
  rw [found.bytes, found.mask]
  exact storable.transfer size capacity

/-- Every line of a backend is in another one, with the same bytes and marks. -/
def Carries (first : β) (second : γ) : Prop :=
  ∀ base line, MemoryBackend.load first base = .ok (some line) →
    ∃ kept, MemoryBackend.load second base = .ok (some kept) ∧
      kept.Keeps line.bytes line.initializedMask

omit [RestorableBackend γ] in
theorem Restores.carries (placed : image.Placed spec)
    (restores : Restores target after (CheckpointBackend.allAddresses image.backend)
      image.storedBlock) : Carries image.backend after.backend := by
  intro base line loads
  obtain ⟨-, found⟩ := loadBackendLine_stored placed loads
  obtain ⟨kept, there, keeps, -⟩ :=
    restores.there base ((ListedBackend.mem_allAddresses _ _).mpr ⟨line, loads⟩)
  exact ⟨kept, there, keeps.bytes.trans found.bytes, keeps.mask.trans (by rw [found.mask])⟩

theorem loadText_restores (positive : spec.org.Positive) (sized : spec.IntSized)
    (placed : image.Placed spec) (placed' : target.Placed spec)
    (capacity : target.capacityBytes = image.capacityBytes)
    (wide : image.capacityBytes ≤ uint64Max) :
    ∃ lines after, image.dumpText = .ok lines ∧ target.loadText lines = .ok after ∧
      Restores target after (CheckpointBackend.allAddresses image.backend) image.storedBlock := by
  obtain ⟨after, loads, restores⟩ := loadTextLines_restores positive sized placed'
    (capacity.le.trans wide) (CheckpointBackend.allAddresses image.backend)
    (fun base listed => storedBlock_dumped placed placed' capacity listed) 2
  refine ⟨_, after, dumpText_eq placed, ?_, restores⟩
  unfold MemoryImage.loadText
  rw [List.zipIdx_cons, List.foldlM_cons]
  exact bind_eq_ok.mpr ⟨target, bind_eq_ok.mpr ⟨none, parseTextLine_dumpHeader 1, rfl⟩, loads⟩

/-- The text of an image that is reached is loaded into any other image of the device with the same
capacity, and brings back every line; the lines it does not have stay as they were. -/
theorem loadText_dumpText (reachable : image.Reachable spec) (reachable' : target.Reachable spec)
    (sized : spec.IntSized) (capacity : target.capacityBytes = image.capacityBytes)
    (wide : image.capacityBytes ≤ uint64Max) :
    ∃ lines after, image.dumpText = .ok lines ∧ target.loadText lines = .ok after ∧
      Carries image.backend after.backend ∧
      ∀ base ∉ allocated image.backend,
        MemoryBackend.load after.backend base = MemoryBackend.load target.backend base := by
  obtain ⟨positive, placed⟩ := reachable.placed
  obtain ⟨lines, after, dumps, loads, restores⟩ :=
    loadText_restores positive sized placed reachable'.placed.2 capacity wide
  refine ⟨lines, after, dumps, loads, restores.carries placed, fun base absent => ?_⟩
  exact restores.others base fun listed => absent ((ListedBackend.mem_allAddresses _ _).mp listed)

theorem smallSpec_intSized : smallSpec.IntSized := by
  constructor <;> decide

/-- Two lines of the small device, as text. -/
theorem loadText_dumpText_small : ∃ outputs image lines after,
    Transition.run MemoryImage.applyStorage fullImage writeThenRead = .ok (outputs, image) ∧
      image.dumpText = .ok lines ∧ fullImage.loadText lines = .ok after ∧
      Carries image.backend after.backend ∧
      ∀ base ∉ allocated image.backend,
        MemoryBackend.load after.backend base = MemoryBackend.load fullImage.backend base := by
  have returns : ∃ result, Transition.run MemoryImage.applyStorage fullImage writeThenRead =
      .ok result ∧ result.2.capacityBytes = 16 := ⟨_, rfl, rfl⟩
  obtain ⟨⟨outputs, image⟩, returns, capacity⟩ := returns
  have created : MemoryImage.create smallSpec 0 {} = .ok fullImage := rfl
  obtain ⟨lines, after, dumps, loads, carries, others⟩ :=
    loadText_dumpText (MemoryImage.Reachable.run (.created created) returns) (.created created)
      smallSpec_intSized capacity.symm (capacity.le.trans (by decide))
  exact ⟨outputs, image, lines, after, returns, dumps, loads, carries, others⟩

/-! ### Binary files -/

namespace Checkpoint

/-- A number at the front of the input is read back. -/
theorem readLe_encode {width value : Nat} (fits : value < 256 ^ width) (rest : ByteVector) :
    readLe width (LittleEndian.encode width value ++ rest) = .ok (value, rest) := by
  have length := LittleEndian.length_encode width value
  unfold readLe
  rw [if_neg (by rw [List.length_append, length]; omega), List.take_left' length,
    List.drop_left' length, LittleEndian.decode_encode fits]

theorem readHeader_header {path : String} {lineSize entryCount : Nat} (narrow : lineSize < 2 ^ 32)
    (few : entryCount < 2 ^ 32) (body : ByteVector) :
    readHeader path lineSize (header lineSize entryCount ++ body) = .ok (entryCount, body) := by
  unfold readHeader header
  simp only [List.append_assoc]
  refine bind_eq_ok.mpr ⟨_, readLe_encode (by decide) _, ?_⟩
  refine bind_eq_ok.mpr ⟨_, readLe_encode (by decide) _, ?_⟩
  refine bind_eq_ok.mpr ⟨_, readLe_encode narrow _, ?_⟩
  refine bind_eq_ok.mpr ⟨_, readLe_encode few _, ?_⟩
  refine bind_eq_ok.mpr ⟨_, readLe_encode (by decide) _, ?_⟩
  have same : lineSize = asUint32 lineSize := (Nat.mod_eq_of_lt narrow).symm
  refine bind_eq_ok.mpr ⟨(), throwIf_eq_ok.mpr (not_not.mpr rfl), ?_⟩
  refine bind_eq_ok.mpr ⟨(), throwIf_eq_ok.mpr (not_not.mpr rfl), ?_⟩
  exact bind_eq_ok.mpr ⟨(), throwIf_eq_ok.mpr (not_not.mpr same), rfl⟩

/-- The entry of a line is read back. -/
theorem readEntry_dumpEntry {lineSize : Nat} (narrow : lineSize < 2 ^ 32) (below : base < 2 ^ 64)
    (bytes : block.bytes.length = lineSize) (mask : block.initializedMask.length = lineSize)
    (index : Nat) (rest : ByteVector) :
    readEntry lineSize index (dumpEntry base block ++ rest) =
      .ok ({ base, bytes := block.bytes, initializedMask := block.initializedMask }, rest) := by
  have same : asUint32 lineSize = lineSize := Nat.mod_eq_of_lt narrow
  unfold readEntry dumpEntry
  dsimp only
  rw [bytes, same]
  simp only [List.append_assoc]
  refine bind_eq_ok.mpr ⟨_, readLe_encode below _, ?_⟩
  refine bind_eq_ok.mpr ⟨_, readLe_encode narrow _, ?_⟩
  rw [List.take_of_length_le bytes.le, List.take_of_length_le mask.le]
  refine bind_eq_ok.mpr ⟨(), throwIf_eq_ok.mpr (not_not.mpr rfl), ?_⟩
  refine bind_eq_ok.mpr ⟨(), throwIf_eq_ok.mpr ?_, ?_⟩
  · rw [List.length_append, List.length_append, bytes, mask]
    omega
  · rw [List.take_left' bytes, List.drop_left' bytes, List.take_left' mask, ← List.drop_drop,
      List.drop_left' bytes, List.drop_left' mask]
    rfl

end Checkpoint

omit [RestorableBackend β] [CheckpointBackend β] in
/-- An entry of a line is stored. -/
theorem restoreEntry_restores {entry : Checkpoint.Entry} (placed : target.Placed spec)
    (storable : Storable target.backend entry.base entry.bytes.length
      entry.initializedMask.length) :
    ∃ after, target.restoreEntry entry = (.ok (), after) ∧ Restores target after [entry.base]
      fun _ => { bytes := entry.bytes, initializedMask := entry.initializedMask } := by
  have places : ∃ physical, target.restoredPhysical entry.base = .ok physical := by
    unfold MemoryImage.restoredPhysical MemoryImage.physicalAddress physicalAddress
    rw [placed.hasSpec]
    exact ⟨_, rfl⟩
  obtain ⟨physical, places⟩ := places
  have makes : ∃ block, target.restoredBlock entry = .ok block ∧ block.bytes = entry.bytes ∧
      block.initializedMask = entry.initializedMask :=
    ⟨_, bind_eq_ok.mpr ⟨physical, places, rfl⟩, rfl, rfl⟩
  obtain ⟨block, makes, bytes, mask⟩ := makes
  let shadowed := refreshEccShadow target.options block target.counters
  have shadowedBytes : shadowed.1.bytes = entry.bytes :=
    (refreshEccShadow_bytes _ _ _).trans bytes
  have shadowedMask : shadowed.1.initializedMask = entry.initializedMask :=
    (Checkpoint.refreshEccShadow_mask _ _ _).trans mask
  have fits : Storable (target.account shadowed.2 target.nextVersion).backend entry.base
      shadowed.1.bytes.length shadowed.1.initializedMask.length := by
    rw [shadowedBytes, shadowedMask]
    exact storable
  obtain ⟨after, stores, restores⟩ := storeBackendLine_restores fits (refreshEccShadow_clean _ _ _)
  refine ⟨after, ?_, restores.config, restores.lineSize, restores.capacity, restores.rows,
    fun base here => ?_, restores.others⟩
  · unfold MemoryImage.restoreEntry
    rw [makes]
    dsimp only
    rw [stores]
  · obtain ⟨kept, loads, keeps, exactly⟩ := restores.there base here
    rw [shadowedBytes, shadowedMask] at keeps
    rw [shadowedMask] at exactly
    exact ⟨kept, loads, keeps, exactly⟩

/-- The entries of a dump, read back one by one, are stored. -/
theorem loadEntries_restores (positive : spec.org.Positive) (sized : spec.IntSized)
    (placed : target.Placed spec) (wide : target.capacityBytes ≤ uint64Max) (bases : List Nat)
    (dumped : ∀ base ∈ bases, Dumped spec target base (content base)) (index : Nat) :
    ∃ after, target.loadEntries bases.length index
        (bases.flatMap fun base => Checkpoint.dumpEntry base (content base)) = (.ok (), after) ∧
      Restores target after bases content := by
  induction bases generalizing target index with
  | nil => exact ⟨target, rfl, Restores.refl⟩
  | cons base rest inductionHypothesis =>
    obtain ⟨⟨storable, inBounds⟩, later⟩ := List.forall_mem_cons.mp dumped
    have narrow : target.lineSize < 2 ^ 32 := by
      rw [placed.transaction]
      exact sized.transaction.trans_lt (by decide)
    have below : base < 2 ^ 64 := by
      have inside := (storable.capacity.resolve_left placed.capacity.ne').1
      exact (inside.trans_le wide).trans (by decide)
    have reads := Checkpoint.readEntry_dumpEntry narrow below
      (storable.bytes.trans placed.lineSize) (storable.mask.trans placed.lineSize) index
      (rest.flatMap fun base => Checkpoint.dumpEntry base (content base))
    obtain ⟨middle, first, restores⟩ := @restoreEntry_restores γ _ target spec _
      { base, bytes := (content base).bytes, initializedMask := (content base).initializedMask }
      placed storable
    have front : Restores target middle [base] content := by
      refine ⟨restores.config, restores.lineSize, restores.capacity, restores.rows,
        fun other member => ?_, restores.others⟩
      obtain rfl := List.mem_singleton.mp member
      exact restores.there other member
    obtain ⟨after, others, back⟩ := inductionHypothesis (restoreEntry_placed positive placed first)
      (restores.capacity.le.trans wide) (fun other member => (later other member).restores restores)
      (index + 1)
    refine ⟨after, ?_, front.append back⟩
    rw [List.flatMap_cons, List.length_cons]
    unfold MemoryImage.loadEntries
    rw [reads]
    dsimp only
    rw [first]
    exact others

theorem loadBinary_restores (positive : spec.org.Positive) (sized : spec.IntSized)
    (placed : image.Placed spec) (placed' : target.Placed spec)
    (capacity : target.capacityBytes = image.capacityBytes)
    (wide : image.capacityBytes ≤ uint64Max)
    (few : CheckpointBackend.allocatedLines image.backend < 2 ^ 32) (path : String) :
    ∃ bytes after, image.dumpBinary = .ok bytes ∧
      target.loadBinary path (some bytes) = (.ok (), after) ∧
      Restores target.cleared after (CheckpointBackend.allAddresses image.backend)
        image.storedBlock := by
  obtain ⟨-, clearedCapacity, -⟩ := LawfulCheckpointBackend.clear_ok target.backend
  have capacity : target.cleared.capacityBytes = image.capacityBytes :=
    clearedCapacity.trans capacity
  obtain ⟨after, loads, restores⟩ := loadEntries_restores positive sized (cleared_placed placed')
    (capacity.le.trans wide) (CheckpointBackend.allAddresses image.backend)
    (fun base listed => storedBlock_dumped placed (cleared_placed placed') capacity listed) 0
  refine ⟨_, after, dumpBinary_eq placed few, ?_, restores⟩
  have narrow : image.lineSize < 2 ^ 32 := by
    rw [placed.transaction]
    exact sized.transaction.trans_lt (by decide)
  have size : target.lineSize = image.lineSize := placed'.transaction.trans placed.transaction.symm
  unfold MemoryImage.loadBinary
  dsimp only
  rw [size, Checkpoint.readHeader_header narrow
    ((RestorableBackend.addresses image.backend).2 ▸ few)]
  exact loads

/-- The binary file of an image that is reached is loaded into any other image of the device with
the same capacity, which then has the lines of the first and no other. -/
theorem loadBinary_dumpBinary (reachable : image.Reachable spec)
    (reachable' : target.Reachable spec) (sized : spec.IntSized)
    (capacity : target.capacityBytes = image.capacityBytes)
    (wide : image.capacityBytes ≤ uint64Max)
    (few : CheckpointBackend.allocatedLines image.backend < 2 ^ 32) (path : String) :
    ∃ bytes after, image.dumpBinary = .ok bytes ∧
      target.loadBinary path (some bytes) = (.ok (), after) ∧
      Carries image.backend after.backend ∧
      allocated after.backend = allocated image.backend ∧ after.rowBuffers = ∅ := by
  obtain ⟨positive, placed⟩ := reachable.placed
  obtain ⟨bytes, after, dumps, loads, restores⟩ :=
    loadBinary_restores positive sized placed reachable'.placed.2 capacity wide few path
  have carries := restores.carries placed
  refine ⟨bytes, after, dumps, loads, carries, ?_, restores.rows⟩
  ext base
  constructor
  · rintro ⟨line, found⟩
    by_contra absent
    rw [restores.others base fun listed =>
      absent ((ListedBackend.mem_allAddresses _ _).mp listed)] at found
    cases (LawfulCheckpointBackend.clear_ok target.backend).2.2 base _ found
  · rintro ⟨line, found⟩
    obtain ⟨kept, there, -⟩ := carries base line found
    exact ⟨kept, there⟩

/-- Two lines of the small device, as a binary file. -/
theorem loadBinary_dumpBinary_small : ∃ outputs image bytes after,
    Transition.run MemoryImage.applyStorage fullImage writeThenRead = .ok (outputs, image) ∧
      image.dumpBinary = .ok bytes ∧
      fullImage.loadBinary "small.bin" (some bytes) = (.ok (), after) ∧
      Carries image.backend after.backend ∧
      allocated after.backend = allocated image.backend ∧ after.rowBuffers = ∅ := by
  have returns : ∃ result, Transition.run MemoryImage.applyStorage fullImage writeThenRead =
      .ok result ∧ result.2.capacityBytes = 16 ∧
        CheckpointBackend.allocatedLines result.2.backend = 2 := ⟨_, rfl, rfl, rfl⟩
  obtain ⟨⟨outputs, image⟩, returns, capacity, few⟩ := returns
  have created : MemoryImage.create smallSpec 0 {} = .ok fullImage := rfl
  obtain ⟨bytes, after, dumps, loads, carries, same, rows⟩ :=
    loadBinary_dumpBinary (MemoryImage.Reachable.run (.created created) returns) (.created created)
      smallSpec_intSized capacity.symm (capacity.le.trans (by decide))
      (few.trans_lt (by decide)) "small.bin"
  exact ⟨outputs, image, bytes, after, returns, dumps, loads, carries, same, rows⟩

end HbmSim
