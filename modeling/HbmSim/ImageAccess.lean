/-
Access to one line through the row buffers.

The mutable lookup copies a line into its open row, and the copy it finds or
makes is sound. One span of a read returns the content of its bytes, and the
masked copy of a span gives a sound block the new content of its line.
-/

import HbmSim.ImageInvariant

namespace HbmSim

/-! ### The content of a range -/

section Content

variable {defaultValue : UInt8} {flat : Patch Nat UInt8}

theorem contentBytes_append (start first second : Nat) :
    contentBytes defaultValue flat start first ++
        contentBytes defaultValue flat (start + first) second =
      contentBytes defaultValue flat start (first + second) := by
  unfold contentBytes
  rw [List.range_add, List.map_append, List.map_map]
  refine congrArg _ (List.map_congr_left fun index _ => ?_)
  rw [Function.comp_apply, Nat.add_assoc]

theorem contentMask_append (start first second : Nat) :
    contentMask flat start first ++ contentMask flat (start + first) second =
      contentMask flat start (first + second) := by
  unfold contentMask
  rw [List.range_add, List.map_append, List.map_map]
  refine congrArg _ (List.map_congr_left fun index _ => ?_)
  rw [Function.comp_apply, Nat.add_assoc]

theorem allMasked_append (first second : ByteVector) :
    allMasked (first ++ second) = (allMasked first && allMasked second) :=
  List.all_append

theorem allMasked_replicate_zero {count : Nat} (positive : 0 < count) :
    allMasked (List.replicate count 0) = false := by
  obtain ⟨rest, rfl⟩ := Nat.exists_eq_add_of_lt positive
  rfl

theorem drop_take_range (total offset chunk : Nat) (inside : offset + chunk ≤ total) :
    ((List.range total).drop offset).take chunk = (List.range chunk).map (offset + ·) := by
  obtain ⟨rest, rfl⟩ := Nat.exists_eq_add_of_le inside
  rw [Nat.add_assoc, List.range_add, List.drop_append_of_le_length (by rw [List.length_range]),
    List.drop_eq_nil_of_le (by rw [List.length_range]), List.nil_append, List.range_add,
    List.map_append, List.take_append_of_le_length (by rw [List.length_map, List.length_range]),
    List.take_of_length_le (by rw [List.length_map, List.length_range])]

/-- The slice of a line's content is the content of the span. -/
theorem spanSlice_lineBytes {config : ImageConfig} {span : LineSpan}
    (inside : span.offset + span.chunk ≤ config.lineSize) :
    MemoryImage.spanSlice span (lineBytes config flat span.base) =
      contentBytes config.defaultValue flat (span.base + span.offset) span.chunk := by
  unfold MemoryImage.spanSlice lineBytes contentBytes
  rw [← List.map_drop, ← List.map_take, drop_take_range _ _ _ inside, List.map_map]
  refine List.map_congr_left fun index _ => ?_
  rw [Function.comp_apply, Nat.add_assoc]

theorem spanSlice_lineMask {config : ImageConfig} {span : LineSpan}
    (inside : span.offset + span.chunk ≤ config.lineSize) :
    MemoryImage.spanSlice span (lineMask config flat span.base) =
      contentMask flat (span.base + span.offset) span.chunk := by
  unfold MemoryImage.spanSlice lineMask contentMask
  rw [← List.map_drop, ← List.map_take, drop_take_range _ _ _ inside, List.map_map]
  refine List.map_congr_left fun index _ => ?_
  rw [Function.comp_apply, Nat.add_assoc]

/-- Unwritten bytes read as the default and are not initialized. -/
theorem contentBytes_of_none (defaultValue : UInt8) {start count : Nat}
    (unwritten : ∀ index < count, flat (start + index) = none) :
    contentBytes defaultValue flat start count = List.replicate count defaultValue ∧
      contentMask flat start count = List.replicate count 0 := by
  unfold contentBytes contentMask
  constructor
  · rw [List.eq_replicate_iff]
    refine ⟨by rw [List.length_map, List.length_range], fun byte member => ?_⟩
    obtain ⟨index, inRange, rfl⟩ := List.mem_map.mp member
    rw [unwritten index (List.mem_range.mp inRange)]
    rfl
  · rw [List.eq_replicate_iff]
    refine ⟨by rw [List.length_map, List.length_range], fun byte member => ?_⟩
    obtain ⟨index, inRange, rfl⟩ := List.mem_map.mp member
    rw [unwritten index (List.mem_range.mp inRange)]
    rfl

end Content

/-! ### Lines and their open rows -/

section Access

variable {β : Type} {image after : MemoryImage β}
variable {spec : DramSpec} {flat : Patch Nat UInt8} {base : Nat}

theorem lineBase_of_aligned {lineSize base : Nat} (aligned : base % lineSize = 0) :
    lineBase lineSize base = base := by
  unfold lineBase
  rw [aligned, Nat.sub_zero]

/-- A block that is sound and goes back to its own line. -/
structure HomeSound (config : ImageConfig) (flat : Patch Nat UInt8) (base : Nat)
    (block : DataBlock) : Prop where
  sound : Sound config flat base block
  home : block.physical.logicalLineBase = base

/-- A line nobody stored starts out sound. -/
theorem makeLine_spec {block : DataBlock} (valid : image.config.Valid spec)
    (inside : InGeometry image.config spec base)
    (unwritten : ∀ index < image.lineSize, flat (base + index) = none)
    (returns : image.makeLine base (some (decode spec base)) = .ok block) :
    HomeSound image.config flat base block := by
  unfold MemoryImage.makeLine at returns
  rw [physicalAddress_ok valid (decode_inBounds valid.positive base)] at returns
  obtain ⟨physical, placed, returned⟩ := bind_eq_ok.mp returns
  cases placed
  cases returned
  obtain ⟨bytes, mask⟩ := contentBytes_of_none image.defaultValue unwritten
  refine ⟨Or.inl ⟨bytes.symm, mask.symm, fun valid => Bool.noConfusion valid⟩, ?_⟩
  exact lineBase_of_aligned inside.aligned

/-- The line's row is not open. -/
def RowClosed (image : MemoryImage β) (spec : DramSpec) (base : Nat) : Prop :=
  ∀ entry, image.rowBuffers.lookup (bankOf image.config spec base) = some entry →
    entry.open = false ∨ entry.rowKey ≠ rowKeyFromStorageKey (lineKey image.config spec base)

theorem RowClosed.not_heldDirty (closed : RowClosed image spec base) :
    ¬ HeldDirty image spec base := by
  rintro ⟨entry, lookup, dirty⟩
  rcases closed entry lookup with shut | otherRow
  · rw [dirty.isOpen] at shut
    cases shut
  · exact otherRow dirty.row

theorem peekRowBufferBlock_eq (valid : image.config.Valid spec) :
    image.peekRowBufferBlock base (some (decode spec base)) =
      match image.rowBuffers.lookup (bankOf image.config spec base) with
      | none => .ok none
      | some entry =>
        if entry.open = false ∨
            entry.rowKey ≠ rowKeyFromStorageKey (lineKey image.config spec base) then .ok none
        else .ok (entry.columns.lookup (decode spec base).column) := by
  unfold MemoryImage.peekRowBufferBlock
  dsimp only
  rw [storageKey_line valid]
  show (match image.rowBuffers.lookup (bankOf image.config spec base) with
      | none => _
      | some entry => _) = _
  cases image.rowBuffers.lookup (bankOf image.config spec base) with
  | none => rfl
  | some entry => rfl

theorem putRowBufferBlock_eq {entry : RowBufferEntry} {key : StorageKey} {block : DataBlock}
    (lookup : image.rowBuffers.lookup (bankKeyFromStorageKey key) = some entry) :
    image.putRowBufferBlock key block = image.setRowBuffer (bankKeyFromStorageKey key)
      { entry with columns := entry.columns.insert (key.column.getD 0) block } := by
  unfold MemoryImage.putRowBufferBlock
  rw [lookup]

/-- Putting a line's copy into a row buffer just replaced. -/
theorem putRowBufferBlock_line (config : ImageConfig) (spec : DramSpec) (base : Nat)
    (entry : RowBufferEntry) (block : DataBlock) :
    (image.setRowBuffer (bankOf config spec base) entry).putRowBufferBlock
        (lineKey config spec base) block =
      image.setRowBuffer (bankOf config spec base)
        { entry with columns := entry.columns.insert (decode spec base).column block } := by
  unfold bankOf
  rw [putRowBufferBlock_eq (setRowBuffer_lookup _ _), setRowBuffer_setRowBuffer]
  rfl

variable [MemoryBackend β]

/-- Loading a sound line gives a sound block, and nothing only for an unwritten line. -/
theorem loadBackendLine_spec {found : Option DataBlock} (valid : image.config.Valid spec)
    (inside : InGeometry image.config spec base) (stored : StoredSound image flat base)
    (returns : image.loadBackendLine base (some (decode spec base)) = .ok found) :
    match found with
    | some block => HomeSound image.config flat base block
    | none => ∀ index < image.lineSize, flat (base + index) = none := by
  unfold MemoryImage.loadBackendLine at returns
  obtain ⟨line, loads, returns⟩ := bind_eq_ok.mp returns
  have sound := stored line loads
  cases line with
  | none =>
    cases returns
    exact sound
  | some line =>
    dsimp only at returns
    rw [storageKey_line valid] at returns
    obtain ⟨key, -, returns⟩ := bind_eq_ok.mp returns
    rw [Option.getD_some, physicalAddress_ok valid (decode_inBounds valid.positive base)] at returns
    obtain ⟨physical, placed, returned⟩ := bind_eq_ok.mp returns
    cases placed
    cases returned
    refine ⟨sound.of_same rfl rfl rfl rfl rfl, ?_⟩
    exact lineBase_of_aligned inside.aligned

theorem loadedOrNew_spec {stored : Option DataBlock} {block : DataBlock}
    (valid : image.config.Valid spec) (inside : InGeometry image.config spec base)
    (sound : StoredSound image flat base)
    (loads : image.loadBackendLine base (some (decode spec base)) = .ok stored)
    (returns : image.loadedOrNew stored base (some (decode spec base)) = .ok block) :
    HomeSound image.config flat base block ∧ (stored = none → block.Clean) := by
  have loaded := loadBackendLine_spec valid inside sound loads
  cases stored with
  | some backing =>
    cases returns
    exact ⟨loaded, fun absent => nomatch absent⟩
  | none =>
    refine ⟨makeLine_spec valid inside loaded returns, fun _ => ?_⟩
    obtain ⟨_, -, returned⟩ := bind_eq_ok.mp returns
    cases returned
    exact fun valid => Bool.noConfusion valid

/-! ### The buffered copy of a line -/

/-- Putting a sound copy of a line into its open row, as a copy that is written or one that the
backend agrees with, gives an image that holds the content. -/
theorem putRowBufferBlock_holds {entry : RowBufferEntry} (block : DataBlock) (dirty : Bool)
    (cycle : Nat) {other : Patch Nat UInt8} {middle : MemoryImage β}
    (holds : Holds image spec flat) (inside : InGeometry image.config spec base)
    (lookup : image.rowBuffers.lookup (bankOf image.config spec base) = some entry)
    (isOpen : entry.open = true)
    (row : entry.rowKey = rowKeyFromStorageKey (lineKey image.config spec base))
    (copy : HomeSound image.config other base block)
    (sameElsewhere : ∀ line, InGeometry image.config spec line → line ≠ base →
      ∀ index < image.lineSize, flat (line + index) = other (line + index))
    (kept : entry.dirty = true → dirty = true)
    (agrees : dirty = true ∨ StoredSound middle other base)
    (config : middle.config = image.config)
    (backendLine : MemoryBackend.lineSize middle.backend = MemoryBackend.lineSize image.backend)
    (others : ∀ line, InGeometry image.config spec line → line ≠ base →
      StoredSound image flat line → StoredSound middle flat line)
    (rowBuffers : middle.rowBuffers = image.rowBuffers.insert (bankOf image.config spec base)
      { entry with
        dirty
        lastAccessCycle := cycle
        columns := entry.columns.insert (decode spec base).column block }) :
    Holds middle spec other := by
  have good := holds.good lookup
  have elsewhere : ∀ line, InGeometry image.config spec line →
      bankOf image.config spec line ≠ bankOf image.config spec base → line ≠ base := by
    rintro line - differs rfl
    exact differs rfl
  refine holds.replace config backendLine rowBuffers ⟨good.bank, ?_⟩
    (fun line lineIn differs => sameElsewhere line lineIn (elsewhere line lineIn differs)) ?_
    (fun line lineIn differs => others line lineIn (elsewhere line lineIn differs))
  · intro _ column held lookedUp
    dsimp only at lookedUp
    by_cases here : column = (decode spec base).column
    · rw [here, AList.lookup_insert, Option.some.injEq] at lookedUp
      rw [here, ← lookedUp]
      exact ⟨base, inside, row.symm, rfl, copy.home, copy.sound⟩
    · rw [AList.lookup_insert_ne here] at lookedUp
      obtain ⟨line, buffered⟩ := good.buffered isOpen column held lookedUp
      refine ⟨line, buffered.congr (sameElsewhere line buffered.inside ?_)⟩
      rintro rfl
      exact here buffered.column.symm
  · intro line lineIn here notDirty
    by_cases same : line = base
    · rw [same]
      refine agrees.resolve_left fun written => notDirty ?_
      rw [same]
      refine ⟨isOpen, row, written, ?_⟩
      dsimp only
      rw [AList.lookup_insert]
      exact Option.some_ne_none block
    · have before : ¬ HeldDirty image spec line := by
        rintro ⟨found, lookedUp, dirtyLine⟩
        rw [here, lookup, Option.some.injEq] at lookedUp
        rw [← lookedUp] at dirtyLine
        refine notDirty ⟨isOpen, dirtyLine.row, kept dirtyLine.dirty, ?_⟩
        dsimp only
        by_cases column : (decode spec line).column = (decode spec base).column
        · rw [column, AList.lookup_insert]
          exact Option.some_ne_none block
        · rw [AList.lookup_insert_ne column]
          exact dirtyLine.held
      have stored := others line lineIn same (holds.stored line lineIn before)
      refine stored.congr fun index small => sameElsewhere line lineIn same index ?_
      rwa [lineSize_eq config] at small

/-- The copy of a line that the next access sees: the buffered one, else the backend's. -/
def MemoryImage.effectiveBlock (image : MemoryImage β) (base : Nat)
    (decoded : Option DecodedAddress) : Except Exception (Option DataBlock) := do
  match ← image.peekRowBufferBlock base decoded with
  | some block => return some block
  | none => image.loadBackendLine base decoded

/-- The check bits of the line fit its bytes: no injected flip is outstanding. -/
def LineClean (image : MemoryImage β) (spec : DramSpec) (base : Nat) : Prop :=
  ∀ block, image.effectiveBlock base (some (decode spec base)) = .ok (some block) → block.Clean

/-- What the mutable lookup did when it found the row open. -/
structure RowBufferHit (image after : MemoryImage β) (spec : DramSpec) (flat : Patch Nat UInt8)
    (base cycle : Nat) (key : StorageKey) (block : DataBlock) (entry : RowBufferEntry) : Prop where
  key : key = lineKey image.config spec base
  lookup : image.rowBuffers.lookup (bankOf image.config spec base) = some entry
  isOpen : entry.open = true
  row : entry.rowKey = rowKeyFromStorageKey (lineKey image.config spec base)
  copy : HomeSound image.config flat base block
  clean : LineClean image spec base → block.Clean
  after : after = image.setRowBuffer (bankOf image.config spec base)
    { entry with
      lastAccessCycle := cycle
      columns := entry.columns.insert (decode spec base).column block }

/-- With the row closed, the next access sees the backend's copy. -/
theorem RowClosed.effectiveBlock (closed : RowClosed image spec base)
    (valid : image.config.Valid spec) :
    image.effectiveBlock base (some (decode spec base)) =
      image.loadBackendLine base (some (decode spec base)) := by
  unfold MemoryImage.effectiveBlock
  rw [peekRowBufferBlock_eq valid]
  cases lookup : image.rowBuffers.lookup (bankOf image.config spec base) with
  | none => rfl
  | some entry =>
    dsimp only
    rw [if_pos (closed entry lookup)]
    rfl

/-- The copy of a line in an open row is sound, and clean when the line is. -/
theorem openRowCopy_spec {entry : RowBufferEntry} {block : DataBlock}
    (holds : Holds image spec flat) (inside : InGeometry image.config spec base)
    (lookup : image.rowBuffers.lookup (bankOf image.config spec base) = some entry)
    (isOpen : entry.open = true)
    (row : entry.rowKey = rowKeyFromStorageKey (lineKey image.config spec base))
    (returns : image.openRowCopy entry (lineKey image.config spec base) base (decode spec base) =
      .ok block) :
    Sound image.config flat base block ∧ (LineClean image spec base → block.Clean) := by
  have valid := holds.valid
  have peeked : image.peekRowBufferBlock base (some (decode spec base)) =
      .ok (entry.columns.lookup (decode spec base).column) := by
    rw [peekRowBufferBlock_eq valid, lookup]
    dsimp only
    rw [if_neg]
    simp [isOpen, row]
  unfold MemoryImage.openRowCopy at returns
  change (match entry.columns.lookup (decode spec base).column with
      | some block => _
      | none => _) = _ at returns
  unfold LineClean MemoryImage.effectiveBlock
  rw [peeked]
  cases held : entry.columns.lookup (decode spec base).column with
  | some copied =>
    rw [held] at returns
    cases returns
    obtain ⟨line, buffered⟩ := (holds.good lookup).buffered isOpen _ block held
    have same : line = base :=
      line_eq valid buffered.inside inside (buffered.row.trans row) buffered.column
    exact ⟨same ▸ buffered.sound, fun clean => clean block rfl⟩
  | none =>
    rw [held] at returns
    obtain ⟨stored, loads, made⟩ := bind_eq_ok.mp returns
    have notHeld : ¬ HeldDirty image spec base := by
      rintro ⟨other, found, dirty⟩
      rw [lookup, Option.some.injEq] at found
      rw [← found] at dirty
      exact dirty.held held
    obtain ⟨copy, clean⟩ :=
      loadedOrNew_spec valid inside (holds.stored base inside notHeld) loads made
    refine ⟨copy.sound, fun lineClean => ?_⟩
    cases stored with
    | none => exact clean rfl
    | some backing =>
      cases made
      exact lineClean block loads

/-- The mutable lookup either finds the line's row closed and does nothing, or puts a sound copy
of the line into the open row. -/
theorem rowBufferBlock_spec {cycle : Nat} {found : Option (StorageKey × DataBlock)}
    (holds : Holds image spec flat) (inside : InGeometry image.config spec base)
    (returns : image.rowBufferBlock base (some (decode spec base)) cycle = .ok (found, after)) :
    match found with
    | none => after = image ∧ RowClosed image spec base
    | some (key, block) =>
      ∃ entry, RowBufferHit image after spec flat base cycle key block entry := by
  have valid := holds.valid
  unfold MemoryImage.rowBufferBlock at returns
  dsimp only at returns
  rw [storageKey_line valid] at returns
  obtain ⟨lineKey', keyed, returns⟩ := bind_eq_ok.mp returns
  cases keyed
  change (match image.rowBuffers.lookup (bankOf image.config spec base) with
      | none => _
      | some entry => _) = _ at returns
  cases lookup : image.rowBuffers.lookup (bankOf image.config spec base) with
  | none =>
    rw [lookup] at returns
    cases returns
    refine ⟨rfl, fun entry found => ?_⟩
    rw [lookup] at found
    cases found
  | some entry =>
    rw [lookup] at returns
    dsimp only at returns
    by_cases closed : entry.open = false ∨
        entry.rowKey ≠ rowKeyFromStorageKey (lineKey image.config spec base)
    · rw [if_pos closed] at returns
      cases returns
      refine ⟨rfl, fun other found => ?_⟩
      rw [lookup, Option.some.injEq] at found
      rw [← found]
      exact closed
    rw [if_neg closed] at returns
    simp only [not_or, Bool.not_eq_false, ne_eq, not_not] at closed
    obtain ⟨isOpen, row⟩ := closed
    obtain ⟨copied, copies, returns⟩ := bind_eq_ok.mp returns
    rw [physicalAddress_ok valid (decode_inBounds valid.positive base)] at returns
    obtain ⟨physical, placed, returned⟩ := bind_eq_ok.mp returns
    cases placed
    obtain ⟨copy, clean⟩ := openRowCopy_spec holds inside lookup isOpen row copies
    rw [putRowBufferBlock_eq (setRowBuffer_lookup _ _), setRowBuffer_setRowBuffer] at returned
    cases returned
    refine ⟨entry, rfl, lookup, isOpen, row, ⟨copy.of_same rfl rfl rfl rfl rfl, ?_⟩, ?_, rfl⟩
    · exact lineBase_of_aligned inside.aligned
    · intro lineClean valid
      have shadow := clean lineClean valid
      exact ⟨shadow.valid, shadow.hamming, shadow.overall⟩

end Access

/-! ### The masked copy of a span -/

section Overlay

variable {config : ImageConfig} {flat : Patch Nat UInt8} {block : DataBlock}
variable {span : LineSpan} {data : ByteVector} {mask : Option ByteVector}

/-- What a span writes, as a patch of addresses. -/
def spanPatch (span : LineSpan) (data : ByteVector) (mask : Option ByteVector) :
    Patch Nat UInt8 :=
  fun address => if span.base ≤ address then spanByte span data mask (address - span.base) else none

theorem spanPatch_base_add (index : Nat) :
    spanPatch span data mask (span.base + index) = spanByte span data mask index := by
  unfold spanPatch
  rw [if_pos (Nat.le_add_right _ _), Nat.add_sub_cancel_left]

/-- A span inside its line leaves every other line alone. -/
theorem spanPatch_elsewhere (inside : span.offset + span.chunk ≤ config.lineSize)
    (aligned : span.base % config.lineSize = 0) {line : Nat}
    (lineAligned : line % config.lineSize = 0) (differs : line ≠ span.base) {index : Nat}
    (small : index < config.lineSize) : spanPatch span data mask (line + index) = none := by
  unfold spanPatch
  split
  next reached =>
    unfold spanByte
    rw [if_neg]
    rintro ⟨-, below, -⟩
    have lineParts := Nat.div_add_mod line config.lineSize
    have baseParts := Nat.div_add_mod span.base config.lineSize
    rw [lineAligned] at lineParts
    rw [aligned] at baseParts
    rcases Nat.lt_trichotomy (line / config.lineSize) (span.base / config.lineSize) with
      before | same | later
    · have steps : config.lineSize * (line / config.lineSize + 1) ≤
          config.lineSize * (span.base / config.lineSize) := Nat.mul_le_mul_left _ before
      rw [Nat.mul_add, Nat.mul_one] at steps
      omega
    · rw [same] at lineParts
      omega
    · have steps : config.lineSize * (span.base / config.lineSize + 1) ≤
          config.lineSize * (line / config.lineSize) := Nat.mul_le_mul_left _ later
      rw [Nat.mul_add, Nat.mul_one] at steps
      omega
  next => rfl

/-- Where the span writes nothing, the block has the bytes of the content. -/
theorem Sound.getElem?_bytes (sound : Sound config flat span.base block)
    (positive : 0 < config.lineSize)
    (covered : block.Clean ∨ spanByte span data mask 0 ≠ none) (index : Nat)
    (untouched : spanByte span data mask index = none) :
    block.bytes[index]? = (lineBytes config flat span.base)[index]? := by
  rcases sound with settled | flipped
  · rw [settled.bytes]
  · rcases covered with clean | overwritten
    · exfalso
      have shadow := clean flipped.shadow.valid
      have same := flipped.shadow.hamming.symm.trans shadow.hamming
      have inside : 0 < (lineBytes config flat span.base).length * 8 := by
        rw [lineBytes_length]
        omega
      rw [flipped.bytes, computeSecdedShadow_flip_hamming inside] at same
      have zero := Nat.xor_eq_zero_iff.mpr same
      rw [← Nat.xor_assoc, Nat.xor_self, Nat.zero_xor] at zero
      exact absurd zero (by decide)
    · have differs : index ≠ 0 := by
        rintro rfl
        exact overwritten untouched
      rw [flipped.bytes]
      unfold flipByteBit
      have off : ¬ 0 / 8 = index := by omega
      simp only [List.getElem?_modify, off, if_false]
      cases (lineBytes config flat span.base)[index]? <;> rfl

theorem lineBytes_getElem? (base index : Nat) :
    (lineBytes config flat base)[index]? =
      if index < config.lineSize then some ((flat (base + index)).getD config.defaultValue)
      else none := by
  unfold lineBytes contentBytes
  rw [List.getElem?_map]
  by_cases inside : index < config.lineSize
  · rw [List.getElem?_range inside, if_pos inside]
    rfl
  · rw [if_neg inside, List.getElem?_eq_none (by rw [List.length_range]; omega)]
    rfl

theorem lineMask_getElem? (base index : Nat) :
    (lineMask config flat base)[index]? =
      if index < config.lineSize then some (if (flat (base + index)).isSome then 0xff else 0)
      else none := by
  unfold lineMask contentMask
  rw [List.getElem?_map]
  by_cases inside : index < config.lineSize
  · rw [List.getElem?_range inside, if_pos inside]
    rfl
  · rw [if_neg inside, List.getElem?_eq_none (by rw [List.length_range]; omega)]
    rfl

/-- Copying a span into a sound block gives the block the new content, provided an outstanding
flip of bit 0 is overwritten. -/
theorem overlaySpan_spec (sound : Sound config flat span.base block)
    (positive : 0 < config.lineSize)
    (covered : block.Clean ∨ spanByte span data mask 0 ≠ none) :
    (overlaySpan block span data mask).bytes =
        lineBytes config ((spanPatch span data mask).onto flat) span.base ∧
      (overlaySpan block span data mask).initializedMask =
        lineMask config ((spanPatch span data mask).onto flat) span.base := by
  constructor
  · refine List.ext_getElem? fun index => ?_
    unfold overlaySpan
    rw [List.getElem?_mapIdx, lineBytes_getElem?, Patch.onto_apply, spanPatch_base_add]
    cases written : spanByte span data mask index with
    | none =>
      rw [sound.getElem?_bytes positive covered index written, lineBytes_getElem?, Option.none_or]
      by_cases inside : index < config.lineSize
      · simp only [inside, if_true]
        rfl
      · simp only [inside, if_false]
        rfl
    | some value =>
      by_cases inside : index < config.lineSize
      · rw [if_pos inside, List.getElem?_eq_getElem (by rw [sound.length]; exact inside)]
        rfl
      · rw [if_neg inside, List.getElem?_eq_none (by rw [sound.length]; omega)]
        rfl
  · refine List.ext_getElem? fun index => ?_
    unfold overlaySpan
    rw [List.getElem?_mapIdx, lineMask_getElem?, Patch.onto_apply, spanPatch_base_add, sound.mask,
      lineMask_getElem?]
    by_cases inside : index < config.lineSize
    · rw [if_pos inside, if_pos inside]
      cases spanByte span data mask index <;> rfl
    · rw [if_neg inside, if_neg inside]
      rfl

/-- A span that writes nothing is the empty patch. -/
theorem spanPatch_of_not_writesAny (nothing : spanWritesAny span data mask = false) :
    spanPatch span data mask = Patch.empty := by
  funext address
  unfold spanPatch
  split
  next =>
    by_contra written
    have bounds : span.offset ≤ address - span.base ∧
        address - span.base < span.offset + span.chunk := by
      unfold spanByte at written
      by_contra outside
      refine written (if_neg ?_)
      tauto
    obtain ⟨index, equal⟩ := Nat.exists_eq_add_of_le bounds.1
    unfold spanWritesAny at nothing
    rw [List.any_eq_false] at nothing
    refine nothing index (List.mem_range.mpr (by omega)) ?_
    rw [← equal, Option.isSome_iff_ne_none]
    exact written
  next => rfl

end Overlay

/-! ### One span -/

section Span

variable {β : Type} {image after : MemoryImage β}
variable {spec : DramSpec} {flat : Patch Nat UInt8} {span : LineSpan}

theorem protect_physical (block : DataBlock) :
    (image.protect block).1.physical = block.physical := by
  have refreshed : (refreshEccShadow image.options block image.counters).1.physical =
      block.physical := by
    unfold refreshEccShadow
    split <;> rfl
  unfold MemoryImage.protect maybeInjectEccError
  dsimp only
  split
  · exact refreshed
  split
  · exact refreshed
  · exact refreshed

/-- A written block, protected again, is sound for the content with the span laid over it. -/
theorem protect_written_spec {block : DataBlock} {mask : Option ByteVector} {data : ByteVector}
    {stamp : MemoryImage.WriteStamp} (valid : image.config.Valid spec)
    (copy : HomeSound image.config flat span.base block)
    (covered : block.Clean ∨ spanByte span data mask 0 ≠ none) (written : DataBlock)
    (bytes : written.bytes = (image.writtenBlock block span data mask stamp).bytes)
    (initialized : written.initializedMask =
      (image.writtenBlock block span data mask stamp).initializedMask)
    (physical : written.physical = (image.writtenBlock block span data mask stamp).physical) :
    HomeSound image.config ((spanPatch span data mask).onto flat) span.base
      (image.protect written).1 := by
  obtain ⟨newBytes, newMask⟩ := overlaySpan_spec copy.sound valid.lineSize_pos covered
  have same : (image.writtenBlock block span data mask stamp).bytes =
      (overlaySpan block span data mask).bytes ∧
      (image.writtenBlock block span data mask stamp).initializedMask =
        (overlaySpan block span data mask).initializedMask ∧
      (image.writtenBlock block span data mask stamp).physical = block.physical := by
    unfold MemoryImage.writtenBlock
    dsimp only
    split <;> exact ⟨rfl, rfl, rfl⟩
  refine ⟨Sound.protect ((bytes.trans same.1).trans newBytes)
    ((initialized.trans same.2.1).trans newMask) valid.switches, ?_⟩
  rw [protect_physical, physical, same.2.2]
  exact copy.home

variable [MemoryBackend β]

/-- The initialized-mask read looks at the copy the next access sees. -/
theorem maskSpan_eq (span : LineSpan) (decoded : Option DecodedAddress) :
    image.maskSpan span decoded = do
      let found ← image.effectiveBlock span.base decoded
      return (found.map fun block => MemoryImage.spanSlice span block.initializedMask).getD
        (List.replicate span.chunk 0) := by
  unfold MemoryImage.maskSpan MemoryImage.effectiveBlock
  cases image.peekRowBufferBlock span.base decoded with
  | error => rfl
  | ok peeked =>
    cases peeked with
    | some => rfl
    | none =>
      show (image.loadBackendLine span.base decoded >>= _) =
        (image.loadBackendLine span.base decoded >>= _)
      refine congrArg _ (funext fun found => ?_)
      cases found <;> rfl

/-- What one operation of the image keeps: the content it holds afterwards and its
configuration. -/
structure Keeps (image after : MemoryImage β) (spec : DramSpec) (flat : Patch Nat UInt8) : Prop where
  holds : Holds after spec flat
  config : after.config = image.config

/-- The copy the next access sees is sound, and there is none only for an unwritten line. -/
theorem effectiveBlock_spec {base : Nat} {found : Option DataBlock} (holds : Holds image spec flat)
    (inside : InGeometry image.config spec base)
    (returns : image.effectiveBlock base (some (decode spec base)) = .ok found) :
    match found with
    | some block => Sound image.config flat base block
    | none => ∀ index < image.lineSize, flat (base + index) = none := by
  have valid := holds.valid
  unfold MemoryImage.effectiveBlock at returns
  obtain ⟨peeked, peeks, returns⟩ := bind_eq_ok.mp returns
  rw [peekRowBufferBlock_eq valid] at peeks
  cases peeked with
  | some block =>
    cases returns
    cases lookup : image.rowBuffers.lookup (bankOf image.config spec base) with
    | none =>
      rw [lookup] at peeks
      cases peeks
    | some entry =>
      rw [lookup] at peeks
      dsimp only at peeks
      split at peeks
      next => cases peeks
      next openHere =>
        simp only [not_or, Bool.not_eq_false, ne_eq, not_not] at openHere
        rw [Except.ok.injEq] at peeks
        obtain ⟨line, buffered⟩ := (holds.good lookup).buffered openHere.1 _ block peeks
        have same : line = base :=
          line_eq valid buffered.inside inside (buffered.row.trans openHere.2) buffered.column
        exact same ▸ buffered.sound
  | none =>
    have notHeld : ¬ HeldDirty image spec base := by
      rintro ⟨entry, lookup, dirty⟩
      rw [lookup] at peeks
      dsimp only at peeks
      rw [if_neg (by simp [dirty.isOpen, dirty.row]), Except.ok.injEq] at peeks
      exact dirty.held peeks
    have sound := loadBackendLine_spec valid inside (holds.stored base inside notHeld) returns
    cases found with
    | some block => exact sound.sound
    | none => exact sound

/-- A span of an initialized-mask read returns the mask of the content of its bytes. -/
theorem maskSpan_spec {out : ByteVector} (holds : Holds image spec flat)
    (inside : InGeometry image.config spec span.base)
    (fits : span.offset + span.chunk ≤ image.lineSize)
    (returns : image.maskSpan span (some (decode spec span.base)) = .ok out) :
    out = contentMask flat (span.base + span.offset) span.chunk := by
  rw [maskSpan_eq] at returns
  obtain ⟨found, effective, returned⟩ := bind_eq_ok.mp returns
  have sound := effectiveBlock_spec holds inside effective
  cases returned
  cases found with
  | some block =>
    show MemoryImage.spanSlice span block.initializedMask = _
    rw [sound.mask]
    exact spanSlice_lineMask fits
  | none =>
    refine (contentBytes_of_none 0 fun index small => ?_).2.symm
    rw [Nat.add_assoc]
    exact sound _ (by omega)

variable [LawfulMemoryBackend β]

/-- Storing a sound line keeps the other lines, and the line itself when an open row has its own
copy of it. -/
theorem storeBackendLine_holds {other : Patch Nat UInt8} {base : Nat} {block : DataBlock}
    (holds : Holds image spec flat)
    (same : ∀ line, InGeometry image.config spec line →
      (line = base → ¬ RowClosed image spec base) →
      ∀ index < image.lineSize, flat (line + index) = other (line + index))
    (sound : Sound image.config other base block)
    (returns : image.storeBackendLine base block = .ok after) : Keeps image after spec other := by
  obtain ⟨frame, storedHere, others⟩ := storeBackendLine_spec returns holds.backendLine
  refine ⟨⟨?_, ?_, ?_, ?_, ?_⟩, frame.config⟩
  · rw [frame.config]
    exact holds.valid
  · rw [frame.backendLine, holds.backendLine, lineSize_eq frame.config]
  · rw [frame.rowBuffers]
    exact holds.bank
  · rw [frame.rowBuffers, frame.config]
    intro bankKey entry lookup isOpen column held inColumns
    obtain ⟨line, buffered⟩ := holds.buffered bankKey entry lookup isOpen column held inColumns
    refine ⟨line, buffered.congr (same line buffered.inside ?_)⟩
    rintro rfl closed
    have bank : bankOf image.config spec line = bankKey :=
      buffered.bankOf_eq.trans (holds.bank bankKey entry lookup isOpen)
    rcases closed entry (bank ▸ lookup) with shut | otherRow
    · rw [isOpen] at shut
      cases shut
    · exact otherRow buffered.row.symm
  · rw [frame.config]
    intro line inside notHeld
    unfold HeldDirty at notHeld
    rw [frame.config, frame.rowBuffers] at notHeld
    by_cases here : line = base
    · rw [here]
      exact storedHere other sound
    · refine ((holds.stored line inside notHeld).of_load frame.config (others line here)).congr ?_
      rw [lineSize_eq frame.config]
      exact same line inside fun equal => absurd equal here

/-- A span of a read returns the content of its bytes. -/
theorem readSpan_spec {bytes : ByteVector} {initialized : Bool} (holds : Holds image spec flat)
    (inside : InGeometry image.config spec span.base)
    (fits : span.offset + span.chunk ≤ image.lineSize) (some_bytes : 0 < span.chunk)
    (returns : image.readSpan span (some (decode spec span.base)) =
      .ok (bytes, initialized, after)) :
    bytes = contentBytes image.defaultValue flat (span.base + span.offset) span.chunk ∧
      initialized = allMasked (contentMask flat (span.base + span.offset) span.chunk) ∧
      Keeps image after spec flat := by
  have valid := holds.valid
  unfold MemoryImage.readSpan at returns
  obtain ⟨⟨found, middle⟩, looks, continues⟩ := bind_eq_ok.mp returns
  clear returns
  have hit := rowBufferBlock_spec holds inside looks
  cases found with
  | some pair =>
    obtain ⟨key, block⟩ := pair
    obtain ⟨entry, rfl, lookup, isOpen, row, copy, -, rfl⟩ := hit
    dsimp only at continues
    rw [setRowBuffer_account, putRowBufferBlock_line] at continues
    cases continues
    have settled := copy.sound.check valid.lineSize_pos image.counters
    have frame := checkEccShadow_frame image.options block image.counters
    refine ⟨?_, ?_, ?_, rfl⟩
    · exact (congrArg (MemoryImage.spanSlice span) settled.bytes).trans (spanSlice_lineBytes fits)
    · exact congrArg allMasked
        ((congrArg (MemoryImage.spanSlice span) settled.mask).trans (spanSlice_lineMask fits))
    · refine putRowBufferBlock_holds (checkEccShadow image.options block image.counters).1
        entry.dirty 0 holds inside lookup isOpen row
        ⟨Or.inl settled, (congrArg PhysicalAddress.logicalLineBase frame.2).trans copy.home⟩
        (fun _ _ _ _ _ => rfl) id ?_ rfl rfl (fun line _ _ stored => stored.of_load rfl rfl) ?_
      · by_cases written : entry.dirty = true
        · exact Or.inl written
        · refine Or.inr ((holds.stored span.base inside ?_).of_load rfl rfl)
          rintro ⟨other, found, dirty⟩
          rw [lookup, Option.some.injEq] at found
          rw [← found] at dirty
          exact written dirty.dirty
      · show image.rowBuffers.insert _ { entry with
            lastAccessCycle := 0, columns := (entry.columns.insert _ block).insert _ _ } = _
        rw [AList.insert_insert]
        rfl
  | none =>
    obtain ⟨rfl, closed⟩ := hit
    obtain ⟨loaded, loads, finishes⟩ := bind_eq_ok.mp continues
    have stored := holds.stored span.base inside closed.not_heldDirty
    have sound := loadBackendLine_spec valid inside stored loads
    cases loaded with
    | none =>
      cases finishes
      have unwritten : ∀ index < span.chunk,
          flat (span.base + span.offset + index) = none := by
        intro index small
        rw [Nat.add_assoc]
        exact sound _ (by omega)
      obtain ⟨bytes, mask⟩ := contentBytes_of_none after.defaultValue unwritten
      refine ⟨bytes.symm, ?_, holds, rfl⟩
      rw [mask, allMasked_replicate_zero some_bytes]
    | some block =>
      dsimp only at finishes
      have settled := sound.sound.check valid.lineSize_pos middle.counters
      have accounted := holds.account (checkEccShadow middle.options block middle.counters).2
        middle.nextVersion
      have outputs : MemoryImage.spanSlice span
            (checkEccShadow middle.options block middle.counters).1.bytes =
          contentBytes middle.defaultValue flat (span.base + span.offset) span.chunk ∧
          allMasked (MemoryImage.spanSlice span
            (checkEccShadow middle.options block middle.counters).1.initializedMask) =
          allMasked (contentMask flat (span.base + span.offset) span.chunk) :=
        ⟨(congrArg (MemoryImage.spanSlice span) settled.bytes).trans (spanSlice_lineBytes fits),
          congrArg allMasked
            ((congrArg (MemoryImage.spanSlice span) settled.mask).trans (spanSlice_lineMask fits))⟩
      split at finishes
      next =>
        obtain ⟨checked, stores, returned⟩ := bind_eq_ok.mp finishes
        cases returned
        have checkedSound : Sound middle.config flat span.base
            (MemoryImage.refreshLineMetadata
              (checkEccShadow middle.options block middle.counters).1) :=
          (show Sound _ _ _ _ from Or.inl settled).of_same rfl rfl rfl rfl rfl
        have kept := storeBackendLine_holds accounted (fun _ _ _ _ _ => rfl) checkedSound stores
        exact ⟨outputs.1, outputs.2, kept.holds, kept.config⟩
      next =>
        cases finishes
        exact ⟨outputs.1, outputs.2, accounted, rfl⟩

end Span

end HbmSim
