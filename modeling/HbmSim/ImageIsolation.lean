/-
Isolation of lines in the memory image: writing one line leaves what a read of
another one sees, whatever rows are open.

A line is seen in its open row, found by its coordinates, or in the backend,
found by its address. A write touches one place of either kind, so two lines are
isolated as long as their coordinates differ. In an efficiency mode with several
pseudo channels they need not, and an open row then mixes two lines up.
-/

import HbmSim.ImageRefinement

namespace HbmSim

variable {β : Type} {image after middle : MemoryImage β} {spec : DramSpec}
variable {base : Nat} {decoded : DecodedAddress}

/-! ### What a line's coordinates find in the open rows -/

/-- The copy of a line in the open row of its bank. -/
def MemoryImage.bufferedCopy (image : MemoryImage β) (decoded : DecodedAddress) :
    Option DataBlock :=
  match image.rowBuffers.lookup (image.bankKeyFromDecoded decoded) with
  | none => none
  | some entry =>
    if entry.open = false ∨ entry.rowKey ≠ image.rowKeyFromDecoded decoded then none
    else entry.columns.lookup decoded.column

theorem bankKeyFromDecoded_congr (same : after.config = image.config) (decoded : DecodedAddress) :
    after.bankKeyFromDecoded decoded = image.bankKeyFromDecoded decoded := by
  have options : after.options = image.options := congrArg ImageConfig.options same
  unfold MemoryImage.bankKeyFromDecoded
  rw [options]

theorem rowKeyFromDecoded_congr (same : after.config = image.config) (decoded : DecodedAddress) :
    after.rowKeyFromDecoded decoded = image.rowKeyFromDecoded decoded := by
  unfold MemoryImage.rowKeyFromDecoded
  rw [bankKeyFromDecoded_congr same]

/-- The bank of the coordinates has a row buffer, and it is for their row. -/
def RowHeld (image : MemoryImage β) (decoded : DecodedAddress) : Prop :=
  ∃ entry, image.rowBuffers.lookup (image.bankKeyFromDecoded decoded) = some entry ∧
    entry.rowKey = image.rowKeyFromDecoded decoded

theorem rowKeyFromDecoded_injective {left right : DecodedAddress}
    (row : image.rowKeyFromDecoded left = image.rowKeyFromDecoded right)
    (column : left.column = right.column) : left = right := by
  cases left
  cases right
  unfold MemoryImage.rowKeyFromDecoded MemoryImage.bankKeyFromDecoded at row
  simp only [StorageKey.mk.injEq, Option.some.injEq, true_and, and_true] at row
  simp only [DecodedAddress.mk.injEq]
  tauto

theorem peekRowBufferBlock_of_spec (given : image.spec = some spec)
    (bounds : decoded.InBounds spec) (base : Nat) :
    image.peekRowBufferBlock base (some decoded) = .ok (image.bufferedCopy decoded) := by
  unfold MemoryImage.peekRowBufferBlock MemoryImage.bufferedCopy
  dsimp only
  rw [storageKey_of_spec given bounds]
  show (match image.rowBuffers.lookup (image.bankKeyFromDecoded decoded) with
    | none => Except.ok none
    | some entry => if entry.open = false ∨ entry.rowKey ≠ image.rowKeyFromDecoded decoded
      then Except.ok none else Except.ok (entry.columns.lookup decoded.column)) = _
  cases image.rowBuffers.lookup (image.bankKeyFromDecoded decoded) with
  | none => rfl
  | some entry =>
    dsimp only
    split <;> rfl

/-! ### What a write leaves alone -/

variable [MemoryBackend β]

/-- Everything is as it was, except one line: the one the backend keeps at the base, and the one
the rows keep at the coordinates. -/
structure SparesOthers (image after : MemoryImage β) (base : Nat) (decoded : DecodedAddress) :
    Prop where
  config : after.config = image.config
  backend : ∀ other, other ≠ base →
    MemoryBackend.load after.backend other = MemoryBackend.load image.backend other
  copies : ∀ other, other ≠ decoded → after.bufferedCopy other = image.bufferedCopy other

theorem SparesOthers.refl (image : MemoryImage β) (base : Nat) (decoded : DecodedAddress) :
    SparesOthers image image base decoded :=
  ⟨rfl, fun _ _ => rfl, fun _ _ => rfl⟩

theorem SparesOthers.trans (first : SparesOthers image middle base decoded)
    (second : SparesOthers middle after base decoded) : SparesOthers image after base decoded where
  config := second.config.trans first.config
  backend other differs := (second.backend other differs).trans (first.backend other differs)
  copies other differs := (second.copies other differs).trans (first.copies other differs)

/-- Replacing the row buffer of the bank by one that agrees on every other column. -/
theorem setRowBuffer_spares {entry : RowBufferEntry} (replaced : RowBufferEntry) (base : Nat)
    (lookup : image.rowBuffers.lookup (image.bankKeyFromDecoded decoded) = some entry)
    (row : entry.rowKey = image.rowKeyFromDecoded decoded)
    (sameOpen : replaced.open = entry.open) (sameRow : replaced.rowKey = entry.rowKey)
    (columns : ∀ column, column ≠ decoded.column →
      replaced.columns.lookup column = entry.columns.lookup column) :
    SparesOthers image (image.setRowBuffer (image.bankKeyFromDecoded decoded) replaced) base
        decoded ∧
      RowHeld (image.setRowBuffer (image.bankKeyFromDecoded decoded) replaced) decoded := by
  refine ⟨⟨rfl, fun _ _ => rfl, fun other differs => ?_⟩,
    ⟨replaced, setRowBuffer_lookup _ _, sameRow.trans row⟩⟩
  have keys : ∀ place, (image.setRowBuffer (image.bankKeyFromDecoded decoded)
      replaced).bankKeyFromDecoded place = image.bankKeyFromDecoded place := fun _ => rfl
  have rows : ∀ place, (image.setRowBuffer (image.bankKeyFromDecoded decoded)
      replaced).rowKeyFromDecoded place = image.rowKeyFromDecoded place := fun _ => rfl
  unfold MemoryImage.bufferedCopy
  rw [keys, rows]
  by_cases bank : image.bankKeyFromDecoded other = image.bankKeyFromDecoded decoded
  · rw [bank, setRowBuffer_lookup, lookup]
    dsimp only
    rw [sameOpen, sameRow]
    by_cases elsewhere : entry.open = false ∨ entry.rowKey ≠ image.rowKeyFromDecoded other
    · rw [if_pos elsewhere, if_pos elsewhere]
    · rw [if_neg elsewhere, if_neg elsewhere]
      refine columns _ fun column => differs ?_
      rw [not_or, not_not] at elsewhere
      exact rowKeyFromDecoded_injective (elsewhere.2.symm.trans row) column
  · have untouched : (image.setRowBuffer (image.bankKeyFromDecoded decoded)
        replaced).rowBuffers.lookup (image.bankKeyFromDecoded other) =
          image.rowBuffers.lookup (image.bankKeyFromDecoded other) :=
      AList.lookup_insert_ne bank
    rw [untouched]

omit [MemoryBackend β] in
theorem putRowBufferBlock_place {entry : RowBufferEntry} (block : DataBlock)
    (lookup : image.rowBuffers.lookup (image.bankKeyFromDecoded decoded) = some entry) :
    image.putRowBufferBlock (keyOf image.options decoded) block =
      image.setRowBuffer (image.bankKeyFromDecoded decoded)
        { entry with columns := entry.columns.insert decoded.column block } :=
  @putRowBufferBlock_eq _ image entry (keyOf image.options decoded) block lookup

theorem putRowBufferBlock_spares (base : Nat) (block : DataBlock) (held : RowHeld image decoded) :
    SparesOthers image (image.putRowBufferBlock (keyOf image.options decoded) block) base decoded ∧
      RowHeld (image.putRowBufferBlock (keyOf image.options decoded) block) decoded := by
  obtain ⟨entry, lookup, row⟩ := held
  rw [putRowBufferBlock_place block lookup]
  exact setRowBuffer_spares _ base lookup row rfl rfl fun column differs =>
    AList.lookup_insert_ne differs

theorem markDirty_spares (base : Nat) (held : RowHeld image decoded) :
    SparesOthers image (image.markDirty (image.bankKeyFromDecoded decoded)) base decoded := by
  obtain ⟨entry, lookup, row⟩ := held
  unfold MemoryImage.markDirty
  rw [lookup]
  exact (setRowBuffer_spares { entry with dirty := true } base lookup row rfl rfl
    fun _ _ => rfl).1

/-- The mutable lookup of a line spares the others, and a hit means its row is open. -/
theorem rowBufferBlock_spares {cycle : Nat} {found : Option (StorageKey × DataBlock)}
    (given : image.spec = some spec) (bounds : decoded.InBounds spec)
    (returns : image.rowBufferBlock base (some decoded) cycle = .ok (found, after)) :
    SparesOthers image after base decoded ∧
      ∀ key block, found = some (key, block) →
        key = keyOf image.options decoded ∧ RowHeld after decoded := by
  unfold MemoryImage.rowBufferBlock at returns
  dsimp only at returns
  rw [storageKey_of_spec given bounds] at returns
  obtain ⟨_, key, returns⟩ := bind_eq_ok.mp returns
  cases key
  have bank : bankKeyFromStorageKey (keyOf image.options decoded) =
      image.bankKeyFromDecoded decoded := rfl
  have row : rowKeyFromStorageKey (keyOf image.options decoded) =
      image.rowKeyFromDecoded decoded := rfl
  rw [bank, row] at returns
  cases lookup : image.rowBuffers.lookup (image.bankKeyFromDecoded decoded) with
  | none =>
    rw [lookup] at returns
    cases returns
    exact ⟨SparesOthers.refl _ _ _, fun _ _ hit => nomatch hit⟩
  | some entry =>
    rw [lookup] at returns
    dsimp only at returns
    split at returns
    next =>
      cases returns
      exact ⟨SparesOthers.refl _ _ _, fun _ _ hit => nomatch hit⟩
    next isOpen =>
      rw [not_or, not_not] at isOpen
      obtain ⟨block, -, returns⟩ := bind_eq_ok.mp returns
      obtain ⟨physical, -, returned⟩ := bind_eq_ok.mp returns
      cases returned
      obtain ⟨touched, held⟩ := setRowBuffer_spares { entry with lastAccessCycle := cycle } base
        lookup isOpen.2 rfl rfl fun _ _ => rfl
      obtain ⟨put, stillHeld⟩ := putRowBufferBlock_spares base
        { block with physical, storageKey := keyOf image.options decoded } held
      refine ⟨touched.trans put, fun key other same => ?_⟩
      cases same
      exact ⟨rfl, stillHeld⟩

theorem account_spares (base : Nat) (decoded : DecodedAddress) (counters : EccCounters)
    (version : Nat) : SparesOthers image (image.account counters version) base decoded :=
  ⟨rfl, fun _ _ => rfl, fun _ _ => rfl⟩

/-- Putting a written copy back, and marking its row as written. -/
theorem putWritten_spares (base : Nat) (block : DataBlock) (counters : EccCounters)
    (version : Nat) (held : RowHeld image decoded) :
    SparesOthers image ((image.account counters version).putRowBufferBlock
        (keyOf image.options decoded) block) base decoded ∧
      SparesOthers image (((image.account counters version).putRowBufferBlock
        (keyOf image.options decoded) block).markDirty (image.bankKeyFromDecoded decoded)) base
        decoded := by
  have accounted := @account_spares _ image _ base decoded counters version
  have accountedHeld : RowHeld (image.account counters version) decoded := held
  obtain ⟨put, stillHeld⟩ := putRowBufferBlock_spares base block accountedHeld
  have written := accounted.trans put
  have bank : MemoryImage.bankKeyFromDecoded ((image.account counters version).putRowBufferBlock
      (keyOf image.options decoded) block) decoded = image.bankKeyFromDecoded decoded :=
    bankKeyFromDecoded_congr written.config decoded
  have marked := markDirty_spares base stillHeld
  refine ⟨written, ?_⟩
  rw [← bank]
  exact written.trans marked

/-! ### What a read sees -/

/-- The bytes a check returns depend on the bytes and the check bits only. -/
theorem checkEccShadow_bytes_congr (options : StorageModelOptions) {left right : DataBlock}
    (leftCounters rightCounters : EccCounters) (bytes : left.bytes = right.bytes)
    (hamming : left.eccHamming = right.eccHamming) (overall : left.eccOverall = right.eccOverall)
    (valid : left.eccValid = right.eccValid) :
    (checkEccShadow options left leftCounters).1.bytes =
      (checkEccShadow options right rightCounters).1.bytes := by
  unfold checkEccShadow
  dsimp only
  rw [bytes, hamming, overall, valid]
  split
  · exact bytes
  split
  · exact bytes
  split
  · rfl
  split
  · rfl
  split
  · rfl
  cases dataBitForCodePosition _ _ with
  | none => rfl
  | some dataBit =>
    dsimp only
    split
    · rfl
    · rw [refreshEccShadow_bytes, refreshEccShadow_bytes]

/-- What a read of a span returns for the copy of the line it finds. -/
def seenAs (image : MemoryImage β) (span : LineSpan) : Option DataBlock → ByteVector × Bool
  | none => (List.replicate span.chunk image.defaultValue, false)
  | some block =>
    (MemoryImage.spanSlice span (checkEccShadow image.options block {}).1.bytes,
      allMasked (MemoryImage.spanSlice span block.initializedMask))

omit [MemoryBackend β] in
theorem seenAs_congr (same : after.config = image.config) (span : LineSpan)
    (found : Option DataBlock) : seenAs after span found = seenAs image span found := by
  have default : after.defaultValue = image.defaultValue :=
    congrArg ImageConfig.defaultValue same
  have options : after.options = image.options := congrArg ImageConfig.options same
  unfold seenAs
  rw [default, options]

theorem effectiveBlock_of_spec (given : image.spec = some spec) (bounds : decoded.InBounds spec)
    (base : Nat) :
    image.effectiveBlock base (some decoded) =
      match image.bufferedCopy decoded with
      | some block => .ok (some block)
      | none => image.loadBackendLine base (some decoded) := by
  unfold MemoryImage.effectiveBlock
  rw [peekRowBufferBlock_of_spec given bounds]
  cases copy : image.bufferedCopy decoded <;> rfl

omit [MemoryBackend β] in
/-- A line nobody stored reads as the default, in an open row as well. -/
theorem seenAs_makeLine {span : LineSpan} {block : DataBlock}
    (fits : span.offset + span.chunk ≤ image.lineSize) (positive : 0 < span.chunk)
    (makes : image.makeLine base (some decoded) = .ok block) :
    seenAs image span (some block) = seenAs image span none := by
  obtain ⟨physical, -, returned⟩ := bind_eq_ok.mp makes
  cases returned
  have slice : ∀ value : UInt8, MemoryImage.spanSlice span (List.replicate image.lineSize value) =
      List.replicate span.chunk value := by
    intro value
    unfold MemoryImage.spanSlice
    rw [List.drop_replicate, List.take_replicate, Nat.min_eq_left (by omega)]
  unfold seenAs
  dsimp only
  rw [checkEccShadow_clean {} fun valid => absurd valid Bool.false_ne_true]
  dsimp only
  rw [slice, slice, allMasked_replicate_zero positive]

/-- What the mutable lookup answers with: the buffered copy, else in an open row the stored line
or a new one. -/
theorem rowBufferBlock_finds {cycle : Nat} {found : Option (StorageKey × DataBlock)}
    (given : image.spec = some spec) (bounds : decoded.InBounds spec)
    (returns : image.rowBufferBlock base (some decoded) cycle = .ok (found, after)) :
    match found with
    | none => image.bufferedCopy decoded = none ∧ after = image
    | some (_, block) => ∃ copy physical storageKey, block = { copy with physical, storageKey } ∧
        (image.bufferedCopy decoded = some copy ∨
          image.bufferedCopy decoded = none ∧
            ∃ stored, image.loadBackendLine base (some decoded) = .ok stored ∧
              image.loadedOrNew stored base (some decoded) = .ok copy) := by
  unfold MemoryImage.rowBufferBlock at returns
  dsimp only at returns
  rw [storageKey_of_spec given bounds] at returns
  obtain ⟨_, key, returns⟩ := bind_eq_ok.mp returns
  cases key
  have bank : bankKeyFromStorageKey (keyOf image.options decoded) =
      image.bankKeyFromDecoded decoded := rfl
  have row : rowKeyFromStorageKey (keyOf image.options decoded) =
      image.rowKeyFromDecoded decoded := rfl
  rw [bank, row] at returns
  unfold MemoryImage.bufferedCopy
  cases lookup : image.rowBuffers.lookup (image.bankKeyFromDecoded decoded) with
  | none =>
    rw [lookup] at returns
    cases returns
    exact ⟨rfl, rfl⟩
  | some entry =>
    rw [lookup] at returns
    dsimp only at returns ⊢
    split at returns
    next elsewhere =>
      cases returns
      rw [if_pos elsewhere]
      exact ⟨rfl, rfl⟩
    next isOpen =>
      rw [if_neg isOpen]
      obtain ⟨copy, copies, returns⟩ := bind_eq_ok.mp returns
      obtain ⟨physical, -, returned⟩ := bind_eq_ok.mp returns
      cases returned
      refine ⟨copy, physical, _, rfl, ?_⟩
      have column : (keyOf image.options decoded).column.getD 0 = decoded.column := rfl
      unfold MemoryImage.openRowCopy at copies
      rw [column] at copies
      cases held : entry.columns.lookup decoded.column with
      | some block =>
        rw [held] at copies
        cases copies
        exact Or.inl rfl
      | none =>
        rw [held] at copies
        obtain ⟨stored, loads, makes⟩ := bind_eq_ok.mp copies
        exact Or.inr ⟨rfl, stored, loads, makes⟩

/-- A read of one span returns what it sees of the line's copy. -/
theorem readSpan_sees {span : LineSpan} {bytes : ByteVector} {initialized : Bool}
    (given : image.spec = some spec) (bounds : decoded.InBounds spec)
    (fits : span.offset + span.chunk ≤ image.lineSize) (positive : 0 < span.chunk)
    (returns : image.readSpan span (some decoded) = .ok (bytes, initialized, after)) :
    ∃ found, image.effectiveBlock span.base (some decoded) = .ok found ∧
      (bytes, initialized) = seenAs image span found := by
  rw [effectiveBlock_of_spec given bounds]
  have checked : ∀ (block copy : DataBlock) (counters : EccCounters),
      block.bytes = copy.bytes → block.initializedMask = copy.initializedMask →
      block.eccHamming = copy.eccHamming → block.eccOverall = copy.eccOverall →
      block.eccValid = copy.eccValid →
      (MemoryImage.spanSlice span (checkEccShadow image.options block counters).1.bytes,
        allMasked (MemoryImage.spanSlice span
          (checkEccShadow image.options block counters).1.initializedMask)) =
        seenAs image span (some copy) := by
    intro block copy counters bytes mask hamming overall valid
    rw [(checkEccShadow_frame image.options block counters).1, mask]
    unfold seenAs
    rw [checkEccShadow_bytes_congr image.options counters {} bytes hamming overall valid]
  obtain ⟨⟨hit, middle⟩, looks, continues⟩ := bind_eq_ok.mp returns
  have options : middle.options = image.options :=
    congrArg ImageConfig.options (rowBufferBlock_spares given bounds looks).1.config
  have finds := rowBufferBlock_finds given bounds looks
  cases hit with
  | none =>
    obtain ⟨missing, rfl⟩ := finds
    rw [missing]
    obtain ⟨stored, loads, rest⟩ := bind_eq_ok.mp continues
    refine ⟨stored, loads, ?_⟩
    cases stored with
    | none =>
      cases rest
      rfl
    | some block =>
      have answers := checked block block middle.counters rfl rfl rfl rfl rfl
      dsimp only at rest
      generalize checkEccShadow middle.options block middle.counters = result at rest answers
      split at rest
      · obtain ⟨settled, -, returned⟩ := bind_eq_ok.mp rest
        cases returned
        exact answers
      · cases rest
        exact answers
  | some pair =>
    obtain ⟨key, block⟩ := pair
    obtain ⟨copy, physical, storageKey, rfl, source⟩ := finds
    dsimp only at continues
    rw [options] at continues
    have answers := checked { copy with physical, storageKey } copy middle.counters rfl rfl rfl
      rfl rfl
    cases continues
    rcases source with held | ⟨missing, stored, loads, makes⟩
    · rw [held]
      exact ⟨_, rfl, answers⟩
    · rw [missing]
      refine ⟨stored, loads, answers.trans ?_⟩
      cases stored with
      | some backing =>
        cases makes
        rfl
      | none => exact seenAs_makeLine fits positive makes

/-- What is seen of another line is the same after a write. -/
theorem SparesOthers.effectiveBlock {other : Nat} {place : DecodedAddress}
    (spares : SparesOthers image after base decoded) (given : image.spec = some spec)
    (bounds : place.InBounds spec) (elsewhere : other ≠ base) (apart : place ≠ decoded) :
    after.effectiveBlock other (some place) = image.effectiveBlock other (some place) := by
  have afterGiven : after.spec = some spec :=
    (congrArg ImageConfig.spec spares.config).trans given
  have lineSize : after.lineSize = image.lineSize := congrArg ImageConfig.lineSize spares.config
  have options : after.options = image.options := congrArg ImageConfig.options spares.config
  have loads : after.loadBackendLine other (some place) =
      image.loadBackendLine other (some place) := by
    unfold MemoryImage.loadBackendLine
    rw [spares.backend other elsewhere]
    dsimp only [Option.getD_some]
    rw [storageKey_of_spec afterGiven bounds, storageKey_of_spec given bounds,
      physicalAddress_of_spec afterGiven bounds, physicalAddress_of_spec given bounds, lineSize,
      options]
  rw [effectiveBlock_of_spec afterGiven bounds, effectiveBlock_of_spec given bounds,
    spares.copies place apart, loads]

/-! ### No operation changes what the image was built with -/

section Config

theorem storeBackendLine_config {block : DataBlock}
    (returns : image.storeBackendLine base block = .ok after) : after.config = image.config := by
  obtain ⟨_, -, returned⟩ := bind_eq_ok.mp returns
  cases returned
  rfl

theorem storeColumns_config {cycle : Nat} (blocks : List DataBlock)
    (returns : blocks.foldlM (MemoryImage.storeColumn cycle) image = .ok after) :
    after.config = image.config :=
  foldlM_keeps (fun middle : MemoryImage β => middle.config = image.config)
    (fun _ _ _ same stores => (storeBackendLine_config stores).trans same) blocks rfl returns

theorem writebackRowBuffer_config {bankKey : StorageKey} {cycle : Nat}
    (returns : image.writebackRowBuffer bankKey cycle = .ok after) :
    after.config = image.config := by
  unfold MemoryImage.writebackRowBuffer at returns
  split at returns
  · cases returns
    rfl
  split at returns
  · cases returns
    rfl
  split at returns
  · cases returns
    rfl
  · obtain ⟨stored, stores, returned⟩ := bind_eq_ok.mp returns
    cases returned
    have kept := storeColumns_config _ stores
    exact kept

theorem writebackAll_config {targets : List StorageKey} {cycle : Nat}
    (returns : image.writebackAll targets cycle = .ok after) : after.config = image.config :=
  foldlM_keeps (fun middle : MemoryImage β => middle.config = image.config)
    (fun _ _ _ same closes => (writebackRowBuffer_config closes).trans same) targets rfl returns

theorem activateRow_config {cycle : Nat} (returns : image.activateRow decoded cycle = .ok after) :
    after.config = image.config := by
  obtain ⟨_, -, returns⟩ := bind_eq_ok.mp returns
  dsimp only at returns
  split at returns
  · cases returns
    rfl
  split at returns
  · obtain ⟨closed, closes, returned⟩ := bind_eq_ok.mp returns
    cases returned
    have kept := writebackRowBuffer_config closes
    exact kept
  · cases returns
    rfl

theorem flushDirtyRowBuffers_config {cycle : Nat}
    (returns : image.flushDirtyRowBuffers cycle = .ok after) : after.config = image.config := by
  refine foldlM_keeps (fun middle : MemoryImage β => middle.config = image.config)
    (fun middle bankKey next same flushes => ?_) image.rowBuffers.keys rfl returns
  unfold MemoryImage.flushRowBuffer at flushes
  split at flushes
  · cases flushes
    exact same
  split at flushes
  · cases flushes
    exact same
  · obtain ⟨stored, stores, returned⟩ := bind_eq_ok.mp flushes
    cases returned
    exact (storeColumns_config _ stores).trans same

omit [MemoryBackend β] in
theorem putRowBufferBlock_config (key : StorageKey) (block : DataBlock) :
    (image.putRowBufferBlock key block).config = image.config := by
  unfold MemoryImage.putRowBufferBlock
  split <;> rfl

theorem rowBufferBlock_config {place : Option DecodedAddress} {cycle : Nat}
    {found : Option (StorageKey × DataBlock)}
    (returns : image.rowBufferBlock base place cycle = .ok (found, after)) :
    after.config = image.config := by
  unfold MemoryImage.rowBufferBlock at returns
  split at returns
  · cases returns
    rfl
  obtain ⟨key, -, returns⟩ := bind_eq_ok.mp returns
  dsimp only at returns
  split at returns
  · cases returns
    rfl
  split at returns
  · cases returns
    rfl
  · obtain ⟨_, -, returns⟩ := bind_eq_ok.mp returns
    obtain ⟨_, -, returned⟩ := bind_eq_ok.mp returns
    cases returned
    exact putRowBufferBlock_config _ _

theorem readSpan_config {span : LineSpan} {place : Option DecodedAddress} {bytes : ByteVector}
    {initialized : Bool} (returns : image.readSpan span place = .ok (bytes, initialized, after)) :
    after.config = image.config := by
  obtain ⟨⟨hit, middle⟩, looks, continues⟩ := bind_eq_ok.mp returns
  have looked := rowBufferBlock_config looks
  cases hit with
  | some pair =>
    cases continues
    exact (putRowBufferBlock_config _ _).trans looked
  | none =>
    obtain ⟨stored, -, rest⟩ := bind_eq_ok.mp continues
    cases stored with
    | none =>
      cases rest
      exact looked
    | some block =>
      dsimp only at rest
      split at rest
      · obtain ⟨settled, stores, returned⟩ := bind_eq_ok.mp rest
        cases returned
        exact (storeBackendLine_config stores).trans looked
      · cases rest
        exact looked

theorem read_config {address size : Nat} {place : Option DecodedAddress} {bytes : ByteVector}
    {initialized : Bool}
    (returns : image.read address size place = .ok (bytes, initialized, after)) :
    after.config = image.config := by
  obtain ⟨_, -, folds⟩ := bind_eq_ok.mp returns
  refine foldlM_keeps (fun result : ByteVector × Bool × MemoryImage β =>
    result.2.2.config = image.config) (fun result span next same steps => ?_) _ rfl folds
  obtain ⟨⟨bytes, initialized, read⟩, reads, returned⟩ := bind_eq_ok.mp steps
  cases returned
  exact (readSpan_config reads).trans same

theorem writeSpan_config {span : LineSpan} {place : Option DecodedAddress} {data : ByteVector}
    {mask : Option ByteVector} {stamp : MemoryImage.WriteStamp}
    (returns : image.writeSpan span place data mask stamp = .ok after) :
    after.config = image.config := by
  obtain ⟨stored, -, returns⟩ := bind_eq_ok.mp returns
  obtain ⟨backing, -, returns⟩ := bind_eq_ok.mp returns
  obtain ⟨⟨found, middle⟩, looks, continues⟩ := bind_eq_ok.mp returns
  have looked := rowBufferBlock_config looks
  cases found with
  | none => exact (storeBackendLine_config continues).trans looked
  | some pair =>
    obtain ⟨settled, missing, returned⟩ := bind_eq_ok.mp continues
    have settles : settled.config = middle.config := by
      unfold MemoryImage.storeMissing at missing
      split at missing
      · exact storeBackendLine_config missing
      · cases missing
        rfl
    dsimp only at returned
    generalize settled.protect _ = written at returned
    have put := fun version : Nat => (@putRowBufferBlock_config _
      (settled.account written.2 version) pair.1 written.1).trans (settles.trans looked)
    split at returned
    · rw [← Except.ok.inj returned]
      unfold MemoryImage.markDirty
      split
      · exact put _
      · exact put _
    · rw [← Except.ok.inj returned]
      exact put _

theorem apply_config {op : ImageOp} {output : ImageOutput}
    (returns : image.apply op = .ok (output, after)) : after.config = image.config := by
  cases op with
  | activateRow decoded cycle =>
    obtain ⟨_, steps, returned⟩ := bind_eq_ok.mp returns
    cases returned
    exact activateRow_config steps
  | prechargeBank decoded cycle =>
    obtain ⟨_, steps, returned⟩ := bind_eq_ok.mp returns
    cases returned
    obtain ⟨_, -, closes⟩ := bind_eq_ok.mp steps
    exact writebackRowBuffer_config closes
  | prechargeAll decoded cycle =>
    obtain ⟨_, steps, returned⟩ := bind_eq_ok.mp returns
    cases returned
    obtain ⟨_, -, closes⟩ := bind_eq_ok.mp steps
    exact writebackAll_config closes
  | flushDirtyRowBuffers cycle =>
    obtain ⟨_, steps, returned⟩ := bind_eq_ok.mp returns
    cases returned
    exact flushDirtyRowBuffers_config steps
  | flushAllRowBuffers cycle =>
    obtain ⟨_, steps, returned⟩ := bind_eq_ok.mp returns
    cases returned
    exact writebackAll_config steps
  | write address data mask stamp =>
    obtain ⟨_, steps, returned⟩ := bind_eq_ok.mp returns
    cases returned
    obtain ⟨_, -, steps⟩ := bind_eq_ok.mp steps
    obtain ⟨_, -, steps⟩ := bind_eq_ok.mp steps
    exact foldlM_keeps (fun middle : MemoryImage β => middle.config = image.config)
      (fun _ _ _ same writes => (writeSpan_config writes).trans same) _ rfl steps
  | read address size =>
    obtain ⟨⟨bytes, initialized, _⟩, steps, returned⟩ := bind_eq_ok.mp returns
    cases returned
    exact read_config steps
  | readInitializedMask address size =>
    obtain ⟨_, -, returned⟩ := bind_eq_ok.mp returns
    cases returned
    rfl

theorem run_config {ops : List ImageOp} {outputs : List ImageOutput}
    (returns : image.run ops = .ok (outputs, after)) : after.config = image.config := by
  induction ops generalizing image outputs with
  | nil =>
    cases returns
    rfl
  | cons op rest inductionHypothesis =>
    obtain ⟨⟨output, middle⟩, steps, continues⟩ := bind_eq_ok.mp returns
    obtain ⟨⟨later, _⟩, runs, returned⟩ := bind_eq_ok.mp continues
    cases returned
    exact (inductionHypothesis runs).trans (apply_config steps)

end Config

/-! ### A span of a write -/

variable [LawfulMemoryBackend β]

theorem storeBackendLine_spares {block : DataBlock} (decoded : DecodedAddress)
    (returns : image.storeBackendLine base block = .ok after) :
    SparesOthers image after base decoded ∧ after.rowBuffers = image.rowBuffers := by
  obtain ⟨⟨inserted, backend⟩, stored, returned⟩ := bind_eq_ok.mp returns
  cases returned
  exact ⟨⟨rfl, (LawfulMemoryBackend.store_ok _ _ _ _ _ stored).2.2, fun _ _ => rfl⟩, rfl⟩

/-- One span of a write touches its own line only. -/
theorem writeSpan_spares {span : LineSpan} {data : ByteVector} {mask : Option ByteVector}
    {stamp : MemoryImage.WriteStamp} (given : image.spec = some spec)
    (bounds : decoded.InBounds spec)
    (returns : image.writeSpan span (some decoded) data mask stamp = .ok after) :
    SparesOthers image after span.base decoded := by
  obtain ⟨stored, -, returns⟩ := bind_eq_ok.mp returns
  obtain ⟨backing, -, returns⟩ := bind_eq_ok.mp returns
  obtain ⟨⟨found, middle⟩, looks, continues⟩ := bind_eq_ok.mp returns
  obtain ⟨looked, hit⟩ := rowBufferBlock_spares given bounds looks
  cases found with
  | none =>
    dsimp only at continues
    generalize middle.protect _ = written at continues
    obtain ⟨kept, -⟩ := storeBackendLine_spares decoded continues
    exact looked.trans ((account_spares _ _ _ _).trans kept)
  | some pair =>
    obtain ⟨key, target⟩ := pair
    obtain ⟨rfl, held⟩ := hit key target rfl
    dsimp only at continues
    obtain ⟨settled, missing, returned⟩ := bind_eq_ok.mp continues
    have settles : SparesOthers middle settled span.base decoded ∧
        settled.rowBuffers = middle.rowBuffers := by
      unfold MemoryImage.storeMissing at missing
      split at missing
      · exact storeBackendLine_spares decoded missing
      · cases missing
        exact ⟨SparesOthers.refl _ _ _, rfl⟩
    have options : settled.options = image.options :=
      congrArg ImageConfig.options (settles.1.config.trans looked.config)
    have settledHeld : RowHeld settled decoded := by
      obtain ⟨entry, lookup, row⟩ := held
      refine ⟨entry, ?_, row.trans (rowKeyFromDecoded_congr settles.1.config decoded).symm⟩
      rw [settles.2, bankKeyFromDecoded_congr settles.1.config]
      exact lookup
    rw [← options] at returned
    generalize settled.protect _ = written at returned
    have puts := fun version =>
      putWritten_spares span.base written.1 written.2 version settledHeld
    refine (looked.trans settles.1).trans ?_
    split at returned
    · rw [← Except.ok.inj returned]
      exact (puts _).2
    · rw [← Except.ok.inj returned]
      exact (puts _).1

end HbmSim
