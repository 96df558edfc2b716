/-
Writes through the row buffers, and whole accesses.

One span of a write lays its bytes over the content of its line and leaves the
copies of the other lines alone. An access is the list of its spans, so the
statements about one span lift to reads and writes that cross lines.
-/

import HbmSim.ImageAccess

namespace HbmSim

/-! ### One span of a write -/

section Span

variable {β : Type} {image after : MemoryImage β}
variable {spec : DramSpec} {flat : Patch Nat UInt8} {span : LineSpan}

/-- The row buffer of the line after a write into its open row. -/
theorem writeHit_rowBuffers {key : StorageKey} {entry : RowBufferEntry} {block : DataBlock}
    {wroteAny : Bool} (lookup : image.rowBuffers.lookup (bankKeyFromStorageKey key) = some entry) :
    (if wroteAny = true then
        (image.putRowBufferBlock key block).markDirty (bankKeyFromStorageKey key)
      else image.putRowBufferBlock key block) =
      image.setRowBuffer (bankKeyFromStorageKey key)
        { entry with
          dirty := entry.dirty || wroteAny
          columns := entry.columns.insert (key.column.getD 0) block } := by
  rw [putRowBufferBlock_eq lookup]
  cases wroteAny with
  | false =>
    rw [Bool.or_false]
    exact if_neg (Bool.false_ne_true)
  | true =>
    rw [if_pos rfl, Bool.or_true]
    unfold MemoryImage.markDirty
    rw [setRowBuffer_lookup]
    exact setRowBuffer_setRowBuffer _ _ _

variable [MemoryBackend β]

theorem loadBackendLine_congr {base : Nat} {decoded : Option DecodedAddress}
    (config : after.config = image.config)
    (same : MemoryBackend.load after.backend base = MemoryBackend.load image.backend base) :
    after.loadBackendLine base decoded = image.loadBackendLine base decoded := by
  have lineSize : after.lineSize = image.lineSize := congrArg ImageConfig.lineSize config
  have specs : after.spec = image.spec := congrArg ImageConfig.spec config
  have options : after.options = image.options := congrArg ImageConfig.options config
  unfold MemoryImage.loadBackendLine MemoryImage.storageKey MemoryImage.physicalAddress
  rw [same, lineSize, specs, options]

/-- The next access to another line sees the copy it would have seen before, when only the
line's own place in its open row changed. -/
theorem effectiveBlock_frame {base line : Nat} (valid : image.config.Valid spec)
    (baseIn : InGeometry image.config spec base) (lineIn : InGeometry image.config spec line)
    (differs : line ≠ base) (config : after.config = image.config)
    (load : MemoryBackend.load after.backend line = MemoryBackend.load image.backend line)
    (rowBuffers : after.rowBuffers = image.rowBuffers ∨
      ∃ entry written, image.rowBuffers.lookup (bankOf image.config spec base) = some entry ∧
        entry.rowKey = rowKeyFromStorageKey (lineKey image.config spec base) ∧
        written.open = entry.open ∧ written.rowKey = entry.rowKey ∧
        (∀ column ≠ (decode spec base).column,
          written.columns.lookup column = entry.columns.lookup column) ∧
        after.rowBuffers = image.rowBuffers.insert (bankOf image.config spec base) written) :
    after.effectiveBlock line (some (decode spec line)) =
      image.effectiveBlock line (some (decode spec line)) := by
  have peeks : after.peekRowBufferBlock line (some (decode spec line)) =
      image.peekRowBufferBlock line (some (decode spec line)) := by
    rw [peekRowBufferBlock_eq valid, peekRowBufferBlock_eq (config ▸ valid), config]
    rcases rowBuffers with same | ⟨entry, written, lookup, row, isOpen, rowKey, columns, same⟩
    · rw [same]
    · rw [same]
      by_cases bank : bankOf image.config spec line = bankOf image.config spec base
      · rw [bank, AList.lookup_insert, lookup]
        dsimp only
        rw [isOpen, rowKey]
        by_cases closed : entry.open = false ∨
            entry.rowKey ≠ rowKeyFromStorageKey (lineKey image.config spec line)
        · rw [if_pos closed, if_pos closed]
        · rw [if_neg closed, if_neg closed, columns]
          simp only [not_or, ne_eq, not_not] at closed
          exact fun column => differs
            (line_eq valid lineIn baseIn (closed.2.symm.trans row) column)
      · rw [AList.lookup_insert_ne bank]
  unfold MemoryImage.effectiveBlock
  rw [peeks, loadBackendLine_congr config load]

variable [LawfulMemoryBackend β]

/-- What one span of a write does: the content gets the span's bytes, and the next access to any
other line sees the copy it would have seen before. -/
structure Writes (image after : MemoryImage β) (spec : DramSpec) (flat : Patch Nat UInt8)
    (base : Nat) : Prop where
  keeps : Keeps image after spec flat
  others : ∀ line, InGeometry image.config spec line → line ≠ base →
    after.effectiveBlock line (some (decode spec line)) =
      image.effectiveBlock line (some (decode spec line))

theorem storeMissing_spec {stored : Option DataBlock} {base : Nat} {backing : DataBlock}
    (returns : image.storeMissing stored base backing = .ok after)
    (backendLine : MemoryBackend.lineSize image.backend = image.lineSize) :
    StoreFrame image after ∧
      (∀ flat, Sound image.config flat base backing → StoredSound image flat base →
        StoredSound after flat base) ∧
      ∀ other, other ≠ base →
        MemoryBackend.load after.backend other = MemoryBackend.load image.backend other := by
  unfold MemoryImage.storeMissing at returns
  split at returns
  next =>
    obtain ⟨frame, storedHere, others⟩ := storeBackendLine_spec returns backendLine
    exact ⟨frame, fun flat sound _ => storedHere flat sound, others⟩
  next =>
    cases returns
    exact ⟨StoreFrame.refl _, fun _ _ stored => stored, fun _ _ => rfl⟩

/-- The lines the span is not in keep their content. -/
theorem onto_elsewhere {config : ImageConfig} {data : ByteVector} {mask : Option ByteVector}
    (fits : span.offset + span.chunk ≤ config.lineSize)
    (inside : InGeometry config spec span.base) {line : Nat}
    (lineIn : InGeometry config spec line) (differs : line ≠ span.base) :
    ∀ index < config.lineSize,
      flat (line + index) = ((spanPatch span data mask).onto flat) (line + index) := by
  intro index small
  rw [Patch.onto_apply,
    spanPatch_elsewhere fits inside.aligned lineIn.aligned differs small, Option.none_or]

/-- A write into an open row. -/
theorem writeHit_spec {data : ByteVector} {mask : Option ByteVector}
    {stored : Option DataBlock} {backing target written : DataBlock} {key : StorageKey}
    {entry : RowBufferEntry} {cycle version : Nat} {middle opened : MemoryImage β}
    {counters : EccCounters}
    (holds : Holds image spec flat) (inside : InGeometry image.config spec span.base)
    (fits : span.offset + span.chunk ≤ image.lineSize)
    (loads : image.loadBackendLine span.base (some (decode spec span.base)) = .ok stored)
    (makes : image.loadedOrNew stored span.base (some (decode spec span.base)) = .ok backing)
    (hit : RowBufferHit image middle spec flat span.base cycle key target entry)
    (stores : middle.storeMissing stored span.base backing = .ok opened)
    (copy : HomeSound image.config ((spanPatch span data mask).onto flat) span.base written)
    (result : after =
      if spanWritesAny span data mask = true then
        ((opened.account counters version).putRowBufferBlock key written).markDirty
          (bankKeyFromStorageKey key)
      else (opened.account counters version).putRowBufferBlock key written) :
    Writes image after spec ((spanPatch span data mask).onto flat) span.base := by
  have valid := holds.valid
  obtain ⟨rfl, lookup, isOpen, row, -, -, rfl⟩ := hit
  obtain ⟨frame, storedHere, others⟩ := storeMissing_spec stores holds.backendLine
  have openedLookup : (opened.account counters version).rowBuffers.lookup
      (bankKeyFromStorageKey (lineKey image.config spec span.base)) = some
        { entry with
          lastAccessCycle := cycle
          columns := entry.columns.insert (decode spec span.base).column target } := by
    show opened.rowBuffers.lookup _ = _
    rw [frame.rowBuffers]
    exact setRowBuffer_lookup _ _
  rw [writeHit_rowBuffers openedLookup] at result
  have rowBuffers : after.rowBuffers = image.rowBuffers.insert (bankOf image.config spec span.base)
      { entry with
        dirty := entry.dirty || spanWritesAny span data mask
        lastAccessCycle := cycle
        columns := entry.columns.insert (decode spec span.base).column written } := by
    rw [result]
    show opened.rowBuffers.insert _ { entry with
      dirty := _, lastAccessCycle := cycle,
      columns := (entry.columns.insert (decode spec span.base).column target).insert
        (decode spec span.base).column written } = _
    rw [frame.rowBuffers, AList.insert_insert]
    exact AList.insert_insert _
  have backend : after.backend = opened.backend := by
    rw [result]
    rfl
  have config : after.config = image.config := by
    rw [result]
    exact frame.config
  have elsewhere : ∀ line, line ≠ span.base →
      MemoryBackend.load after.backend line = MemoryBackend.load image.backend line := by
    intro line differs
    rw [backend]
    exact others line differs
  refine ⟨⟨?_, config⟩, ?_⟩
  · refine putRowBufferBlock_holds written (entry.dirty || spanWritesAny span data mask) cycle
      holds inside lookup isOpen row copy (fun line lineIn differs =>
        onto_elsewhere fits inside lineIn differs) (fun dirty => ?_) ?_ config ?_
      (fun line _ differs before => before.of_load config (elsewhere line differs)) rowBuffers
    · rw [dirty, Bool.true_or]
    · -- A span that writes nothing leaves a clean row clean, and the backend agrees with it.
      by_cases dirty : (entry.dirty || spanWritesAny span data mask) = true
      · exact Or.inl dirty
      simp only [Bool.or_eq_true, not_or, Bool.not_eq_true] at dirty
      have notHeld : ¬ HeldDirty image spec span.base := by
        rintro ⟨other, found, held⟩
        rw [lookup, Option.some.injEq] at found
        have wasDirty := held.dirty
        rw [← found, dirty.1] at wasDirty
        cases wasDirty
      have before := holds.stored span.base inside notHeld
      have backingSound := (loadedOrNew_spec valid inside before loads makes).1.sound
      rw [spanPatch_of_not_writesAny dirty.2, Patch.empty_onto]
      refine Or.inr ((storedHere flat backingSound (before.of_load rfl rfl)).of_load ?_ ?_)
      · rw [result]
        rfl
      · rw [backend]
    · rw [backend]
      exact frame.backendLine
  · intro line lineIn differs
    refine effectiveBlock_frame valid inside lineIn differs config (elsewhere line differs)
      (Or.inr ?_)
    refine ⟨entry, { entry with
      dirty := entry.dirty || spanWritesAny span data mask
      lastAccessCycle := cycle
      columns := entry.columns.insert (decode spec span.base).column written },
      lookup, row, rfl, rfl, fun column other => ?_, rowBuffers⟩
    exact AList.lookup_insert_ne other

/-- One span of a write lays its bytes over the content, provided an outstanding flip of its line
is overwritten. -/
theorem writeSpan_spec {data : ByteVector} {mask : Option ByteVector}
    {stamp : MemoryImage.WriteStamp} (holds : Holds image spec flat)
    (inside : InGeometry image.config spec span.base)
    (fits : span.offset + span.chunk ≤ image.lineSize)
    (covered : LineClean image spec span.base ∨ spanByte span data mask 0 ≠ none)
    (returns : image.writeSpan span (some (decode spec span.base)) data mask stamp = .ok after) :
    Writes image after spec ((spanPatch span data mask).onto flat) span.base := by
  have valid := holds.valid
  unfold MemoryImage.writeSpan at returns
  obtain ⟨stored, loads, made⟩ := bind_eq_ok.mp returns
  obtain ⟨backing, makes, looked⟩ := bind_eq_ok.mp made
  obtain ⟨⟨found, middle⟩, looks, continues⟩ := bind_eq_ok.mp looked
  clear returns made looked
  have hit := rowBufferBlock_spec holds inside looks
  cases found with
  | some pair =>
    obtain ⟨key, target⟩ := pair
    obtain ⟨entry, hit⟩ := hit
    dsimp only at continues
    obtain ⟨opened, stores, returned⟩ := bind_eq_ok.mp continues
    obtain ⟨frame, -, -⟩ := storeMissing_spec stores (by
      rw [hit.after]
      exact holds.backendLine)
    have config : opened.config = image.config := by
      rw [frame.config, hit.after]
      rfl
    cases returned
    refine writeHit_spec holds inside fits loads makes hit stores ?_ rfl
    rw [← config]
    exact protect_written_spec (config.symm ▸ valid) (config.symm ▸ hit.copy)
      (covered.imp hit.clean id) _ rfl rfl rfl
  | none =>
    obtain ⟨rfl, closed⟩ := hit
    dsimp only at continues
    have notHeld := closed.not_heldDirty
    obtain ⟨backingSound, backingClean⟩ :=
      loadedOrNew_spec valid inside (holds.stored span.base inside notHeld) loads makes
    have clean : LineClean middle spec span.base → backing.Clean := by
      intro lineClean
      cases stored with
      | none => exact backingClean rfl
      | some loaded =>
        cases makes
        refine lineClean backing ?_
        rw [closed.effectiveBlock valid]
        exact loads
    have written := protect_written_spec valid backingSound
      (covered.imp clean id) (MemoryImage.refreshLineMetadata
        (middle.writtenBlock backing span data mask stamp)) rfl rfl rfl
    have same : ∀ line, InGeometry middle.config spec line →
        (line = span.base → ¬ RowClosed middle spec span.base) →
        ∀ index < middle.lineSize,
          flat (line + index) = ((spanPatch span data mask).onto flat) (line + index) :=
      fun line lineIn opened =>
        onto_elsewhere fits inside lineIn fun equal => opened equal closed
    have writes : ∀ counters version, (middle.account counters version).storeBackendLine span.base
        (middle.protect (MemoryImage.refreshLineMetadata
          (middle.writtenBlock backing span data mask stamp))).1 = .ok after →
        Writes middle after spec ((spanPatch span data mask).onto flat) span.base := by
      intro counters version stores
      have kept := storeBackendLine_holds (holds.account counters version) same written.sound stores
      obtain ⟨frame, -, others⟩ := storeBackendLine_spec stores holds.backendLine
      refine ⟨⟨kept.holds, kept.config⟩, fun line lineIn differs => ?_⟩
      exact effectiveBlock_frame valid inside lineIn differs frame.config (others line differs)
        (Or.inl frame.rowBuffers)
    exact writes _ _ continues

end Span

/-! ### The spans of an access -/

section Spans

variable {lineSize address size : Nat}

/-- What a span of an access is: a non-empty part of one line, the first one anywhere in its line
and every later one at its start. -/
structure IsSpan (lineSize address size : Nat) (span : LineSpan) : Prop where
  aligned : span.base % lineSize = 0
  place : span.base + span.offset = address + span.copied
  fits : span.offset + span.chunk ≤ lineSize
  positive : 0 < span.chunk
  inside : span.copied + span.chunk ≤ size
  start : span.copied = 0 ∨ span.offset = 0

theorem IsSpan.base_eq {span : LineSpan} (isSpan : IsSpan lineSize address size span) :
    lineBase lineSize (address + span.copied) = span.base := by
  have fits := isSpan.fits
  have positive := isSpan.positive
  unfold lineBase
  rw [← isSpan.place, Nat.add_mod, isSpan.aligned, Nat.zero_add, Nat.mod_mod,
    Nat.mod_eq_of_lt (by omega), Nat.add_sub_cancel]

/-- Induction over the spans of an access: what holds before the first byte and is carried from
each span to the next holds after the last byte. -/
theorem spansFrom_foldlM {State : Type} (positive : 0 < lineSize)
    (step : State → LineSpan → Except Exception State) (motive : Nat → State → Prop)
    (advance : ∀ span state next, IsSpan lineSize address size span → motive span.copied state →
      step state span = .ok next → motive (span.copied + span.chunk) next)
    (fuel copied : Nat) (enough : size - copied ≤ fuel) (bounded : copied ≤ size)
    (start : copied = 0 ∨ copied = size ∨ lineOffset lineSize (address + copied) = 0)
    (state final : State) (holds : motive copied state)
    (returns : (spansFrom lineSize address size fuel copied).foldlM step state = .ok final) :
    motive size final := by
  induction fuel generalizing copied state with
  | zero =>
    cases returns
    have finished : copied = size := by omega
    exact finished ▸ holds
  | succ fuel inductionHypothesis =>
    unfold spansFrom at returns
    split at returns
    next unfinished =>
      dsimp only at returns
      rw [List.foldlM_cons] at returns
      obtain ⟨next, steps, remaining⟩ := bind_eq_ok.mp returns
      have small : lineOffset lineSize (address + copied) < lineSize := Nat.mod_lt _ positive
      have below : lineOffset lineSize (address + copied) ≤ address + copied := Nat.mod_le _ _
      have aligned : lineBase lineSize (address + copied) % lineSize = 0 :=
        Nat.sub_mod_eq_zero_of_mod_eq (Nat.mod_mod _ _).symm
      have place : lineBase lineSize (address + copied) + lineOffset lineSize (address + copied) =
          address + copied := Nat.sub_add_cancel below
      generalize lineOffset lineSize (address + copied) = offset at *
      generalize lineBase lineSize (address + copied) = base at *
      refine inductionHypothesis (copied + min (size - copied) (lineSize - offset)) (by omega)
        (by omega) ?_ next
        (advance _ state next ⟨aligned, place, ?_, ?_, ?_, ?_⟩ holds steps) remaining
      · by_cases last : size - copied ≤ lineSize - offset
        · exact Or.inr (Or.inl (by rw [Nat.min_eq_left last]; omega))
        · refine Or.inr (Or.inr ?_)
          rw [Nat.min_eq_right (by omega)]
          have place' : address + (copied + (lineSize - offset)) = base + lineSize := by omega
          unfold lineOffset
          rw [place', Nat.add_mod_right, aligned]
      · show offset + min (size - copied) (lineSize - offset) ≤ lineSize
        omega
      · show 0 < min (size - copied) (lineSize - offset)
        omega
      · show copied + min (size - copied) (lineSize - offset) ≤ size
        omega
      · show copied = 0 ∨ offset = 0
        omega
    next finished =>
      cases returns
      have finished : copied = size := by omega
      exact finished ▸ holds

theorem lineSpans_foldlM {State : Type} (positive : 0 < lineSize)
    (step : State → LineSpan → Except Exception State) (motive : Nat → State → Prop)
    (advance : ∀ span state next, IsSpan lineSize address size span → motive span.copied state →
      step state span = .ok next → motive (span.copied + span.chunk) next)
    {state final : State} (holds : motive 0 state)
    (returns : (lineSpans lineSize address size).foldlM step state = .ok final) :
    motive size final :=
  spansFrom_foldlM positive step motive advance size 0 (Nat.sub_le _ _) (Nat.zero_le _)
    (Or.inl rfl) state final holds returns

end Spans

/-! ### Whole accesses -/

/-- What a write changes, as a patch of addresses. -/
def writePatch (address : Nat) (data : ByteVector) (mask : Option ByteVector) :
    Patch Nat UInt8 := fun target =>
  if address ≤ target ∧ maskEnables mask (target - address) = true then data[target - address]?
  else none

section Patch

variable {address : Nat} {data : ByteVector} {mask : Option ByteVector}

theorem writePatch_outside {target : Nat}
    (outside : target < address ∨ address + data.length ≤ target) :
    writePatch address data mask target = none := by
  unfold writePatch
  split
  next inside => exact List.getElem?_eq_none (by omega)
  next => rfl

theorem writePatch_restrict_before :
    (writePatch address data mask).restrict (· < address) = Patch.empty := by
  funext target
  unfold Patch.restrict
  split
  next before => exact writePatch_outside (Or.inl before)
  next => rfl

theorem writePatch_restrict :
    (writePatch address data mask).restrict (· < address + data.length) =
      writePatch address data mask := by
  funext target
  unfold Patch.restrict
  split
  next => rfl
  next beyond => exact (writePatch_outside (Or.inr (not_lt.mp beyond))).symm

variable {lineSize : Nat} {span : LineSpan}

/-- Where a span writes, it writes what the whole write does. -/
theorem spanPatch_apply (isSpan : IsSpan lineSize address data.length span) (target : Nat) :
    spanPatch span data mask target =
      if address + span.copied ≤ target ∧ target < address + (span.copied + span.chunk) then
        writePatch address data mask target
      else none := by
  have place := isSpan.place
  unfold spanPatch spanByte writePatch
  by_cases inside : address + span.copied ≤ target ∧
      target < address + (span.copied + span.chunk)
  · have index : span.copied + (target - span.base - span.offset) = target - address := by omega
    have above : span.base ≤ target := by omega
    have low : span.offset ≤ target - span.base := by omega
    have high : target - span.base < span.offset + span.chunk := by omega
    have start : address ≤ target := by omega
    rw [if_pos inside, if_pos above, index]
    simp only [low, high, start, true_and]
  · rw [if_neg inside]
    split
    next above =>
      refine if_neg ?_
      rintro ⟨low, high, -⟩
      omega
    next => rfl

/-- Laying a span over the part of the write before it gives the part up to its end. -/
theorem spanPatch_onto_writePatch (isSpan : IsSpan lineSize address data.length span) :
    (spanPatch span data mask).onto
        ((writePatch address data mask).restrict (· < address + span.copied)) =
      (writePatch address data mask).restrict (· < address + (span.copied + span.chunk)) := by
  funext target
  rw [Patch.onto_apply, spanPatch_apply isSpan]
  unfold Patch.restrict
  by_cases before : target < address + span.copied
  · rw [if_neg (by omega), Option.none_or, if_pos before, if_pos (by omega)]
  · rw [if_neg before, Option.or_none]
    exact if_congr (by omega) rfl rfl

/-- A write that reaches the first byte of a line does so in the line's span. -/
theorem writePatch_base (isSpan : IsSpan lineSize address data.length span)
    (reaches : writePatch address data mask span.base ≠ none) :
    spanByte span data mask 0 ≠ none := by
  have place := isSpan.place
  have start := isSpan.start
  have positive := isSpan.positive
  have inside : address ≤ span.base := by
    by_contra below
    exact reaches (writePatch_outside (Or.inl (not_le.mp below)))
  have here : spanPatch span data mask (span.base + 0) = spanByte span data mask 0 :=
    spanPatch_base_add 0
  rw [Nat.add_zero, spanPatch_apply isSpan, if_pos (by omega)] at here
  rw [← here]
  exact reaches

end Patch

section Access

variable {β : Type} {image after : MemoryImage β}
variable {spec : DramSpec} {flat : Patch Nat UInt8} {address size : Nat}

/-- The bytes of an access lie in the geometry. -/
def InCapacity (spec : DramSpec) (address size : Nat) : Prop :=
  size = 0 ∨ address + size ≤ spec.capacityOf

theorem InCapacity.inGeometry {config : ImageConfig} {span : LineSpan}
    (bounded : InCapacity spec address size)
    (isSpan : IsSpan config.lineSize address size span) : InGeometry config spec span.base := by
  obtain ⟨aligned, place, -, positive, inside, -⟩ := isSpan
  exact ⟨aligned, by unfold InCapacity at bounded; omega⟩

/-- Every span decodes to its own coordinates when the access passes its own. -/
theorem spanDecoded_eq {span : LineSpan} (valid : image.config.Valid spec) :
    image.spanDecoded address (some (decode spec address)) span =
      some (decode spec span.base) := by
  unfold MemoryImage.spanDecoded
  split
  next first =>
    have width : image.lineSize = spec.transactionBytes := valid.lineSize
    have positive := valid.lineSize_pos
    refine congrArg some (decode_congr spec ?_)
    rw [← width, first]
    exact Nat.div_eq_sub_mod_div
  next =>
    have given : image.spec = some spec := valid.hasSpec
    rw [given]
    rfl

variable [MemoryBackend β]

theorem readInitializedMask_spec {out : ByteVector} (holds : Holds image spec flat)
    (bounded : InCapacity spec address size)
    (returns : image.readInitializedMask address size (some (decode spec address)) = .ok out) :
    out = contentMask flat address size := by
  have valid := holds.valid
  unfold MemoryImage.readInitializedMask at returns
  obtain ⟨_, -, folds⟩ := bind_eq_ok.mp returns
  refine lineSpans_foldlM valid.lineSize_pos _ (fun copied out => out = contentMask flat address copied)
    (fun span state next isSpan before steps => ?_) rfl folds
  obtain ⟨bytes, reads, returned⟩ := bind_eq_ok.mp steps
  cases returned
  have inside := bounded.inGeometry isSpan
  rw [spanDecoded_eq valid] at reads
  rw [before, maskSpan_spec holds inside isSpan.fits reads, isSpan.place]
  exact contentMask_append address span.copied span.chunk

variable [LawfulMemoryBackend β]

/-- A read returns the content of its bytes and says whether all of them were written. -/
theorem read_spec {bytes : ByteVector} {initialized : Bool} (holds : Holds image spec flat)
    (bounded : InCapacity spec address size)
    (returns : image.read address size (some (decode spec address)) =
      .ok (bytes, initialized, after)) :
    bytes = contentBytes image.defaultValue flat address size ∧
      initialized = allMasked (contentMask flat address size) ∧ Keeps image after spec flat := by
  have valid := holds.valid
  unfold MemoryImage.read at returns
  obtain ⟨_, -, folds⟩ := bind_eq_ok.mp returns
  refine lineSpans_foldlM valid.lineSize_pos (MemoryImage.readStep address _)
    (fun copied state => state.1 = contentBytes image.defaultValue flat address copied ∧
      state.2.1 = allMasked (contentMask flat address copied) ∧ Keeps image state.2.2 spec flat)
    (fun span state next isSpan before steps => ?_) ⟨rfl, rfl, holds, rfl⟩ folds
  obtain ⟨bytesBefore, initializedBefore, keeps⟩ := before
  obtain ⟨⟨spanBytes, spanInitialized, middle⟩, reads, returned⟩ := bind_eq_ok.mp steps
  cases returned
  have inside := bounded.inGeometry isSpan
  rw [spanDecoded_eq keeps.holds.valid] at reads
  obtain ⟨spanRead, spanMask, spanKeeps⟩ := readSpan_spec keeps.holds
    (keeps.config.symm ▸ inside) (lineSize_eq keeps.config ▸ isSpan.fits) isSpan.positive reads
  have default : state.2.2.defaultValue = image.defaultValue :=
    congrArg ImageConfig.defaultValue keeps.config
  refine ⟨?_, ?_, spanKeeps.holds, spanKeeps.config.trans keeps.config⟩
  · show state.1 ++ spanBytes = _
    rw [bytesBefore, spanRead, default, isSpan.place]
    exact contentBytes_append address span.copied span.chunk
  · show (state.2.1 && spanInitialized) = _
    rw [initializedBefore, spanMask, isSpan.place, ← allMasked_append, contentMask_append]

/-- Every line a write touches either carries no outstanding flip or has its first byte
overwritten. -/
def FlipSafe (image : MemoryImage β) (spec : DramSpec) (address : Nat) (data : ByteVector)
    (mask : Option ByteVector) : Prop :=
  ∀ index < data.length,
    LineClean image spec (lineBase image.lineSize (address + index)) ∨
      writePatch address data mask (lineBase image.lineSize (address + index)) ≠ none

/-- A write lays its bytes over the content, provided every outstanding flip it meets is
overwritten. -/
theorem write_spec {data : ByteVector} {mask : Option ByteVector}
    {stamp : MemoryImage.WriteStamp} (holds : Holds image spec flat)
    (bounded : InCapacity spec address data.length) (safe : FlipSafe image spec address data mask)
    (returns : image.write address data mask (some (decode spec address)) stamp = .ok after) :
    Keeps image after spec ((writePatch address data mask).onto flat) := by
  have valid := holds.valid
  unfold MemoryImage.write at returns
  obtain ⟨_, -, masked⟩ := bind_eq_ok.mp returns
  obtain ⟨_, -, folds⟩ := bind_eq_ok.mp masked
  have written := lineSpans_foldlM valid.lineSize_pos _
    (fun copied state =>
      Keeps image state spec
          (((writePatch address data mask).restrict (· < address + copied)).onto flat) ∧
        ∀ line, InGeometry image.config spec line → copied = 0 ∨ address + copied ≤ line →
          state.effectiveBlock line (some (decode spec line)) =
            image.effectiveBlock line (some (decode spec line)))
    (fun span state next isSpan before steps => ?_) ⟨⟨?_, rfl⟩, fun _ _ _ => rfl⟩ folds
  · rw [writePatch_restrict] at written
    exact written.1
  · obtain ⟨keeps, untouched⟩ := before
    have inside := bounded.inGeometry isSpan
    rw [spanDecoded_eq keeps.holds.valid] at steps
    have place := isSpan.place
    have start := isSpan.start
    have positive := isSpan.positive
    have lastByte := isSpan.inside
    have fits : span.offset + span.chunk ≤ image.lineSize := isSpan.fits
    have covered : LineClean state spec span.base ∨ spanByte span data mask 0 ≠ none := by
      have here := safe span.copied (by omega)
      have base : lineBase image.lineSize (address + span.copied) = span.base := isSpan.base_eq
      rw [base] at here
      refine here.imp (fun clean => ?_) (writePatch_base isSpan)
      unfold LineClean
      rw [untouched span.base inside (by omega)]
      exact clean
    have writes := writeSpan_spec keeps.holds (keeps.config.symm ▸ inside)
      (lineSize_eq keeps.config ▸ isSpan.fits) covered steps
    rw [← Patch.onto_assoc, spanPatch_onto_writePatch isSpan] at writes
    refine ⟨⟨writes.keeps.holds, writes.keeps.config.trans keeps.config⟩, ?_⟩
    intro line lineIn later
    have differs : line ≠ span.base := by omega
    rw [writes.others line (keeps.config.symm ▸ lineIn) differs]
    exact untouched line lineIn (by omega)
  · rw [Nat.add_zero, writePatch_restrict_before, Patch.empty_onto]
    exact holds

end Access

end HbmSim
