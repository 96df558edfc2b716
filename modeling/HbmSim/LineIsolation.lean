/-
When lines are isolated. The spec's mapping decides: where it gives two lines of
the geometry the same coordinates, one open row serves both, and a write of one
is read back as the other.

The mapping separates the lines unless the device is in an efficiency mode with
several pseudo channels.
-/

import HbmSim.ImageIsolation

namespace HbmSim

variable {β : Type} {image after : MemoryImage β} {spec : DramSpec}

/-! ### Accesses inside one line -/

theorem lineSpans_line {lineSize base offset size : Nat} (aligned : base % lineSize = 0)
    (positive : 0 < size) (fits : offset + size ≤ lineSize) :
    lineSpans lineSize (base + offset) size =
      [{ base, offset, copied := 0, chunk := size }] := by
  obtain ⟨rest, rfl⟩ := Nat.exists_eq_succ_of_ne_zero positive.ne'
  have within : (base + offset) % lineSize = offset := by
    rw [Nat.add_mod, aligned, Nat.zero_add, Nat.mod_mod, Nat.mod_eq_of_lt (by omega)]
  have done : ∀ fuel, spansFrom lineSize (base + offset) rest.succ fuel (0 + rest.succ) = [] := by
    intro fuel
    cases fuel with
    | zero => rfl
    | succ fuel =>
      unfold spansFrom
      rw [if_neg (by omega)]
  unfold lineSpans spansFrom
  rw [if_pos positive]
  dsimp only [lineBase, lineOffset]
  rw [Nat.add_zero, within, Nat.add_sub_cancel, Nat.sub_zero, Nat.min_eq_left (by omega), done]

/-- The state belongs to an image of the spec. -/
structure OfSpec (image : MemoryImage β) (spec : DramSpec) : Prop where
  given : image.spec = some spec
  lineSize : image.lineSize = spec.transactionBytes

theorem OfSpec.mapped_eq {base offset : Nat} (ofSpec : OfSpec image spec)
    (aligned : base % spec.transactionBytes = 0) (inside : offset < spec.transactionBytes) :
    image.mapped (base + offset) = some (decode spec base) := by
  have same : (base + offset) / spec.transactionBytes = base / spec.transactionBytes := by
    obtain ⟨line, rfl⟩ := Nat.dvd_of_mod_eq_zero aligned
    rw [Nat.mul_add_div (transactionBytes_pos spec), Nat.div_eq_of_lt inside,
      Nat.mul_div_cancel_left _ (transactionBytes_pos spec), Nat.add_zero]
  unfold MemoryImage.mapped
  rw [ofSpec.given, Option.map_some, decode_congr spec same]

theorem OfSpec.spanDecoded_eq {base offset copied size : Nat} (ofSpec : OfSpec image spec)
    (aligned : base % spec.transactionBytes = 0) (inside : offset < spec.transactionBytes)
    (place : Option DecodedAddress) :
    image.spanDecoded (base + offset) place { base, offset, copied, chunk := size } = place := by
  have start : lineBase image.lineSize (base + offset) = base := by
    unfold lineBase
    rw [ofSpec.lineSize, Nat.add_mod, aligned, Nat.zero_add, Nat.mod_mod,
      Nat.mod_eq_of_lt inside, Nat.add_sub_cancel]
  unfold MemoryImage.spanDecoded
  rw [if_pos start.symm]

variable [MemoryBackend β]

theorem OfSpec.read_line {base offset size : Nat} (ofSpec : OfSpec image spec)
    (aligned : base % spec.transactionBytes = 0) (positive : 0 < size)
    (fits : offset + size ≤ spec.transactionBytes) :
    image.read (base + offset) size (image.mapped (base + offset)) = (do
      validateAddressSpan (base + offset) size "memory image read" image.capacityBytes
      image.readSpan { base, offset, copied := 0, chunk := size } (some (decode spec base))) := by
  have spans : lineSpans image.lineSize (base + offset) size =
      [{ base, offset, copied := 0, chunk := size }] :=
    lineSpans_line (ofSpec.lineSize ▸ aligned) positive (ofSpec.lineSize ▸ fits)
  unfold MemoryImage.read
  rw [ofSpec.mapped_eq aligned (by omega), spans]
  refine congrArg _ (funext fun _ => ?_)
  rw [List.foldlM_cons]
  unfold MemoryImage.readStep
  dsimp only
  rw [ofSpec.spanDecoded_eq aligned (by omega)]
  cases image.readSpan { base, offset, copied := 0, chunk := size } (some (decode spec base)) with
  | error => rfl
  | ok result => rfl

theorem OfSpec.write_line {base offset : Nat} {data : ByteVector} (ofSpec : OfSpec image spec)
    (mask : Option ByteVector) (stamp : MemoryImage.WriteStamp)
    (aligned : base % spec.transactionBytes = 0) (positive : 0 < data.length)
    (fits : offset + data.length ≤ spec.transactionBytes) :
    image.write (base + offset) data mask (image.mapped (base + offset)) stamp = (do
      validateAddressSpan (base + offset) data.length "memory image write" image.capacityBytes
      throwIf (mask.any fun mask => mask.length ≠ data.length)
        (invalidArgument "memory image write mask size does not match data size")
      image.writeSpan { base, offset, copied := 0, chunk := data.length } (some (decode spec base))
        data mask stamp) := by
  have spans : lineSpans image.lineSize (base + offset) data.length =
      [{ base, offset, copied := 0, chunk := data.length }] :=
    lineSpans_line (ofSpec.lineSize ▸ aligned) positive (ofSpec.lineSize ▸ fits)
  unfold MemoryImage.write
  rw [ofSpec.mapped_eq aligned (by omega), spans]
  refine congrArg _ (funext fun _ => congrArg _ (funext fun _ => ?_))
  rw [List.foldlM_cons, ofSpec.spanDecoded_eq aligned (by omega)]
  cases image.writeSpan { base, offset, copied := 0, chunk := data.length }
    (some (decode spec base)) data mask stamp with
  | error => rfl
  | ok result => rfl

/-! ### Isolation -/

/-- A state some run takes a new image of the spec to. -/
def Reached (spec : DramSpec) (image : MemoryImage β) : Prop :=
  ∃ defaultValue options created ops outputs,
    MemoryImage.create spec defaultValue options = .ok (created : MemoryImage β) ∧
      created.run ops = .ok (outputs, image)

/-- Two different lines of the geometry. -/
structure DistinctLines (spec : DramSpec) (left right : Nat) : Prop where
  leftAligned : left % spec.transactionBytes = 0
  leftInside : left < spec.capacityOf
  rightAligned : right % spec.transactionBytes = 0
  rightInside : right < spec.capacityOf
  differs : left ≠ right

/-- Writing any part of one line never changes what the next read of any part of another one
returns, in any state. -/
def IsolatedNow (β : Type) [MemoryBackend β] (spec : DramSpec) : Prop :=
  ∀ image : MemoryImage β, Reached spec image → ∀ left right, DistinctLines spec left right →
    ∀ data mask stamp offset start size, offset + data.length ≤ spec.transactionBytes →
      start + size ≤ spec.transactionBytes →
      ∀ written bytes initialized after later laterInitialized laterAfter,
        image.write (left + offset) data mask (image.mapped (left + offset)) stamp = .ok written →
        image.read (right + start) size (image.mapped (right + start)) =
          .ok (bytes, initialized, after) →
        written.read (right + start) size (written.mapped (right + start)) =
          .ok (later, laterInitialized, laterAfter) →
        (later, laterInitialized) = (bytes, initialized)

/-- Nor does it change what a later read returns, whatever is done in between and as long as no
errors are injected. -/
def IsolatedLater (β : Type) [MemoryBackend β] (spec : DramSpec) : Prop :=
  ∀ defaultValue options (created : MemoryImage β),
    MemoryImage.create spec defaultValue options = .ok created → options.eccInjectPeriod ≤ 0 →
    ∀ left right, DistinctLines spec left right →
    ∀ data mask stamp offset start size, offset + data.length ≤ spec.transactionBytes →
      start + size ≤ spec.transactionBytes →
      ∀ before between, (∀ op ∈ before ++ between, op.InGeometry spec) →
      ∀ with' without final final',
        created.run (before ++ (.write (left + offset) data mask stamp :: between) ++
          [.read (right + start) size]) = .ok (with', final) →
        created.run (before ++ between ++ [.read (right + start) size]) = .ok (without, final') →
        with'.getLast? = without.getLast?

/-- Lines do not show through each other. -/
structure Isolated (β : Type) [MemoryBackend β] (spec : DramSpec) : Prop where
  now : IsolatedNow β spec
  later : IsolatedLater β spec

theorem Reached.ofSpec (reached : Reached spec image) : OfSpec image spec := by
  obtain ⟨defaultValue, options, created, ops, outputs, creates, runs⟩ := reached
  have kept := run_config runs
  obtain ⟨_, -, creates⟩ := bind_eq_ok.mp creates
  obtain ⟨_, -, creates⟩ := bind_eq_ok.mp creates
  obtain ⟨_, -, creates⟩ := bind_eq_ok.mp creates
  obtain ⟨_, -, creates⟩ := bind_eq_ok.mp creates
  obtain ⟨_, -, returned⟩ := bind_eq_ok.mp creates
  cases returned
  exact ⟨congrArg ImageConfig.spec kept, congrArg ImageConfig.lineSize kept⟩

theorem read_nothing {address : Nat} {bytes : ByteVector} {initialized : Bool}
    (place : Option DecodedAddress)
    (returns : image.read address 0 place = .ok (bytes, initialized, after)) :
    (bytes, initialized) = ([], true) := by
  obtain ⟨_, -, folds⟩ := bind_eq_ok.mp returns
  cases folds
  rfl

theorem write_nothing {address : Nat} {mask : Option ByteVector} {place : Option DecodedAddress}
    {stamp : MemoryImage.WriteStamp} (returns : image.write address [] mask place stamp = .ok after) :
    after = image := by
  obtain ⟨_, -, returns⟩ := bind_eq_ok.mp returns
  obtain ⟨_, -, folds⟩ := bind_eq_ok.mp returns
  cases folds
  rfl

theorem isolatedNow_of_separating [LawfulMemoryBackend β] (positive : spec.org.Positive)
    (separating : spec.Separating) : IsolatedNow β spec := by
  rintro image reached left right ⟨leftAligned, leftInside, rightAligned, rightInside, differs⟩
    data mask stamp offset start size fits readFits written bytes initialized after later
    laterInitialized laterAfter writes reads readsLater
  have ofSpec := reached.ofSpec
  have width := transactionBytes_pos spec
  rcases Nat.eq_zero_or_pos size with rfl | nonempty
  · rw [read_nothing _ reads, read_nothing _ readsLater]
  rcases Nat.eq_zero_or_pos data.length with nothing | something
  · rw [List.length_eq_zero_iff.mp nothing] at writes
    obtain rfl := write_nothing writes
    rw [reads] at readsLater
    cases readsLater
    rfl
  rw [ofSpec.write_line mask stamp leftAligned something fits] at writes
  obtain ⟨_, -, writes⟩ := bind_eq_ok.mp writes
  obtain ⟨_, -, writes⟩ := bind_eq_ok.mp writes
  have leftBounds := decode_inBounds positive left
  have rightBounds := decode_inBounds positive right
  have spares := writeSpan_spares ofSpec.given leftBounds writes
  have writtenOf : OfSpec written spec :=
    ⟨(congrArg ImageConfig.spec spares.config).trans ofSpec.given,
      (congrArg ImageConfig.lineSize spares.config).trans ofSpec.lineSize⟩
  have apart : decode spec right ≠ decode spec left := by
    intro same
    have lines := decode_injective positive separating rightInside leftInside same
    rw [← Nat.div_add_mod left spec.transactionBytes, ← lines, leftAligned,
      ← rightAligned, Nat.div_add_mod] at differs
    exact differs rfl
  rw [ofSpec.read_line rightAligned nonempty readFits] at reads
  rw [writtenOf.read_line rightAligned nonempty readFits] at readsLater
  obtain ⟨_, -, reads⟩ := bind_eq_ok.mp reads
  obtain ⟨_, -, readsLater⟩ := bind_eq_ok.mp readsLater
  obtain ⟨found, here, answered⟩ :=
    readSpan_sees ofSpec.given rightBounds (ofSpec.lineSize ▸ readFits) nonempty reads
  obtain ⟨laterFound, there, laterAnswered⟩ :=
    readSpan_sees writtenOf.given rightBounds (writtenOf.lineSize ▸ readFits) nonempty readsLater
  rw [spares.effectiveBlock ofSpec.given rightBounds differs.symm apart, here] at there
  rw [answered, laterAnswered, ← Except.ok.inj there]
  exact seenAs_congr spares.config _ _

/-! ### Later reads -/

namespace FlatStore

theorem run_append (defaultValue : UInt8) (flat : Patch Nat UInt8) (first second : List ImageOp) :
    run defaultValue flat (first ++ second) =
      ((run defaultValue flat first).1 ++
          (run defaultValue (run defaultValue flat first).2 second).1,
        (run defaultValue (run defaultValue flat first).2 second).2) := by
  induction first generalizing flat with
  | nil => rfl
  | cons op rest inductionHypothesis =>
    show ((apply defaultValue flat op).1 ::
        (run defaultValue (apply defaultValue flat op).2 (rest ++ second)).1,
      (run defaultValue (apply defaultValue flat op).2 (rest ++ second)).2) = _
    rw [inductionHypothesis]
    rfl

/-- The last answer of a run that ends with a read. -/
theorem run_read_last (defaultValue : UInt8) (flat : Patch Nat UInt8) (ops : List ImageOp)
    (start size : Nat) :
    (run defaultValue flat (ops ++ [.read start size])).1.getLast? =
      some (apply defaultValue (run defaultValue flat ops).2 (.read start size)).1 := by
  rw [run_append]
  exact List.getLast?_concat

/-- Contents that agree on some addresses agree there after the same operations. -/
theorem run_agrees {defaultValue : UInt8} {flat other : Patch Nat UInt8}
    (addresses : Nat → Prop) (ops : List ImageOp)
    (same : ∀ address, addresses address → flat address = other address) :
    ∀ address, addresses address →
      (run defaultValue flat ops).2 address = (run defaultValue other ops).2 address := by
  induction ops generalizing flat other with
  | nil => exact same
  | cons op rest inductionHypothesis =>
    unfold run
    refine inductionHypothesis fun address member => ?_
    cases op with
    | write start data mask stamp =>
      show (writePatch start data mask).onto flat address =
        (writePatch start data mask).onto other address
      rw [Patch.onto_apply, Patch.onto_apply, same address member]
    | _ => exact same address member

end FlatStore

/-- The answer of a read is what the content shows of its range. -/
theorem readAnswer_congr {defaultValue : UInt8} {flat other : Patch Nat UInt8} {start size : Nat}
    (same : ∀ index < size, flat (start + index) = other (start + index)) :
    (FlatStore.apply defaultValue flat (.read start size)).1 =
      (FlatStore.apply defaultValue other (.read start size)).1 := by
  have bytes : contentBytes defaultValue flat start size =
      contentBytes defaultValue other start size :=
    List.map_congr_left fun index member => by rw [same index (List.mem_range.mp member)]
  have mask : contentMask flat start size = contentMask other start size :=
    List.map_congr_left fun index member => by rw [same index (List.mem_range.mp member)]
  show ImageOutput.bytes _ _ = ImageOutput.bytes _ _
  rw [bytes, mask]

/-- A line of the geometry lies in it whole. -/
theorem line_inside {base : Nat} (aligned : base % spec.transactionBytes = 0)
    (inside : base < spec.capacityOf) : base + spec.transactionBytes ≤ spec.capacityOf := by
  obtain ⟨line, rfl⟩ := Nat.dvd_of_mod_eq_zero aligned
  unfold DramSpec.capacityOf at inside ⊢
  rw [Nat.mul_comm spec.transactionCount] at inside ⊢
  rw [← Nat.mul_succ]
  exact Nat.mul_le_mul_left _ (Nat.lt_of_mul_lt_mul_left inside)

/-- Two lines of the geometry have no address in common. -/
theorem DistinctLines.apart {left right : Nat} (lines : DistinctLines spec left right)
    {first second : Nat} (firstInside : first < spec.transactionBytes)
    (secondInside : second < spec.transactionBytes) : left + first ≠ right + second := by
  intro same
  have quotient : ∀ {base offset}, base % spec.transactionBytes = 0 →
      offset < spec.transactionBytes → (base + offset) / spec.transactionBytes *
        spec.transactionBytes = base := by
    intro base offset aligned inside
    obtain ⟨line, rfl⟩ := Nat.dvd_of_mod_eq_zero aligned
    rw [Nat.mul_add_div (transactionBytes_pos spec), Nat.div_eq_of_lt inside, Nat.add_zero,
      Nat.mul_comm]
  refine lines.differs ?_
  rw [← quotient lines.leftAligned firstInside, same, quotient lines.rightAligned secondInside]

theorem isolatedLater_of_separating [LawfulMemoryBackend β] (separating : spec.Separating) :
    IsolatedLater β spec := by
  intro defaultValue options created creates off left right lines data mask stamp offset start size
    fits readFits before between inside with' without final final' runs runsWithout
  have leftWhole := line_inside lines.leftAligned lines.leftInside
  have rightWhole := line_inside lines.rightAligned lines.rightInside
  have readIn : InCapacity spec (right + start) size := Or.inr (by omega)
  have writeIn : InCapacity spec (left + offset) data.length := Or.inr (by omega)
  have answers := run_refines_flatStore creates separating off (fun op member => ?_) runs
  have answersWithout := run_refines_flatStore creates separating off (fun op member => ?_)
    runsWithout
  · rw [answers, answersWithout, FlatStore.run_read_last, FlatStore.run_read_last]
    refine congrArg some (readAnswer_congr fun index small => ?_)
    rw [FlatStore.run_append, FlatStore.run_append]
    refine FlatStore.run_agrees (fun address => ∃ index < size, address = right + start + index)
      between (fun address member => ?_) _ ⟨index, small, rfl⟩
    obtain ⟨index, small, rfl⟩ := member
    have untouched : writePatch (left + offset) data mask (right + start + index) = none := by
      unfold writePatch
      split
      next reached =>
        refine List.getElem?_eq_none (Nat.not_lt.mp fun within => ?_)
        have apart := lines.apart
          (show right + start + index - left < spec.transactionBytes by omega)
          (show start + index < spec.transactionBytes by omega)
        omega
      next => rfl
    show (writePatch (left + offset) data mask).onto _ _ = _
    rw [Patch.onto_apply, untouched]
    rfl
  · rcases List.mem_append.mp member with listed | last
    · exact inside op listed
    · obtain rfl := List.mem_singleton.mp last
      exact readIn
  · rcases List.mem_append.mp member with listed | last
    · rcases List.mem_append.mp listed with early | late
      · exact inside op (List.mem_append_left _ early)
      · rcases List.mem_cons.mp late with rfl | late
        · exact writeIn
        · exact inside op (List.mem_append_right _ late)
    · obtain rfl := List.mem_singleton.mp last
      exact readIn

/-! ### Aliasing -/

theorem first_inBounds (positive : spec.org.Positive) : DecodedAddress.InBounds spec {} :=
  ⟨positive.channels, positive.pseudoChannels, positive.sids, positive.ranks,
    positive.bankGroups, positive.banksPerGroup, positive.rows, positive.columns⟩

/-- Where the mapping does not separate, two lines of the geometry have the coordinates of the
first cell. -/
theorem exists_aliases (positive : spec.org.Positive) (mixed : ¬ spec.Separating) :
    ∃ left right, left % spec.transactionBytes = 0 ∧ left < spec.capacityOf ∧
      right % spec.transactionBytes = 0 ∧ right < spec.capacityOf ∧ left ≠ right ∧
      decode spec left = {} ∧ decode spec right = {} := by
  unfold DramSpec.Separating at mixed
  simp only [Classical.not_imp] at mixed
  obtain ⟨family, efficiency, several⟩ := mixed
  have width := transactionBytes_pos spec
  have two : 1 < spec.org.pseudoChannels := by
    have := positive.pseudoChannels
    omega
  have first := first_inBounds positive
  obtain ⟨left, leftSmall, leftLine⟩ := decodeLine_surjective positive first
  have second : DecodedAddress.InBounds spec { pseudoChannel := 1 } :=
    { first with pseudoChannel := two }
  obtain ⟨right, rightSmall, rightLine⟩ := decodeLine_surjective positive second
  have decoded : ∀ line, decode spec (line * spec.transactionBytes) =
      { decodeLine spec line with pseudoChannel := 0 } := by
    intro line
    unfold decode applyLpddrEfficiency
    rw [Nat.max_eq_right width, Nat.mul_div_cancel line width, if_pos ⟨family, efficiency⟩]
  refine ⟨left * spec.transactionBytes, right * spec.transactionBytes, Nat.mul_mod_left _ _,
    Nat.mul_lt_mul_of_pos_right leftSmall width, Nat.mul_mod_left _ _,
    Nat.mul_lt_mul_of_pos_right rightSmall width, ?_, ?_, ?_⟩
  · intro same
    rw [Nat.eq_of_mul_eq_mul_right width same, rightLine] at leftLine
    cases leftLine
  · rw [decoded, leftLine]
  · rw [decoded, rightLine]

/-- The row buffer of a bank whose row has just been opened. -/
def openedEntry (image : MemoryImage β) (decoded : DecodedAddress) : RowBufferEntry where
  «open» := true
  bankKey := image.bankKeyFromDecoded decoded
  rowKey := image.rowKeyFromDecoded decoded

/-- A new image without error correction. -/
def plainImage (spec : DramSpec) : MemoryImage SparseMemoryBackend where
  lineSize := spec.transactionBytes
  spec := some spec
  options := { eccShadowEnabled := false, capacityBytes := spec.capacityOf }
  backend := { lineSize := spec.transactionBytes, capacityBytes := spec.capacityOf }

/-- Its first row opened. -/
def openedImage (spec : DramSpec) : MemoryImage SparseMemoryBackend :=
  (plainImage spec).setRowBuffer ((plainImage spec).bankKeyFromDecoded {})
    (openedEntry (plainImage spec) {})

theorem openedImage_reached (valid : validateSpec spec = .ok ()) :
    Reached spec (openedImage spec) := by
  have positive := validateSpec_positive valid
  obtain ⟨capacity, counted, -⟩ := validateSpec_capacity valid
  have first := first_inBounds positive
  refine ⟨0, { eccShadowEnabled := false }, plainImage spec, [.activateRow {} 0], [.silent], ?_, ?_⟩
  · refine bind_eq_ok.mpr ⟨(), valid, bind_eq_ok.mpr ⟨_, counted, bind_eq_ok.mpr ⟨(), rfl, ?_⟩⟩⟩
    refine bind_eq_ok.mpr ⟨_, capacity, bind_eq_ok.mpr ⟨(plainImage spec).backend, ?_, rfl⟩⟩
    exact bind_eq_ok.mpr
      ⟨(), throwIf_eq_ok.mpr (transactionBytes_pos spec).ne', rfl⟩
  · refine bind_eq_ok.mpr ⟨(.silent, openedImage spec), bind_eq_ok.mpr ⟨openedImage spec, ?_, rfl⟩,
      rfl⟩
    exact bind_eq_ok.mpr ⟨(), validateDecodedAddress_eq_ok.mpr first, rfl⟩

section Open

variable {β : Type} [MemoryBackend β] {image : MemoryImage β} {entry : RowBufferEntry}
variable {decoded : DecodedAddress} {base : Nat} {copy : DataBlock}

/-- The mutable lookup of a line whose row is open. -/
theorem rowBufferBlock_open (cycle : Nat) (given : image.spec = some spec)
    (bounds : decoded.InBounds spec)
    (lookup : image.rowBuffers.lookup (image.bankKeyFromDecoded decoded) = some entry)
    (isOpen : entry.open = true) (row : entry.rowKey = image.rowKeyFromDecoded decoded)
    (copies : image.openRowCopy entry (keyOf image.options decoded) base decoded = .ok copy) :
    ∃ block, block.bytes = copy.bytes ∧
      image.rowBufferBlock base (some decoded) cycle =
        .ok (some (keyOf image.options decoded, block),
          image.setRowBuffer (image.bankKeyFromDecoded decoded)
            { entry with
              lastAccessCycle := cycle
              columns := entry.columns.insert decoded.column block }) := by
  have bank : bankKeyFromStorageKey (keyOf image.options decoded) =
      image.bankKeyFromDecoded decoded := rfl
  have rowKey : rowKeyFromStorageKey (keyOf image.options decoded) =
      image.rowKeyFromDecoded decoded := rfl
  refine ⟨{ copy with
    physical := placement image.lineSize (some spec) image.options base decoded
    storageKey := keyOf image.options decoded }, rfl, ?_⟩
  unfold MemoryImage.rowBufferBlock
  dsimp only
  rw [storageKey_of_spec given bounds]
  refine bind_eq_ok.mpr ⟨_, rfl, ?_⟩
  rw [bank, rowKey, lookup]
  dsimp only
  rw [if_neg (by rw [isOpen, row]; simp), copies, physicalAddress_of_spec given bounds]
  have touched : (image.setRowBuffer (image.bankKeyFromDecoded decoded)
      { entry with lastAccessCycle := cycle }).rowBuffers.lookup
        (image.bankKeyFromDecoded decoded) = some { entry with lastAccessCycle := cycle } :=
    setRowBuffer_lookup _ _
  have put := fun block => @putRowBufferBlock_place β (image.setRowBuffer
    (image.bankKeyFromDecoded decoded) { entry with lastAccessCycle := cycle }) decoded
    { entry with lastAccessCycle := cycle } block touched
  refine congrArg Except.ok (Prod.ext rfl ((put _).trans ?_))
  exact setRowBuffer_setRowBuffer _ _ _

/-- A read of a span whose row is open returns. -/
theorem readSpan_open {span : LineSpan} (given : image.spec = some spec)
    (bounds : decoded.InBounds spec)
    (lookup : image.rowBuffers.lookup (image.bankKeyFromDecoded decoded) = some entry)
    (isOpen : entry.open = true) (row : entry.rowKey = image.rowKeyFromDecoded decoded)
    (copies : image.openRowCopy entry (keyOf image.options decoded) span.base decoded = .ok copy)
    (shadow : image.options.eccShadowEnabled = false) :
    ∃ initialized after, image.readSpan span (some decoded) =
      .ok (MemoryImage.spanSlice span copy.bytes, initialized, after) := by
  obtain ⟨block, bytes, finds⟩ := rowBufferBlock_open 0 given bounds lookup isOpen row copies
  unfold MemoryImage.readSpan
  rw [finds, ← bytes]
  have unchecked : ∀ counters,
      (checkEccShadow image.options block counters).1.bytes = block.bytes := by
    intro counters
    unfold checkEccShadow
    rw [if_pos (Or.inl shadow)]
  rw [← unchecked image.counters]
  exact ⟨_, _, rfl⟩

omit [MemoryBackend β] in
theorem protect_bytes_plain (block : DataBlock) (off : image.options.eccShadowEnabled = false) :
    (image.protect block).1.bytes = block.bytes := by
  unfold MemoryImage.protect maybeInjectEccError
  dsimp only
  rw [if_pos (Or.inl off), refreshEccShadow_bytes]

omit [MemoryBackend β] in
/-- Putting a written copy into an open row and marking the row. -/
theorem putWritten_eq (block : DataBlock)
    (lookup : image.rowBuffers.lookup (image.bankKeyFromDecoded decoded) = some entry) :
    (image.putRowBufferBlock (keyOf image.options decoded) block).markDirty
        (image.bankKeyFromDecoded decoded) =
      image.setRowBuffer (image.bankKeyFromDecoded decoded) { entry with
        columns := entry.columns.insert decoded.column block
        dirty := true } := by
  rw [putRowBufferBlock_place block lookup]
  unfold MemoryImage.markDirty
  rw [setRowBuffer_lookup]
  exact setRowBuffer_setRowBuffer _ _ _

/-- A write of the first byte of a line whose row is open and which nobody stored puts the byte
into the row. -/
theorem writeSpan_open {inserted : Bool} {backend : β} (value : UInt8) (given : image.spec = some spec)
    (bounds : decoded.InBounds spec)
    (lookup : image.rowBuffers.lookup (image.bankKeyFromDecoded decoded) = some entry)
    (isOpen : entry.open = true) (row : entry.rowKey = image.rowKeyFromDecoded decoded)
    (copies : image.openRowCopy entry (keyOf image.options decoded) base decoded = .ok copy)
    (loads : image.loadBackendLine base (some decoded) = .ok none)
    (makes : image.makeLine base (some decoded) = .ok copy)
    (stores : MemoryBackend.store image.backend base (backendLineFromBlock copy) =
      .ok (inserted, backend))
    (filled : 0 < copy.bytes.length) (plain : image.options.eccShadowEnabled = false) :
    ∃ written held block,
      image.writeSpan { base, offset := 0, copied := 0, chunk := 1 } (some decoded) [value] none
        {} = .ok written ∧ written.config = image.config ∧ written.backend = backend ∧
      written.rowBuffers.lookup (image.bankKeyFromDecoded decoded) = some held ∧
      held.open = true ∧ held.rowKey = image.rowKeyFromDecoded decoded ∧
      held.columns.lookup decoded.column = some block ∧ block.bytes[0]? = some value := by
  obtain ⟨target, bytes, finds⟩ := rowBufferBlock_open 0 given bounds lookup isOpen row copies
  generalize opened : image.setRowBuffer (image.bankKeyFromDecoded decoded) _ = middle at finds
  have settles : middle.storeMissing none base copy = .ok { middle with backend } := by
    rw [← opened]
    exact bind_eq_ok.mpr ⟨_, stores, rfl⟩
  let span : LineSpan := { base, offset := 0, copied := 0, chunk := 1 }
  let settled : MemoryImage β := { middle with backend }
  have plainSettled : settled.options.eccShadowEnabled = false := by
    show middle.options.eccShadowEnabled = false
    rw [← opened]
    exact plain
  let held : RowBufferEntry := { entry with
    lastAccessCycle := 0
    columns := entry.columns.insert decoded.column target }
  have settledLookup : settled.rowBuffers.lookup (settled.bankKeyFromDecoded decoded) =
      some held := by
    show middle.rowBuffers.lookup (middle.bankKeyFromDecoded decoded) = some held
    rw [← opened]
    exact setRowBuffer_lookup _ _
  let marked : DataBlock :=
    let block := settled.writtenBlock target span [value] none {}
    { block with
      initialized := allMasked block.initializedMask
      checksum := checksumBytes block.bytes }
  let result := settled.protect marked
  have content : result.1.bytes[0]? = some value := by
    have filledTarget : 0 < target.bytes.length := bytes ▸ filled
    show (settled.protect marked).1.bytes[0]? = some value
    rw [protect_bytes_plain marked plainSettled]
    show (overlaySpan target span [value] none).bytes[0]? = some value
    unfold overlaySpan
    rw [List.getElem?_mapIdx, List.getElem?_eq_getElem filledTarget]
    rfl
  have writes : image.writeSpan span (some decoded) [value] none {} =
      .ok (((settled.account result.2 (middle.nextVersion + 1)).putRowBufferBlock
        (keyOf image.options decoded) result.1).markDirty
          (bankKeyFromStorageKey (keyOf image.options decoded))) := by
    refine bind_eq_ok.mpr ⟨none, loads, bind_eq_ok.mpr ⟨copy, makes, ?_⟩⟩
    exact bind_eq_ok.mpr ⟨_, finds, bind_eq_ok.mpr ⟨settled, settles, rfl⟩⟩
  have put := @putWritten_eq _ (settled.account result.2 (middle.nextVersion + 1)) held decoded
    result.1 settledLookup
  have written : image.writeSpan span (some decoded) [value] none {} =
      .ok ((settled.account result.2 (middle.nextVersion + 1)).setRowBuffer
        (image.bankKeyFromDecoded decoded) { held with
          columns := held.columns.insert decoded.column result.1
          dirty := true }) := by
    rw [writes]
    subst opened
    exact congrArg Except.ok put
  exact ⟨_, _, result.1, written, writeSpan_config written, rfl, setRowBuffer_lookup _ _, isOpen,
    row, AList.lookup_insert _, content⟩

end Open

/-! ### The first cell read back as the other line -/

theorem openedImage_line (positive : spec.org.Positive) (base : Nat) :
    ∃ fresh, (openedImage spec).makeLine base (some {}) = .ok fresh ∧
      fresh.bytes = List.replicate spec.transactionBytes 0 ∧
      (openedImage spec).openRowCopy (openedEntry (plainImage spec) {})
        (keyOf (openedImage spec).options {}) base {} = .ok fresh ∧
      (base % spec.transactionBytes = 0 → base < spec.capacityOf →
        ∃ inserted backend, MemoryBackend.store (openedImage spec).backend base
          (backendLineFromBlock fresh) = .ok (inserted, backend)) := by
  have makes : ∃ fresh, (openedImage spec).makeLine base (some {}) = .ok fresh ∧
      fresh.bytes = List.replicate spec.transactionBytes 0 ∧
      fresh.initializedMask = List.replicate spec.transactionBytes 0 := by
    unfold MemoryImage.makeLine
    rw [physicalAddress_of_spec rfl (first_inBounds positive)]
    exact ⟨_, rfl, rfl, rfl⟩
  obtain ⟨fresh, made, zeros, mask⟩ := makes
  refine ⟨fresh, made, zeros, made, fun aligned inside => ?_⟩
  have whole := line_inside aligned inside
  have valid : validateLine base (backendLineFromBlock fresh) spec.transactionBytes
      spec.capacityOf = .ok () := by
    refine bind_eq_ok.mpr ⟨(), throwIf_eq_ok.mpr (not_not.mpr aligned), ?_⟩
    refine bind_eq_ok.mpr ⟨(), throwIf_eq_ok.mpr ?_, throwIf_eq_ok.mpr ?_⟩
    · show ¬ (fresh.bytes.length ≠ _ ∨ fresh.initializedMask.length ≠ _)
      rw [zeros, mask, List.length_replicate]
      simp
    · omega
  exact ⟨_, _, bind_eq_ok.mpr ⟨(), valid, rfl⟩⟩

theorem validateAddressSpan_byte {address capacityBytes : Nat} {context : String}
    (inside : address < capacityBytes) (fits : capacityBytes ≤ uint64Max) :
    validateAddressSpan (address + 0) 1 context capacityBytes = .ok () := by
  refine bind_eq_ok.mpr ⟨(), throwIf_eq_ok.mpr ?_, throwIf_eq_ok.mpr ?_⟩ <;> omega

/-- Where the mapping does not separate, an open row mixes two lines up. -/
theorem not_isolated_of_mixed (valid : validateSpec spec = .ok ()) (mixed : ¬ spec.Separating) :
    ¬ Isolated SparseMemoryBackend spec := by
  intro isolated
  have positive := validateSpec_positive valid
  have width := transactionBytes_pos spec
  have first := first_inBounds positive
  have reached := openedImage_reached valid
  have ofSpec := reached.ofSpec
  obtain ⟨left, right, leftAligned, leftInside, rightAligned, rightInside, differs, leftPlace,
    rightPlace⟩ := exists_aliases positive mixed
  have fits := (validateSpec_capacity valid).2.2
  obtain ⟨fresh, made, zeros, copies, stores⟩ := openedImage_line positive left
  obtain ⟨inserted, backend, stores⟩ := stores leftAligned leftInside
  obtain ⟨rightFresh, -, rightZeros, rightCopies, -⟩ := openedImage_line positive right
  have lookup : (openedImage spec).rowBuffers.lookup ((openedImage spec).bankKeyFromDecoded {}) =
      some (openedEntry (plainImage spec) {}) := setRowBuffer_lookup _ _
  have filled : 0 < fresh.bytes.length := by
    rw [zeros, List.length_replicate]
    exact width
  obtain ⟨written, held, block, writes, config, stored, heldLookup, isOpen, row, column, one⟩ :=
    writeSpan_open 1 rfl first lookup rfl rfl copies rfl made stores filled rfl
  have writtenOf : OfSpec written spec :=
    ⟨(congrArg ImageConfig.spec config).trans ofSpec.given,
      (congrArg ImageConfig.lineSize config).trans ofSpec.lineSize⟩
  have writtenOptions : written.options = (openedImage spec).options :=
    congrArg ImageConfig.options config
  have writeReturns : (openedImage spec).write (left + 0) [1] none
      ((openedImage spec).mapped (left + 0)) {} = .ok written := by
    rw [ofSpec.write_line none {} leftAligned (show 0 < [(1 : UInt8)].length from Nat.one_pos)
      width, leftPlace]
    exact bind_eq_ok.mpr ⟨(), validateAddressSpan_byte leftInside fits,
      bind_eq_ok.mpr ⟨(), rfl, writes⟩⟩
  obtain ⟨initialized, after, reads⟩ := @readSpan_open spec _ _ (openedImage spec) _ {} rightFresh
    { base := right, offset := 0, copied := 0, chunk := 1 } rfl first lookup rfl rfl rightCopies rfl
  have readReturns : (openedImage spec).read (right + 0) 1 ((openedImage spec).mapped (right + 0)) =
      .ok (MemoryImage.spanSlice { base := right, offset := 0, copied := 0, chunk := 1 }
        rightFresh.bytes, initialized, after) := by
    rw [ofSpec.read_line rightAligned Nat.one_pos width, rightPlace]
    exact bind_eq_ok.mpr ⟨(), validateAddressSpan_byte rightInside fits, reads⟩
  have laterCopies : written.openRowCopy held (keyOf written.options {}) right {} = .ok block := by
    have found : held.columns.lookup ((keyOf written.options {}).column.getD 0) = some block :=
      column
    unfold MemoryImage.openRowCopy
    rw [found]
  have capacity : written.capacityBytes = spec.capacityOf := by
    obtain ⟨_, -, returned⟩ := bind_eq_ok.mp stores
    cases returned
    unfold MemoryImage.capacityBytes
    rw [stored]
    rfl
  obtain ⟨laterInitialized, laterAfter, readsLater⟩ := @readSpan_open spec _ _ written held {} block
    { base := right, offset := 0, copied := 0, chunk := 1 } writtenOf.given first
    (by rw [bankKeyFromDecoded_congr config]; exact heldLookup) isOpen
    (by rw [rowKeyFromDecoded_congr config]; exact row) laterCopies
    (by rw [writtenOptions]; rfl)
  have laterReturns : written.read (right + 0) 1 (written.mapped (right + 0)) =
      .ok (MemoryImage.spanSlice { base := right, offset := 0, copied := 0, chunk := 1 }
        block.bytes, laterInitialized, laterAfter) := by
    rw [writtenOf.read_line rightAligned Nat.one_pos width, rightPlace]
    refine bind_eq_ok.mpr ⟨(), ?_, readsLater⟩
    rw [capacity]
    exact validateAddressSpan_byte rightInside fits
  have same := isolated.now _ reached left right
    ⟨leftAligned, leftInside, rightAligned, rightInside, differs⟩ [1] none {} 0 0 1 width width
    _ _ _ _ _ _ _ writeReturns readReturns laterReturns
  have bytes := (Prod.mk.inj same).1
  have head := congrArg (fun bytes : ByteVector => bytes[0]?) bytes
  have slice : ∀ bytes : ByteVector, (MemoryImage.spanSlice
      { base := right, offset := 0, copied := 0, chunk := 1 } bytes)[0]? = bytes[0]? := by
    intro bytes
    cases bytes <;> rfl
  rw [slice, slice, one, rightZeros, List.getElem?_replicate, if_pos width] at head
  exact absurd head (by decide)

/-- Every two lines of an accepted geometry are isolated exactly when the mapping separates
them. -/
theorem isolated_iff_separating (valid : validateSpec spec = .ok ()) :
    (∀ (β : Type) [MemoryBackend β] [LawfulMemoryBackend β], Isolated β spec) ↔
      spec.Separating := by
  constructor
  · intro isolated
    by_contra mixed
    exact not_isolated_of_mixed valid mixed (isolated SparseMemoryBackend)
  · intro separating β _ _
    exact ⟨isolatedNow_of_separating (validateSpec_positive valid) separating,
      isolatedLater_of_separating separating⟩

theorem isolated_iff_separating_small :
    (∀ (β : Type) [MemoryBackend β] [LawfulMemoryBackend β], Isolated β smallSpec) ↔
      smallSpec.Separating :=
  isolated_iff_separating rfl

/-- The small device with a second sub-channel that the efficiency mode switches off. -/
def efficiencySpec : DramSpec where
  standard := .lpddr6
  org := { pseudoChannels := 2, bankGroups := 1, banksPerGroup := 1, rows := 2, columns := 2,
           lineSize := 4 }
  speedBinMbps := 6400
  lpddrFamily := true
  lpddrEfficiencyMode := .static
  lpddrWckRatio := 2

/-- With row 0 open, a byte written to the line at 0 is read back from the line at 8. -/
theorem write_changes_other_line :
    validateSpec efficiencySpec = .ok () ∧
      (do
        let image : MemoryImage SparseMemoryBackend ← MemoryImage.create efficiencySpec 0 {}
        let (outputs, _) ← image.run [.activateRow {} 0, .read 8 4, .write 0 [7] none {}, .read 8 4]
        return outputs) =
        .ok [.silent, .bytes [0, 0, 0, 0] false, .silent, .bytes [7, 0, 0, 0] false] :=
  ⟨rfl, rfl⟩

end HbmSim
