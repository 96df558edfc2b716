/-
A run that goes on from a dump. An image is used, its open rows are flushed, and it is
dumped; a new image of the same device takes the dump and is used on. Together the two
answer as one flat byte store does that nothing happened to in between.

The flush is needed: what a written row still holds is not in a dump. So is that no errors
are injected, as a load computes the check bits anew from the bytes it finds.
-/

import HbmSim.RoundTrip

namespace HbmSim

variable {β γ : Type} [CheckpointBackend β] [CheckpointBackend γ]
variable {image after : MemoryImage β} {spec : DramSpec} {flat : Patch Nat UInt8}

/-! ### What a flush leaves -/

/-- No open row has anything to store. -/
def MemoryImage.Flushed (image : MemoryImage β) : Prop :=
  ∀ bankKey entry, image.rowBuffers.lookup bankKey = some entry →
    ¬ (entry.open = true ∧ entry.dirty = true)

omit [CheckpointBackend β] in
theorem MemoryImage.Flushed.not_heldDirty (flushed : image.Flushed) (base : Nat) :
    ¬ HeldDirty image spec base := by
  rintro ⟨entry, lookup, dirty⟩
  exact flushed _ entry lookup ⟨dirty.isOpen, dirty.dirty⟩

section Flush

variable [LawfulCheckpointBackend β]

/-- Flushing a row leaves it with nothing to store, and the others as they are. -/
theorem flushRowBuffer_flushed {cycle : Nat} {bankKey : StorageKey}
    (returns : image.flushRowBuffer cycle bankKey = .ok after) :
    (∀ entry, after.rowBuffers.lookup bankKey = some entry →
        ¬ (entry.open = true ∧ entry.dirty = true)) ∧
      ∀ other ≠ bankKey, after.rowBuffers.lookup other = image.rowBuffers.lookup other := by
  unfold MemoryImage.flushRowBuffer at returns
  cases lookup : image.rowBuffers.lookup bankKey with
  | none =>
    rw [lookup] at returns
    cases returns
    refine ⟨fun entry found => ?_, fun _ _ => rfl⟩
    rw [lookup] at found
    cases found
  | some entry =>
    rw [lookup] at returns
    dsimp only at returns
    split at returns
    next nothing =>
      cases returns
      refine ⟨fun found same => ?_, fun _ _ => rfl⟩
      obtain rfl := Option.some.inj (lookup.symm.trans same)
      rintro ⟨isOpen, dirty⟩
      rcases nothing with closed | clean
      · exact Bool.false_ne_true (closed.symm.trans isOpen)
      · exact Bool.false_ne_true (clean.symm.trans dirty)
    · obtain ⟨middle, stores, returned⟩ := bind_eq_ok.mp returns
      cases returned
      obtain ⟨-, rows⟩ := storeColumns_allocated stores
      refine ⟨fun found same => ?_, fun other elsewhere => ?_⟩
      · rw [setRowBuffer_lookup] at same
        obtain rfl := Option.some.inj same
        exact fun both => Bool.false_ne_true both.2
      · rw [← rows]
        exact AList.lookup_insert_ne elsewhere

theorem flushDirtyRowBuffers_flushed {cycle : Nat}
    (returns : image.flushDirtyRowBuffers cycle = .ok after) : after.Flushed := by
  have loop : ∀ (keys : List StorageKey) (start : MemoryImage β),
      keys.foldlM (MemoryImage.flushRowBuffer cycle) start = .ok after →
      ∀ bankKey, (bankKey ∈ keys ∨ ∀ entry, start.rowBuffers.lookup bankKey = some entry →
        ¬ (entry.open = true ∧ entry.dirty = true)) →
      ∀ entry, after.rowBuffers.lookup bankKey = some entry →
        ¬ (entry.open = true ∧ entry.dirty = true) := by
    intro keys
    induction keys with
    | nil =>
      intro start folds bankKey clean
      cases folds
      exact clean.resolve_left List.not_mem_nil
    | cons key rest inductionHypothesis =>
      intro start folds bankKey clean
      rw [List.foldlM_cons] at folds
      obtain ⟨middle, first, later⟩ := bind_eq_ok.mp folds
      obtain ⟨here, others⟩ := flushRowBuffer_flushed first
      refine inductionHypothesis middle later bankKey ?_
      by_cases same : bankKey = key
      · exact Or.inr (same ▸ here)
      · rw [others bankKey same]
        exact clean.imp_left fun member => (List.mem_cons.mp member).resolve_left same
  intro bankKey
  refine loop _ image returns bankKey ?_
  by_cases listed : bankKey ∈ image.rowBuffers.keys
  · exact Or.inl listed
  · refine Or.inr fun entry lookup => ?_
    exact absurd (AList.lookup_isSome.mp (Option.isSome_iff_exists.mpr ⟨entry, lookup⟩)) listed

end Flush

/-! ### Written lines are stored -/

/-- Every byte that was written belongs to a line the backend has. -/
def MemoryImage.StoresWritten (image : MemoryImage β) (flat : Patch Nat UInt8) : Prop :=
  ∀ address, flat address ≠ none → lineBase image.lineSize address ∈ allocated image.backend

theorem lineBase_add {lineSize address more : Nat}
    (fits : lineOffset lineSize address + more < lineSize) :
    lineBase lineSize (address + more) = lineBase lineSize address := by
  have parts : address % lineSize + lineSize * (address / lineSize) = address :=
    Nat.mod_add_div address lineSize
  have offset : (address + more) % lineSize = address % lineSize + more := by
    have same : address + more = address % lineSize + more + lineSize * (address / lineSize) := by
      omega
    rw [same, Nat.add_mul_mod_self_left]
    exact Nat.mod_eq_of_lt fits
  unfold lineBase
  omega

/-- The lines of an access are those of its bytes. -/
theorem lineBase_mem_spans {lineSize address size : Nat} (positive : 0 < lineSize) {index : Nat}
    (inside : index < size) :
    lineBase lineSize (address + index) ∈ (lineSpans lineSize address size).map LineSpan.base := by
  have walk : ∀ fuel copied, size - copied ≤ fuel → copied ≤ index →
      lineBase lineSize (address + index) ∈
        (spansFrom lineSize address size fuel copied).map LineSpan.base := by
    intro fuel
    induction fuel with
    | zero => omega
    | succ fuel inductionHypothesis =>
      intro copied enough before
      have below : lineOffset lineSize (address + copied) < lineSize := Nat.mod_lt _ positive
      unfold spansFrom
      rw [if_pos (Nat.lt_of_le_of_lt before inside)]
      dsimp only
      rw [List.map_cons, List.mem_cons]
      by_cases later : copied + min (size - copied)
          (lineSize - lineOffset lineSize (address + copied)) ≤ index
      · exact Or.inr (inductionHypothesis _ (by omega) later)
      · refine Or.inl ?_
        obtain ⟨more, rfl⟩ := Nat.exists_eq_add_of_le before
        show lineBase lineSize (address + (copied + more)) = lineBase lineSize (address + copied)
        rw [← Nat.add_assoc]
        exact lineBase_add (by omega)
  exact walk size 0 (Nat.sub_le _ _) (Nat.zero_le _)

/-! ### The operations of a run -/

/-- The operation among those of the storage; a look at the marks changes nothing. -/
def ImageOp.storage (image : MemoryImage β) : ImageOp → Option StorageOp
  | .activateRow decoded cycle => some (.activateRow decoded cycle)
  | .prechargeBank decoded cycle => some (.prechargeBank decoded cycle)
  | .prechargeAll decoded cycle => some (.prechargeAll decoded cycle)
  | .flushDirtyRowBuffers cycle => some (.flushDirtyRowBuffers cycle)
  | .flushAllRowBuffers cycle => some (.flushAllRowBuffers cycle)
  | .write address data mask stamp =>
    some (.write address data mask (image.mapped address) stamp)
  | .read address size => some (.read address size (image.mapped address))
  | .readInitializedMask _ _ => none

omit [CheckpointBackend β] in
theorem ImageOp.storage_adds {op : ImageOp} {storage : StorageOp}
    (is : op.storage image = some storage) : storage.replaces = false := by
  cases op <;> cases is <;> rfl

theorem apply_storage {op : ImageOp} {output : ImageOutput}
    (returns : image.apply op = .ok (output, after)) :
    (op.storage image = none ∧ after = image) ∨
      ∃ storage outputs, op.storage image = some storage ∧
        image.applyStorage storage = .ok (outputs, after) := by
  cases op with
  | activateRow =>
    obtain ⟨_, steps, returned⟩ := bind_eq_ok.mp returns
    cases returned
    exact Or.inr ⟨_, [], rfl, bind_eq_ok.mpr ⟨_, steps, rfl⟩⟩
  | prechargeBank =>
    obtain ⟨_, steps, returned⟩ := bind_eq_ok.mp returns
    cases returned
    exact Or.inr ⟨_, [], rfl, bind_eq_ok.mpr ⟨_, steps, rfl⟩⟩
  | prechargeAll =>
    obtain ⟨_, steps, returned⟩ := bind_eq_ok.mp returns
    cases returned
    exact Or.inr ⟨_, [], rfl, bind_eq_ok.mpr ⟨_, steps, rfl⟩⟩
  | flushDirtyRowBuffers =>
    obtain ⟨_, steps, returned⟩ := bind_eq_ok.mp returns
    cases returned
    exact Or.inr ⟨_, [], rfl, bind_eq_ok.mpr ⟨_, steps, rfl⟩⟩
  | flushAllRowBuffers =>
    obtain ⟨_, steps, returned⟩ := bind_eq_ok.mp returns
    cases returned
    exact Or.inr ⟨_, [], rfl, bind_eq_ok.mpr ⟨_, steps, rfl⟩⟩
  | write =>
    obtain ⟨_, steps, returned⟩ := bind_eq_ok.mp returns
    cases returned
    exact Or.inr ⟨_, [], rfl, bind_eq_ok.mpr ⟨_, steps, rfl⟩⟩
  | read =>
    obtain ⟨⟨bytes, initialized, _⟩, steps, returned⟩ := bind_eq_ok.mp returns
    cases returned
    exact Or.inr ⟨_, [bytes], rfl, bind_eq_ok.mpr ⟨_, steps, rfl⟩⟩
  | readInitializedMask =>
    obtain ⟨_, steps, returned⟩ := bind_eq_ok.mp returns
    cases returned
    exact Or.inl ⟨rfl, rfl⟩

variable [RestorableBackend β] [RestorableBackend γ]

omit [RestorableBackend β] in
theorem run_reachable {ops : List ImageOp} {outputs : List ImageOutput}
    (reachable : image.Reachable spec) (returns : image.run ops = .ok (outputs, after)) :
    after.Reachable spec := by
  induction ops generalizing image outputs with
  | nil =>
    cases returns
    exact reachable
  | cons op rest inductionHypothesis =>
    obtain ⟨⟨output, middle⟩, steps, continues⟩ := bind_eq_ok.mp returns
    obtain ⟨⟨later, _⟩, runs, returned⟩ := bind_eq_ok.mp continues
    cases returned
    refine inductionHypothesis ?_ runs
    rcases apply_storage steps with ⟨-, rfl⟩ | ⟨storage, outputs, -, stores⟩
    · exact reachable
    · exact reachable.operation stores

/-- An operation stores what it writes. -/
theorem apply_storesWritten {op : ImageOp} {output : ImageOutput} {defaultValue : UInt8}
    (positive : 0 < image.lineSize) (stores : image.StoresWritten flat)
    (returns : image.apply op = .ok (output, after)) :
    after.StoresWritten (FlatStore.apply defaultValue flat op).2 := by
  rcases apply_storage returns with ⟨is, rfl⟩ | ⟨storage, outputs, is, steps⟩
  · cases op <;> cases is
    exact stores
  have grows : allocated after.backend =
      allocated image.backend ∪ {base | base ∈ image.storedByRows storage} ∪
        {base | base ∈ storage.targets image.lineSize} := by
    rw [applyStorage_allocated steps, ImageOp.storage_adds is, if_neg Bool.false_ne_true]
  intro address written
  rw [applyStorage_lineSize steps, grows]
  have kept : flat address ≠ none → lineBase image.lineSize address ∈
      allocated image.backend ∪ {base | base ∈ image.storedByRows storage} ∪
        {base | base ∈ storage.targets image.lineSize} :=
    fun before => Or.inl (Or.inl (stores address before))
  cases op with
  | write start data mask stamp =>
    cases is
    by_cases before : flat address = none
    · refine Or.inr ?_
      have here : writePatch start data mask address ≠ none := by
        intro outside
        refine written ?_
        show (writePatch start data mask).onto flat address = none
        rw [Patch.onto_apply, outside, before]
        rfl
      have below : start ≤ address ∧ address < start + data.length := by
        by_contra elsewhere
        exact here (writePatch_outside (by omega))
      obtain ⟨index, rfl⟩ := Nat.exists_eq_add_of_le below.1
      exact lineBase_mem_spans positive (Nat.lt_of_add_lt_add_left below.2)
    · exact kept before
  | _ => exact kept written

theorem run_storesWritten {ops : List ImageOp} {outputs : List ImageOutput}
    {defaultValue : UInt8} (positive : 0 < image.lineSize) (stores : image.StoresWritten flat)
    (returns : image.run ops = .ok (outputs, after)) :
    after.StoresWritten (FlatStore.run defaultValue flat ops).2 := by
  induction ops generalizing image flat outputs with
  | nil =>
    cases returns
    exact stores
  | cons op rest inductionHypothesis =>
    obtain ⟨⟨output, middle⟩, steps, continues⟩ := bind_eq_ok.mp returns
    obtain ⟨⟨later, _⟩, runs, returned⟩ := bind_eq_ok.mp continues
    cases returned
    refine inductionHypothesis ?_ (apply_storesWritten positive stores steps) runs
    rcases apply_storage steps with ⟨-, rfl⟩ | ⟨storage, outputs, -, stored⟩
    · exact positive
    · rw [applyStorage_lineSize stored]
      exact positive

/-! ### The content of a loaded image -/

/-- An image with no line and no open row, as a dump of the other image finds it. -/
structure Vacant (image : MemoryImage β) (target : MemoryImage γ) : Prop where
  config : target.config = image.config
  lineSize : MemoryBackend.lineSize target.backend = target.lineSize
  rows : target.rowBuffers = ∅
  empty : ∀ base found, MemoryBackend.load target.backend base = .ok found → found = none

omit [RestorableBackend γ] in
/-- A new image that took the lines of a flushed one over holds the same content. -/
theorem Restores.holds {target loaded : MemoryImage γ} (holds : Holds image spec flat)
    (flushed : image.Flushed) (stores : image.StoresWritten flat)
    (off : image.options.eccInjectPeriod ≤ 0) (placed : image.Placed spec)
    (vacant : Vacant image target)
    (restores : Restores target loaded (CheckpointBackend.allAddresses image.backend)
      image.storedBlock) : Holds loaded spec flat := by
  have config : loaded.config = image.config := restores.config.trans vacant.config
  have rows : loaded.rowBuffers = ∅ := restores.rows.trans vacant.rows
  have size : loaded.lineSize = image.lineSize := congrArg ImageConfig.lineSize config
  refine ⟨config ▸ holds.valid, ?_, fun bankKey entry lookup => ?_,
    fun bankKey entry lookup => ?_, fun base inside _ found loads => ?_⟩
  · rw [restores.lineSize, vacant.lineSize]
    exact (lineSize_eq restores.config).symm
  · rw [rows] at lookup
    cases lookup
  · rw [rows] at lookup
    cases lookup
  rw [config] at inside
  by_cases listed : base ∈ CheckpointBackend.allAddresses image.backend
  · obtain ⟨line, stored, -, block⟩ := storedBlock_found placed listed
    obtain ⟨kept, there, keeps, exactly⟩ := restores.there base listed
    obtain rfl := Except.ok.inj (there.symm.trans loads)
    have sound : Sound image.config flat base
        (MemoryImage.blockFromBackendLine image.lineSize line) :=
      holds.stored base inside (flushed.not_heldDirty base) _ stored
    rcases sound with settled | flipped
    · have bytes : line.bytes = lineBytes image.config flat base := settled.bytes
      have mask : line.initializedMask = lineMask image.config flat base := settled.mask
      rw [block.bytes, block.mask, bytes, mask] at keeps
      rw [block.mask, mask] at exactly
      obtain ⟨same, clean⟩ := exactly lineMask_canonical
      refine Or.inl ⟨?_, ?_, clean _⟩
      · rw [config]
        exact keeps.bytes
      · rw [config]
        exact same
    · exact absurd flipped.injecting (not_lt.mpr off)
  · rw [restores.others base listed] at loads
    obtain rfl := vacant.empty base found loads
    intro index small
    by_contra written
    rw [size] at small
    refine listed ((ListedBackend.mem_allAddresses _ _).mpr ?_)
    have line : lineBase image.lineSize (base + index) = base := by
      have aligned : base % image.lineSize = 0 := inside.aligned
      rw [lineBase_add (by unfold lineOffset; omega)]
      unfold lineBase
      omega
    exact line ▸ stores (base + index) written

theorem flatStore_run_append (defaultValue : UInt8) (flat : Patch Nat UInt8)
    (ops later : List ImageOp) :
    (FlatStore.run defaultValue flat (ops ++ later)).1 =
      (FlatStore.run defaultValue flat ops).1 ++
        (FlatStore.run defaultValue (FlatStore.run defaultValue flat ops).2 later).1 := by
  induction ops generalizing flat with
  | nil => rfl
  | cons op rest inductionHypothesis =>
    exact congrArg ((FlatStore.apply defaultValue flat op).1 :: ·) (inductionHypothesis _)

/-! ### Going on from a dump -/

omit [RestorableBackend β] [RestorableBackend γ] in
/-- Two new images of one device with the same options are configured alike. -/
theorem create_config {target : MemoryImage γ} {defaultValue : UInt8}
    {options : StorageModelOptions}
    (created : MemoryImage.create spec defaultValue options = .ok image)
    (created' : MemoryImage.create spec defaultValue options = .ok target) :
    target.config = image.config := by
  obtain ⟨_, -, created⟩ := bind_eq_ok.mp created
  obtain ⟨_, -, created⟩ := bind_eq_ok.mp created
  obtain ⟨_, -, created⟩ := bind_eq_ok.mp created
  obtain ⟨capacity, configured, created⟩ := bind_eq_ok.mp created
  obtain ⟨_, -, returned⟩ := bind_eq_ok.mp created
  cases returned
  obtain ⟨_, -, created⟩ := bind_eq_ok.mp created'
  obtain ⟨_, -, created⟩ := bind_eq_ok.mp created
  obtain ⟨_, -, created⟩ := bind_eq_ok.mp created
  obtain ⟨capacity', configured', created⟩ := bind_eq_ok.mp created
  obtain ⟨_, -, returned⟩ := bind_eq_ok.mp created
  cases returned
  obtain rfl := Except.ok.inj (configured.symm.trans configured')
  rfl

theorem create_vacant {target : MemoryImage γ} {defaultValue : UInt8}
    {options : StorageModelOptions}
    (created : MemoryImage.create spec defaultValue options = .ok target) :
    target.rowBuffers = ∅ ∧ ∀ base found,
      MemoryBackend.load target.backend base = .ok found → found = none := by
  obtain ⟨_, -, created⟩ := bind_eq_ok.mp created
  obtain ⟨_, -, created⟩ := bind_eq_ok.mp created
  obtain ⟨_, -, created⟩ := bind_eq_ok.mp created
  obtain ⟨_, -, created⟩ := bind_eq_ok.mp created
  obtain ⟨backend, made, returned⟩ := bind_eq_ok.mp created
  cases returned
  exact ⟨rfl, (LawfulMemoryBackend.make_ok _ _ _ made).2.2⟩

/-- The capacity of an image is a 64-bit number when the one in its options is. -/
theorem create_capacity_le {defaultValue : UInt8} {options : StorageModelOptions}
    (created : MemoryImage.create spec defaultValue options = .ok image)
    (wide : options.capacityBytes ≤ uint64Max) : image.capacityBytes ≤ uint64Max := by
  obtain ⟨_, -, created⟩ := bind_eq_ok.mp created
  obtain ⟨_, -, created⟩ := bind_eq_ok.mp created
  obtain ⟨_, -, created⟩ := bind_eq_ok.mp created
  obtain ⟨capacity, configured, created⟩ := bind_eq_ok.mp created
  obtain ⟨backend, made, returned⟩ := bind_eq_ok.mp created
  cases returned
  show MemoryBackend.capacityBytes backend ≤ uint64Max
  rw [RestorableBackend.make_capacity _ _ _ made]
  unfold MemoryImage.configuredCapacity at configured
  split at configured
  · exact (spec.addressableCapacityBytes_eq configured).2
  · cases configured
    exact wide

/-- An image that was used from new and flushed, so that a dump finds its whole content. -/
structure Settles (image flushed : MemoryImage β) (spec : DramSpec) (flat : Patch Nat UInt8) :
    Prop where
  config : flushed.config = image.config
  reachable : flushed.Reachable spec
  holds : Holds flushed spec flat
  clean : flushed.Flushed
  stores : flushed.StoresWritten flat

section Sessions

variable {final flushed : MemoryImage β} {target loaded : MemoryImage γ}
variable {defaultValue : UInt8} {options : StorageModelOptions} {ops later : List ImageOp}
variable {outputs : List ImageOutput} {cycle : Nat}

theorem run_settles (created : MemoryImage.create spec defaultValue options = .ok image)
    (separating : spec.Separating) (off : options.eccInjectPeriod ≤ 0)
    (inside : ∀ op ∈ ops, op.InGeometry spec) (returns : image.run ops = .ok (outputs, final))
    (flushes : final.flushDirtyRowBuffers cycle = .ok flushed) :
    outputs = (FlatStore.run defaultValue Patch.empty ops).1 ∧
      Settles image flushed spec (FlatStore.run defaultValue Patch.empty ops).2 := by
  obtain ⟨default, period⟩ := create_given created
  have holds := create_holds created separating (Or.inl off)
  have safe := flipSafeRun_of_no_injection ops holds inside (period ▸ off)
  obtain ⟨answered, keeps⟩ := run_spec ops holds inside safe returns
  obtain ⟨flushedHolds, flushedConfig⟩ := flushDirtyRowBuffers_holds keeps.holds flushes
  have storage : final.applyStorage (.flushDirtyRowBuffers cycle) = .ok ([], flushed) :=
    bind_eq_ok.mpr ⟨flushed, flushes, rfl⟩
  have positive : 0 < image.lineSize := holds.valid.lineSize_pos
  have stores := @run_storesWritten β _ image final Patch.empty _ ops outputs defaultValue positive
    (fun _ written => absurd rfl written) returns
  rw [default] at answered flushedHolds
  refine ⟨answered, flushedConfig.trans keeps.config, ?_, flushedHolds,
    flushDirtyRowBuffers_flushed flushes, fun address written => ?_⟩
  · exact (run_reachable (.created created) returns).operation storage
  · rw [applyStorage_lineSize storage, applyStorage_allocated storage,
      if_neg (show ¬ StorageOp.replaces (.flushDirtyRowBuffers cycle) = true from
        Bool.false_ne_true)]
    exact Or.inl (Or.inl (stores address written))

/-- What took the lines over answers as the flat store goes on. -/
theorem Settles.answers (settles : Settles image flushed spec flat)
    (off : image.options.eccInjectPeriod ≤ 0) (vacant : Vacant image target)
    (restores : Restores target loaded (CheckpointBackend.allAddresses flushed.backend)
      flushed.storedBlock) (inside : ∀ op ∈ later, op.InGeometry spec)
    {answers : List ImageOutput} {after : MemoryImage γ}
    (returns : loaded.run later = .ok (answers, after)) :
    answers = (FlatStore.run image.defaultValue flat later).1 := by
  have options : flushed.options = image.options := congrArg ImageConfig.options settles.config
  have holds := Restores.holds settles.holds settles.clean settles.stores (options ▸ off)
    settles.reachable.placed.2
    ⟨vacant.config.trans settles.config.symm, vacant.lineSize, vacant.rows, vacant.empty⟩ restores
  have config : loaded.config = image.config := restores.config.trans vacant.config
  have loadedOff : loaded.options.eccInjectPeriod ≤ 0 := by
    rw [show loaded.options = image.options from congrArg ImageConfig.options config]
    exact off
  have default : loaded.defaultValue = image.defaultValue :=
    congrArg ImageConfig.defaultValue config
  rw [← default]
  exact (run_spec later holds inside (flipSafeRun_of_no_injection later holds inside loadedOff)
    returns).1

/-- A write over two lines of a row that stays open. -/
def openRowWrite : List ImageOp :=
  [.activateRow { row := 0 } 0, .write 2 [1, 2, 3, 4] (some [1, 0, 1, 1]) {}]

theorem openRowWrite_inGeometry : ∀ op ∈ openRowWrite ++ [.read 0 8], op.InGeometry smallSpec := by
  intro op member
  fin_cases member
  · trivial
  · exact Or.inr (by decide)
  · exact Or.inr (by decide)

/-- Without injected errors a run on a new image, a flush and a dump to a text file, and then a run
on a new image that loaded the file, answer as one flat store does. -/
theorem run_resumes_from_text (created : MemoryImage.create spec defaultValue options = .ok image)
    (created' : MemoryImage.create spec defaultValue options = .ok target)
    (separating : spec.Separating) (off : options.eccInjectPeriod ≤ 0) (sized : spec.IntSized)
    (wide : options.capacityBytes ≤ uint64Max) (inside : ∀ op ∈ ops ++ later, op.InGeometry spec)
    (returns : image.run ops = .ok (outputs, final))
    (flushes : final.flushDirtyRowBuffers cycle = .ok flushed) :
    ∃ lines loaded, flushed.dumpText = .ok lines ∧ target.loadText lines = .ok loaded ∧
      ∀ answers after, loaded.run later = .ok (answers, after) →
        outputs ++ answers = (FlatStore.run defaultValue Patch.empty (ops ++ later)).1 := by
  obtain ⟨insideFirst, insideLater⟩ := List.forall_mem_append.mp inside
  obtain ⟨answered, settles⟩ := run_settles created separating off insideFirst returns flushes
  obtain ⟨default, period⟩ := create_given created
  obtain ⟨rows, empty⟩ := create_vacant created'
  obtain ⟨positive, placed'⟩ := create_placed created'
  have placed := settles.reachable.placed.2
  have config := create_config created created'
  have options : target.options = flushed.options :=
    congrArg ImageConfig.options (config.trans settles.config.symm)
  have capacity : target.capacityBytes = flushed.capacityBytes := by
    refine placed'.configured.trans (Eq.trans ?_ placed.configured.symm)
    rw [options]
  obtain ⟨lines, loaded, dumps, loads, restores⟩ := loadText_restores positive sized placed placed'
    capacity (capacity ▸ create_capacity_le created' wide)
  refine ⟨lines, loaded, dumps, loads, fun answers after runs => ?_⟩
  rw [flatStore_run_append, answered, settles.answers (period ▸ off)
    ⟨config, placed'.lineSize, rows, empty⟩ restores insideLater runs, default]

/-- A write to an open row, which only the flush stores, is read after the text was loaded. -/
theorem run_resumes_from_text_small : ∃ image outputs final flushed lines loaded,
    MemoryImage.create smallSpec 0 { eccShadowEnabled := false } = .ok image ∧
      image.run openRowWrite = .ok (outputs, final) ∧
      final.flushDirtyRowBuffers 3 = .ok flushed ∧ flushed.dumpText = .ok lines ∧
      image.loadText lines = .ok loaded ∧ ∀ answers after,
        loaded.run [.read 0 8] = .ok (answers, (after : MemoryImage SparseMemoryBackend)) →
          outputs ++ answers =
            (FlatStore.run 0 Patch.empty (openRowWrite ++ [.read 0 8])).1 := by
  have created : MemoryImage.create smallSpec 0 { eccShadowEnabled := false } =
      .ok (smallImage { eccShadowEnabled := false, capacityBytes := 16 }) := rfl
  have returns : ∃ result flushed,
      (smallImage { eccShadowEnabled := false, capacityBytes := 16 }).run openRowWrite =
        .ok result ∧ result.2.flushDirtyRowBuffers 3 = .ok flushed := ⟨_, _, rfl, rfl⟩
  obtain ⟨⟨outputs, final⟩, flushed, returns, flushes⟩ := returns
  obtain ⟨lines, loaded, dumps, loads, answered⟩ := run_resumes_from_text created created
    (fun family => absurd family Bool.false_ne_true) (le_refl 0) smallSpec_intSized (by decide)
    openRowWrite_inGeometry returns flushes
  exact ⟨_, outputs, final, flushed, lines, loaded, created, returns, flushes, dumps, loads,
    answered⟩

/-- The same by way of a binary file, which an image that is reached takes over in place of what it
has. -/
theorem run_resumes_from_binary
    (created : MemoryImage.create spec defaultValue options = .ok image)
    (reachable : target.Reachable spec) (config : target.config = image.config)
    (separating : spec.Separating) (off : options.eccInjectPeriod ≤ 0) (sized : spec.IntSized)
    (wide : options.capacityBytes ≤ uint64Max) (inside : ∀ op ∈ ops ++ later, op.InGeometry spec)
    (returns : image.run ops = .ok (outputs, final))
    (flushes : final.flushDirtyRowBuffers cycle = .ok flushed)
    (few : CheckpointBackend.allocatedLines flushed.backend < 2 ^ 32) (path : String) :
    ∃ bytes loaded, flushed.dumpBinary = .ok bytes ∧
      target.loadBinary path (some bytes) = (.ok (), loaded) ∧
      ∀ answers after, loaded.run later = .ok (answers, after) →
        outputs ++ answers = (FlatStore.run defaultValue Patch.empty (ops ++ later)).1 := by
  obtain ⟨insideFirst, insideLater⟩ := List.forall_mem_append.mp inside
  obtain ⟨answered, settles⟩ := run_settles created separating off insideFirst returns flushes
  obtain ⟨default, period⟩ := create_given created
  obtain ⟨positive, placed'⟩ := reachable.placed
  have placed := settles.reachable.placed.2
  have options : target.options = flushed.options :=
    congrArg ImageConfig.options (config.trans settles.config.symm)
  have capacity : target.capacityBytes = flushed.capacityBytes := by
    refine placed'.configured.trans (Eq.trans ?_ placed.configured.symm)
    rw [options]
  have same : flushed.capacityBytes = image.capacityBytes := by
    refine placed.configured.trans (Eq.trans ?_ (create_placed created).2.configured.symm)
    rw [show flushed.options = image.options from congrArg ImageConfig.options settles.config]
  obtain ⟨bytes, loaded, dumps, loads, restores⟩ := loadBinary_restores positive sized placed
    placed' capacity (same ▸ create_capacity_le created wide) few path
  have vacant : Vacant image target.cleared := ⟨config, (cleared_placed placed').lineSize, rfl,
    (LawfulCheckpointBackend.clear_ok target.backend).2.2⟩
  refine ⟨bytes, loaded, dumps, loads, fun answers after runs => ?_⟩
  rw [flatStore_run_append, answered, settles.answers (period ▸ off) vacant restores insideLater
    runs, default]

/-- The same write is read after the binary file was loaded. -/
theorem run_resumes_from_binary_small : ∃ image outputs final flushed bytes loaded,
    MemoryImage.create smallSpec 0 { eccShadowEnabled := false } = .ok image ∧
      image.run openRowWrite = .ok (outputs, final) ∧
      final.flushDirtyRowBuffers 3 = .ok flushed ∧ flushed.dumpBinary = .ok bytes ∧
      image.loadBinary "small.bin" (some bytes) = (.ok (), loaded) ∧ ∀ answers after,
        loaded.run [.read 0 8] = .ok (answers, (after : MemoryImage SparseMemoryBackend)) →
          outputs ++ answers =
            (FlatStore.run 0 Patch.empty (openRowWrite ++ [.read 0 8])).1 := by
  have created : MemoryImage.create smallSpec 0 { eccShadowEnabled := false } =
      .ok (smallImage { eccShadowEnabled := false, capacityBytes := 16 }) := rfl
  have returns : ∃ result flushed,
      (smallImage { eccShadowEnabled := false, capacityBytes := 16 }).run openRowWrite =
        .ok result ∧ result.2.flushDirtyRowBuffers 3 = .ok flushed ∧
        CheckpointBackend.allocatedLines flushed.backend = 2 := ⟨_, _, rfl, rfl, rfl⟩
  obtain ⟨⟨outputs, final⟩, flushed, returns, flushes, few⟩ := returns
  obtain ⟨bytes, loaded, dumps, loads, answered⟩ := run_resumes_from_binary created
    (.created created) rfl (fun family => absurd family Bool.false_ne_true) (le_refl 0)
    smallSpec_intSized (by decide) openRowWrite_inGeometry returns flushes
    (few.trans_lt (by decide)) "small.bin"
  exact ⟨_, outputs, final, flushed, bytes, loaded, created, returns, flushes, dumps, loads,
    answered⟩

end Sessions

end HbmSim
