/-
The three line stores are interchangeable. Each simulates the table of lines: the
sparse one because its map is the table, the mapped one because a slot of its files
is a line of the table and its maps and counters are those of the table, and the
chunked one because a line is read through the cache, where an evicted or flushed
chunk leaves what it held in the files.
-/

import HbmSim.ChunkBackend

namespace HbmSim

variable {slots : Nat → Option BackendLine}

/-! ### The sparse store -/

/-- The sparse store in use. It has no files, so there is nothing to reopen. -/
def sparseStore : LineStore SparseMemoryBackend where
  step op backend :=
    match op with
    | .store base line => do
      let (inserted, after) ← backend.store base line
      return (.stored inserted, after)
    | .load base => do
      let found ← backend.load base
      return (.loaded found, backend)
    | .clear => return (.done, backend.clear)
    | .flush | .reopen => return (.done, backend.flush)
  allocatedLines := SparseMemoryBackend.allocatedLines
  uniqueWrittenLines := SparseMemoryBackend.uniqueWrittenLines
  allAddresses := SparseMemoryBackend.allAddresses

/-- The map of the sparse store is the table. -/
structure SparseMemoryBackend.Holds (backend : SparseMemoryBackend) (lineSize capacityBytes : Nat)
    (slots : Nat → Option BackendLine) : Prop where
  size : backend.lineSize = lineSize
  capacity : backend.capacityBytes = capacityBytes
  lookup (base : Nat) : base % lineSize = 0 ∧ base + lineSize ≤ capacityBytes →
    backend.lines.lookup base = slots (base / lineSize)
  keys (base : Nat) : base ∈ backend.lines → base % lineSize = 0 ∧ base + lineSize ≤ capacityBytes
  unique : backend.uniqueWrittenLines =
    Slots.count (capacityBytes / lineSize) hasVersion slots

namespace SparseMemoryBackend

variable {backend : SparseMemoryBackend} {lineSize capacityBytes : Nat}

/-- The counter goes up when a line gets its first version and down when it loses it. -/
theorem counter_step {was written : Bool} {count total : Nat}
    (counted : total + was.toNat = count + written.toNat) :
    (if !was && written then count + 1 else if was && !written then count - 1 else count) =
      total := by
  cases was <;> cases written
  · exact counted.symm
  · exact counted.symm
  · exact Nat.sub_eq_of_eq_add counted.symm
  · exact Nat.add_right_cancel counted.symm

/-- The keys of the map are the addresses of the used slots. -/
theorem Holds.perm (holds : backend.Holds lineSize capacityBytes slots) (positive : 0 < lineSize) :
    backend.lines.keys.Perm
      ((Slots.used (capacityBytes / lineSize) slots).map (· * lineSize)) := by
  have distinct : ((Slots.used (capacityBytes / lineSize) slots).map (· * lineSize)).Nodup :=
    (List.nodup_range.filter _).map fun first second same =>
      Nat.eq_of_mul_eq_mul_right positive same
  refine (List.perm_ext_iff_of_nodup backend.lines.keys_nodup distinct).mpr fun base => ?_
  rw [← AList.mem_keys, List.mem_map]
  constructor
  · intro stored
    have inside := holds.keys base stored
    obtain ⟨below, whole⟩ := slot_of_base inside.1 inside.2 positive
    refine ⟨base / lineSize, Slots.mem_used.mpr ⟨below, ?_⟩, whole⟩
    rw [← holds.lookup base inside]
    exact AList.lookup_isSome.mpr stored
  · rintro ⟨slot, member, rfl⟩
    obtain ⟨below, present⟩ := Slots.mem_used.mp member
    have inside : slot * lineSize % lineSize = 0 ∧ slot * lineSize + lineSize ≤ capacityBytes := by
      refine ⟨Nat.mul_mod_left .., ?_⟩
      rw [← Nat.succ_mul]
      exact (Nat.le_div_iff_mul_le positive).mp below
    refine AList.lookup_isSome.mp ?_
    rw [holds.lookup _ inside, Nat.mul_div_cancel _ positive]
    exact present

theorem Holds.allocated (holds : backend.Holds lineSize capacityBytes slots)
    (positive : 0 < lineSize) :
    backend.allocatedLines = Slots.count (capacityBytes / lineSize) Option.isSome slots := by
  have length := (holds.perm positive).length_eq
  rw [List.length_map, Slots.length_used] at length
  rw [← length]
  exact (List.length_map ..).symm

theorem Holds.addresses (holds : backend.Holds lineSize capacityBytes slots)
    (positive : 0 < lineSize) :
    backend.allAddresses =
      (Slots.used (capacityBytes / lineSize) slots).map (· * lineSize) := by
  have sorted : ((Slots.used (capacityBytes / lineSize) slots).map (· * lineSize)).Pairwise
      (· ≤ ·) := by
    refine List.pairwise_map.mpr ((List.pairwise_lt_range.filter _).imp fun earlier => ?_)
    exact Nat.mul_le_mul_right _ (Nat.le_of_lt earlier)
  have merged : backend.allAddresses.Pairwise (· ≤ ·) := by
    refine (List.pairwise_mergeSort ?_ ?_ backend.lines.keys).imp of_decide_eq_true
    · intro first second third lower upper
      exact decide_eq_true ((of_decide_eq_true lower).trans (of_decide_eq_true upper))
    · intro first second
      rcases Nat.le_total first second with lower | upper
      · rw [decide_eq_true lower, Bool.true_or]
      · rw [decide_eq_true upper, Bool.or_true]
  exact ((List.mergeSort_perm ..).trans (holds.perm positive)).eq_of_pairwise
    (fun _ _ _ _ => Nat.le_antisymm) merged sorted

theorem Holds.store (holds : backend.Holds lineSize capacityBytes slots) (positive : 0 < lineSize)
    {base : Nat} {line : BackendLine}
    (inside : base % lineSize = 0 ∧ base + lineSize ≤ capacityBytes)
    (valid : validateLine base line lineSize capacityBytes = .ok ()) :
    ∃ after, backend.store base line = .ok ((slots (base / lineSize)).isNone, after) ∧
      after.Holds lineSize capacityBytes (Slots.put slots (base / lineSize) line) := by
  obtain ⟨below, whole⟩ := slot_of_base inside.1 inside.2 positive
  have counted := Slots.count_put hasVersion slots line below
  have was := holds.lookup base inside
  unfold SparseMemoryBackend.store
  rw [holds.size, holds.capacity, valid, ← was]
  refine ⟨_, rfl, rfl, rfl, fun other within => ?_, fun other member => ?_, ?_⟩
  · by_cases same : other = base
    · rw [same, Slots.put_self]
      exact AList.lookup_insert backend.lines
    · have differs : other / lineSize ≠ base / lineSize := fun equal => same (by
        rw [← whole, ← (slot_of_base within.1 within.2 positive).2, equal])
      rw [Slots.put_ne _ differs, ← holds.lookup other within]
      exact AList.lookup_insert_ne same
  · rcases (AList.mem_insert backend.lines).mp member with same | earlier
    · rw [same]
      exact inside
    · exact holds.keys other earlier
  · have version : hasVersion (some line) = decide (0 < line.version) := rfl
    have written : ((backend.lines.lookup base).any fun line => decide (0 < line.version)) =
        hasVersion (slots (base / lineSize)) := by rw [was]; rfl
    rw [version] at counted
    dsimp only
    rw [written, holds.unique]
    exact counter_step counted

theorem Holds.clear (holds : backend.Holds lineSize capacityBytes slots) :
    backend.clear.Holds lineSize capacityBytes fun _ => none :=
  ⟨holds.size, holds.capacity, fun _ _ => rfl,
    fun base member => absurd member (AList.notMem_empty base), (Slots.count_empty rfl).symm⟩

end SparseMemoryBackend

open LineStore in
theorem sparse_simulates {lineSize capacityBytes : Nat} (positive : 0 < lineSize) :
    Simulates (BackendOp.Inside lineSize capacityBytes)
      (fun backend slots => SparseMemoryBackend.Holds backend lineSize capacityBytes slots)
      sparseStore (lineTable lineSize capacityBytes) where
  allocatedLines _ _ holds := holds.allocated positive
  uniqueWrittenLines _ _ holds := holds.unique
  allAddresses _ _ holds := holds.addresses positive
  outcome op backend slots inside holds := by
    cases op with
    | store base line =>
      refine SameOutcome.stored (fun thrown invalid => ?_) fun valid =>
        holds.store positive ⟨inside.1, inside.2.1⟩ valid
      unfold SparseMemoryBackend.store
      rw [holds.size, holds.capacity, invalid]
      rfl
    | load base =>
      unfold sparseStore lineTable SparseMemoryBackend.load
      dsimp only
      rw [holds.lookup base inside]
      exact SameOutcome.answered _ holds
    | clear => exact SameOutcome.answered _ holds.clear
    | flush => exact SameOutcome.answered _ holds
    | reopen => exact SameOutcome.answered _ holds

/-! ### Stores in files -/

/-- The maps and the counters are those of the table, and the store finds the lines of the table
at their slots. -/
structure FileStore.Holds (store : FileStore) (lineAt : Nat → BackendLine) (lineSize : Nat)
    (options : MemoryBackendOptions) (slots : Nat → Option BackendLine) : Prop where
  marks : store.Marks slots
  size : store.lineSize = lineSize
  capacity : store.capacityBytes = options.capacityBytes
  line (slot : Nat) (line : BackendLine) : slot < store.lineCount → slots slot = some line →
    lineAt slot = line

namespace FileStore

variable {store : FileStore} {lineAt : Nat → BackendLine} {lineSize : Nat}
variable {options : MemoryBackendOptions}

theorem Holds.count (holds : store.Holds lineAt lineSize options slots) :
    store.lineCount = options.capacityBytes / lineSize := by
  unfold lineCount
  rw [holds.capacity, holds.size]

theorem Holds.allocated (holds : store.Holds lineAt lineSize options slots) :
    store.allocatedLines =
      Slots.count (options.capacityBytes / lineSize) Option.isSome slots := by
  rw [holds.marks.allocated, holds.count]

theorem Holds.unique (holds : store.Holds lineAt lineSize options slots) :
    store.uniqueWrittenLines =
      Slots.count (options.capacityBytes / lineSize) hasVersion slots := by
  rw [holds.marks.unique, holds.count]

theorem Holds.addresses (holds : store.Holds lineAt lineSize options slots) :
    store.allAddresses =
      (Slots.used (options.capacityBytes / lineSize) slots).map (· * lineSize) := by
  rw [holds.marks.allAddresses, holds.count, holds.size]

theorem Holds.checkedIndex (holds : store.Holds lineAt lineSize options slots) (kind : String)
    {base : Nat} (inside : base % lineSize = 0 ∧ base + lineSize ≤ options.capacityBytes) :
    store.checkedIndex kind base = .ok (base / lineSize) ∧
      base / lineSize < store.lineCount := by
  rw [← holds.size, ← holds.capacity] at inside
  have below := (slot_of_base inside.1 inside.2 holds.marks.positive).1
  rw [← holds.size]
  exact ⟨holds.marks.checkedIndex kind inside, below⟩

/-- What the store finds at a slot of the table, if it is marked present. -/
theorem Holds.found (holds : store.Holds lineAt lineSize options slots) {slot : Nat}
    (inside : slot < store.lineCount) :
    (if store.isPresent slot then some (lineAt slot) else none) = slots slot := by
  rw [holds.marks.present slot inside]
  cases stored : slots slot with
  | none => rfl
  | some line => exact congrArg some (holds.line slot line inside stored)

/-- A line is put where the store finds it, and the rest is found as before. -/
theorem Holds.put (holds : store.Holds lineAt lineSize options slots) {slot : Nat}
    {line : BackendLine} {after : FileStore} {lineAfter : Nat → BackendLine}
    (marks : after.Marks (Slots.put slots slot line)) (size : after.lineSize = store.lineSize)
    (capacity : after.capacityBytes = store.capacityBytes) (here : lineAfter slot = line)
    (others : ∀ other < store.lineCount, other ≠ slot → lineAfter other = lineAt other) :
    after.Holds lineAfter lineSize options (Slots.put slots slot line) where
  marks := marks
  size := size.trans holds.size
  capacity := capacity.trans holds.capacity
  line other found inside stored := by
    have below : other < store.lineCount := by
      unfold lineCount at inside
      rwa [size, capacity] at inside
    by_cases same : other = slot
    · rw [same, Slots.put_self] at stored
      rw [same, here]
      exact Option.some.inj stored
    · rw [Slots.put_ne _ same] at stored
      rw [others other below same]
      exact holds.line other found below stored

theorem checkFileBacked_ok (positive : 0 < lineSize) (openable : Openable lineSize options) :
    checkFileBacked lineSize options = .ok () :=
  bind_eq_ok.mpr ⟨(), throwIf_eq_ok.mpr positive.ne', bind_eq_ok.mpr ⟨(), throwIf_eq_ok.mpr
    fun bad => bad.elim openable.nonempty fun uneven => uneven openable.whole,
    throwIf_eq_ok.mpr openable.path⟩⟩

theorem Holds.cleared (holds : store.Holds lineAt lineSize options slots)
    (lineAfter : Nat → BackendLine) :
    store.clear.Holds lineAfter lineSize options fun _ => none :=
  ⟨holds.marks.clear, holds.size, holds.capacity, fun _ _ _ stored => nomatch stored⟩

end FileStore

/-! ### The mapped store -/

/-- The mapped store in use. -/
def mmapSparseStore (options : MemoryBackendOptions) : LineStore MmapSparseMemoryBackend where
  step op backend :=
    match op with
    | .store base line => do
      let (inserted, after) ← MmapSparseMemoryBackend.store backend base line
      return (.stored inserted, after)
    | .load base => do
      let found ← MmapSparseMemoryBackend.load backend base
      return (.loaded found, backend)
    | .clear => return (.done, FileStore.clear backend)
    | .flush => return (.done, FileStore.flush backend)
    | .reopen => do
      let opened ← MmapSparseMemoryBackend.make backend.lineSize options backend.flush.files
      return (.done, opened)
  allocatedLines := FileStore.allocatedLines
  uniqueWrittenLines := FileStore.uniqueWrittenLines
  allAddresses := FileStore.allAddresses

namespace MmapSparseMemoryBackend

def Holds (backend : MmapSparseMemoryBackend) (lineSize : Nat) (options : MemoryBackendOptions)
    (slots : Nat → Option BackendLine) : Prop :=
  FileStore.Holds backend (backend.files.bank.line lineSize) lineSize options slots

variable {backend : MmapSparseMemoryBackend} {lineSize base : Nat} {options : MemoryBackendOptions}
variable {line : BackendLine}

theorem Holds.stored (holds : Holds backend lineSize options slots)
    (inside : BackendOp.Inside lineSize options.capacityBytes (.store base line))
    (valid : validateLine base line lineSize options.capacityBytes = .ok ()) :
    ∃ after, MmapSparseMemoryBackend.store backend base line =
        .ok ((slots (base / lineSize)).isNone, after) ∧
      Holds after lineSize options (Slots.put slots (base / lineSize) line) := by
  obtain ⟨index, below⟩ := FileStore.Holds.checkedIndex holds "mmap_sparse" ⟨inside.1, inside.2.1⟩
  have size : backend.lineSize = lineSize := holds.size
  have fits := validateLine_fits valid inside.2.2
  have marks : FileStore.Marks backend slots := holds.marks
  have sized := marks.sized.put (base / lineSize) line
  have same := FileStore.mark_same { backend with files := { backend.files with
    bank := backend.files.bank.put backend.lineSize (base / lineSize) line } } (base / lineSize)
    line.version
  have absent : (!backend.isPresent (base / lineSize)) = (slots (base / lineSize)).isNone := by
    rw [marks.present _ below, Option.not_isSome]
  refine ⟨_, ?_, FileStore.Holds.put holds ((marks.withBank sized).mark line below) same.lineSize
    same.capacityBytes ?_ ?_⟩
  · unfold MmapSparseMemoryBackend.store
    rw [holds.size, holds.capacity, valid]
    refine bind_eq_ok.mpr ⟨(), rfl, bind_eq_ok.mpr ⟨_, index, ?_⟩⟩
    rw [absent]
    rfl
  · rw [same.bank, size]
    exact LineBank.line_put_self fits
  · intro other _ differs
    rw [same.bank, size]
    exact LineBank.line_put_ne fits.bytes fits.mask differs

end MmapSparseMemoryBackend

open LineStore MmapSparseMemoryBackend in
theorem mmapSparse_simulates {lineSize : Nat} {options : MemoryBackendOptions}
    (openable : FileStore.Openable lineSize options) :
    Simulates (BackendOp.Inside lineSize options.capacityBytes)
      (fun backend slots => MmapSparseMemoryBackend.Holds backend lineSize options slots)
      (mmapSparseStore options) (lineTable lineSize options.capacityBytes) where
  allocatedLines _ _ holds := FileStore.Holds.allocated holds
  uniqueWrittenLines _ _ holds := FileStore.Holds.unique holds
  allAddresses _ _ holds := FileStore.Holds.addresses holds
  outcome op backend slots inside holds := by
    have size : backend.lineSize = lineSize := holds.size
    have capacity : backend.capacityBytes = options.capacityBytes := holds.capacity
    have marks : FileStore.Marks backend slots := holds.marks
    have flushed : Holds backend.flush lineSize options slots :=
      ⟨marks.flush, size, capacity, holds.line⟩
    cases op with
    | store base line =>
      refine SameOutcome.stored (fun thrown invalid => ?_) (holds.stored inside)
      unfold MmapSparseMemoryBackend.store
      rw [size, capacity, invalid]
      rfl
    | load base =>
      obtain ⟨index, below⟩ := FileStore.Holds.checkedIndex holds "mmap_sparse" inside
      have found := FileStore.Holds.found holds below
      unfold mmapSparseStore lineTable MmapSparseMemoryBackend.load
      dsimp only
      rw [index, ← found, size]
      exact SameOutcome.answered _ holds
    | clear => exact SameOutcome.answered _ (FileStore.Holds.cleared holds _)
    | flush => exact SameOutcome.answered _ flushed
    | reopen =>
      have opened : MmapSparseMemoryBackend.make backend.lineSize options backend.flush.files =
          .ok backend.flush := by
        rw [← size] at openable
        exact bind_eq_ok.mpr ⟨(), FileStore.checkFileBacked_ok marks.positive openable,
          FileStore.open_flushed marks openable capacity⟩
      unfold mmapSparseStore lineTable
      dsimp only
      rw [opened]
      exact SameOutcome.answered _ flushed

/-! ### The chunked store -/

/-- The chunked store in use. When it goes away it is flushed once more. -/
def chunkFileStore (options : MemoryBackendOptions) : LineStore ChunkFileMemoryBackend where
  step op backend :=
    match op with
    | .store base line => do
      let (inserted, after) ← backend.store base line
      return (.stored inserted, after)
    | .load base => do
      let (found, after) ← backend.load base
      return (.loaded found, after)
    | .clear => return (.done, backend.clear)
    | .flush => return (.done, backend.flush)
    | .reopen => do
      let opened ← ChunkFileMemoryBackend.make backend.lineSize options backend.flush.flush.files
      return (.done, opened)
  allocatedLines backend := backend.allocatedLines
  uniqueWrittenLines backend := backend.uniqueWrittenLines
  allAddresses backend := backend.allAddresses

/-- What `make` asks of the chunk size. -/
structure MemoryBackendOptions.Chunked (options : MemoryBackendOptions) (lineSize : Nat) :
    Prop where
  room : lineSize ≤ options.chunkSizeBytes
  whole : options.chunkSizeBytes % lineSize = 0
  bytes : options.chunkSizeBytes % 8 = 0

namespace ChunkFileMemoryBackend

structure Holds (backend : ChunkFileMemoryBackend) (lineSize : Nat)
    (options : MemoryBackendOptions) (slots : Nat → Option BackendLine) : Prop where
  store : backend.toFileStore.Holds backend.lineAt lineSize options slots
  cached : backend.Cached
  chunkSize : backend.chunkSize = options.chunkSizeBytes

variable {backend : ChunkFileMemoryBackend} {lineSize base : Nat} {options : MemoryBackendOptions}
variable {line : BackendLine}

theorem Holds.cleared (holds : backend.Holds lineSize options slots) :
    backend.clear.Holds lineSize options fun _ => none where
  store := holds.store.cleared _
  cached := {
    positive := holds.cached.positive
    aligned := holds.cached.aligned
    sized := holds.store.marks.clear.sized
    placed := fun _ _ there => nomatch there
    clean := fun _ _ _ there => nomatch there }
  chunkSize := holds.chunkSize

theorem Holds.flushed (holds : backend.Holds lineSize options slots) :
    backend.flush.Holds lineSize options slots := by
  obtain ⟨cached, lines⟩ := holds.cached.flush
  refine ⟨⟨(holds.store.marks.withBank cached.sized).flush, holds.store.size, holds.store.capacity,
    fun slot line inside stored => ?_⟩, cached, holds.chunkSize⟩
  exact (lines slot inside).1.trans (holds.store.line slot line inside stored)

/-- An empty cache finds the lines where the files have them. -/
theorem holds_of_files {opened : FileStore} {chunkSize cacheLimit : Nat}
    (holds : opened.Holds (opened.files.bank.line opened.lineSize) lineSize options slots)
    (chunked : options.Chunked lineSize) (size : chunkSize = options.chunkSizeBytes) :
    Holds { opened with chunkSize, cacheLimit } lineSize options slots := by
  have positive := holds.marks.positive
  have whole : chunkSize / opened.lineSize * opened.lineSize = chunkSize := by
    rw [holds.size, size]
    exact Nat.div_mul_cancel (Nat.dvd_of_mod_eq_zero chunked.whole)
  have room : opened.lineSize ≤ chunkSize := by
    rw [holds.size, size]
    exact chunked.room
  refine ⟨⟨holds.marks, holds.size, holds.capacity, holds.line⟩, ⟨Nat.div_pos room positive, ?_,
    holds.marks.sized, (fun _ _ there => nomatch there), (fun _ _ _ there => nomatch there)⟩, size⟩
  show 8 ∣ chunkSize / opened.lineSize * opened.lineSize
  rw [whole, size]
  exact Nat.dvd_of_mod_eq_zero chunked.bytes

/-- What is reopened after a flush holds the same lines. -/
theorem Holds.reopened (holds : backend.Holds lineSize options slots)
    (openable : FileStore.Openable lineSize options) (chunked : options.Chunked lineSize) :
    ∃ opened, ChunkFileMemoryBackend.make backend.lineSize options backend.flush.flush.files =
      .ok opened ∧ opened.Holds lineSize options slots := by
  obtain ⟨cached, lines⟩ := holds.flushed.cached.flush
  have marks := holds.flushed.store.marks.withBank cached.sized
  have size : backend.lineSize = lineSize := holds.store.size
  have capacity : backend.capacityBytes = options.capacityBytes := holds.store.capacity
  rw [size]
  have opened : FileStore.open "chunk_file" lineSize options backend.flush.flush.files =
      .ok backend.flush.flush.toFileStore := by
    rw [← size] at openable ⊢
    exact FileStore.open_flushed marks openable capacity
  refine ⟨{ backend.flush.flush.toFileStore with
    chunkSize := options.chunkSizeBytes
    cacheLimit := max 1 options.chunkCacheEntries }, ?_, holds_of_files ⟨marks.flush, size,
      capacity, fun slot line inside stored => ?_⟩ chunked rfl⟩
  · refine bind_eq_ok.mpr ⟨(), FileStore.checkFileBacked_ok (size ▸ marks.positive) openable, ?_⟩
    refine bind_eq_ok.mpr ⟨(), throwIf_eq_ok.mpr ?_, bind_eq_ok.mpr ⟨_, opened,
      bind_eq_ok.mpr ⟨(), throwIf_eq_ok.mpr ?_, rfl⟩⟩⟩
    · rintro (small | uneven | odd)
      · exact absurd small (not_lt.mpr chunked.room)
      · exact uneven chunked.whole
      · exact odd chunked.bytes
    · rintro (uneven | odd)
      · exact uneven chunked.whole
      · exact odd chunked.bytes
  · exact (lines slot inside).2.trans (holds.flushed.store.line slot line inside stored)

theorem chunk_starts (backend : ChunkFileMemoryBackend) {slot : Nat}
    (inside : slot < backend.lineCount) :
    slot / backend.linesPerChunk * backend.linesPerChunk < backend.lineCount :=
  Nat.lt_of_le_of_lt (Nat.div_mul_le_self ..) inside

theorem Holds.loaded (holds : backend.Holds lineSize options slots)
    (inside : base % lineSize = 0 ∧ base + lineSize ≤ options.capacityBytes) :
    ∃ after, backend.load base = .ok (slots (base / lineSize), after) ∧
      after.Holds lineSize options slots := by
  obtain ⟨index, below⟩ := holds.store.checkedIndex "chunk_file" inside
  have found := holds.store.found below
  unfold ChunkFileMemoryBackend.load
  rw [index]
  dsimp only [bind, Except.bind]
  split
  next present =>
    obtain ⟨chunk, bank, cache, useClock, ensured, cached, there, lines⟩ :=
      holds.cached.ensureChunk (backend.chunk_starts below)
    rw [if_pos present, ← lines _ below, lineAt_cached there, holds.store.size] at found
    rw [ensured]
    refine ⟨backend.recache bank cache useClock, ?_, ⟨holds.store.marks.withBank cached.sized,
      holds.store.size, holds.store.capacity, fun slot line inside stored => ?_⟩, cached,
      holds.chunkSize⟩
    · rw [← found, ← holds.store.size]
      rfl
    · exact (lines slot inside).trans (holds.store.line slot line inside stored)
  next absent =>
    rw [if_neg absent] at found
    rw [← found]
    exact ⟨backend, rfl, holds⟩

theorem Cached.withStore (cached : backend.Cached) {store : FileStore}
    (same : FileStore.SameFiles backend.toFileStore store) :
    Cached { backend with toFileStore := store } ∧
      ∀ slot, lineAt { backend with toFileStore := store } slot = backend.lineAt slot := by
  obtain ⟨lineSize, capacityBytes, ⟨bank, header, presence⟩, allocatedLines, uniqueWrittenLines⟩ :=
    store
  obtain ⟨rfl, rfl, rfl, -, -⟩ := same
  exact ⟨⟨cached.positive, cached.aligned, cached.sized, cached.placed, cached.clean⟩,
    fun _ => rfl⟩

theorem Holds.stored (holds : backend.Holds lineSize options slots)
    (inside : BackendOp.Inside lineSize options.capacityBytes (.store base line))
    (valid : validateLine base line lineSize options.capacityBytes = .ok ()) :
    ∃ after, backend.store base line = .ok ((slots (base / lineSize)).isNone, after) ∧
      after.Holds lineSize options (Slots.put slots (base / lineSize) line) := by
  obtain ⟨index, below⟩ := holds.store.checkedIndex "chunk_file" ⟨inside.1, inside.2.1⟩
  have fits := validateLine_fits valid inside.2.2
  have size : backend.lineSize = lineSize := holds.store.size
  have absent : (!backend.isPresent (base / lineSize)) = (slots (base / lineSize)).isNone := by
    rw [holds.store.marks.present _ below, Option.not_isSome]
  obtain ⟨chunk, bank, cache, useClock, ensured, cached, there, lines⟩ :=
    holds.cached.ensureChunk (backend.chunk_starts below)
  have placed : Placed backend.lineSize backend.linesPerChunk backend.lineCount
      (base / lineSize / backend.linesPerChunk) { chunk with
        bank := chunk.bank.put backend.lineSize (base / lineSize % backend.linesPerChunk) line
        dirty := true } :=
    ⟨backend.chunk_starts below, (cached.placed _ chunk there).2.put _ line⟩
  obtain ⟨inserted, read⟩ := cached.insert placed (fun clean => nomatch clean) useClock
  obtain ⟨marked, same⟩ := inserted.withStore
    (FileStore.mark_same _ (base / lineSize) line.version)
  have marks := (holds.store.marks.withBank cached.sized).mark line below
  refine ⟨_, ?_, holds.store.put marks (FileStore.mark_same _ _ _).lineSize
    (FileStore.mark_same _ _ _).capacityBytes ?_ ?_, marked, holds.chunkSize⟩
  · have accepted : validateLine base line backend.lineSize backend.capacityBytes = .ok () := by
      rw [holds.store.size, holds.store.capacity]
      exact valid
    refine bind_eq_ok.mpr ⟨(), accepted, bind_eq_ok.mpr ⟨_, index, ?_⟩⟩
    dsimp only
    rw [absent, ensured]
    rfl
  · exact (same _).trans ((read _).trans ((if_pos rfl).trans (LineBank.line_put_self (size ▸ fits))))
  · intro other inside differs
    refine (same _).trans ((read _).trans (Eq.trans ?_ (lines other inside)))
    split
    next together =>
      have apart : other % backend.linesPerChunk ≠ base / lineSize % backend.linesPerChunk := by
        intro place
        refine differs ?_
        rw [← Nat.div_add_mod' other backend.linesPerChunk,
          ← Nat.div_add_mod' (base / lineSize) backend.linesPerChunk, place,
          show other / backend.linesPerChunk = _ from together]
      refine (LineBank.line_put_ne (fits.bytes.trans size.symm) (fits.mask.trans size.symm)
        apart).trans (lineAt_cached ?_).symm
      rwa [show other / backend.linesPerChunk = _ from together]
    · rfl

end ChunkFileMemoryBackend

open LineStore ChunkFileMemoryBackend in
theorem chunkFile_simulates {lineSize : Nat} {options : MemoryBackendOptions}
    (openable : FileStore.Openable lineSize options) (chunked : options.Chunked lineSize) :
    Simulates (BackendOp.Inside lineSize options.capacityBytes)
      (fun backend slots => ChunkFileMemoryBackend.Holds backend lineSize options slots)
      (chunkFileStore options) (lineTable lineSize options.capacityBytes) where
  allocatedLines _ _ holds := holds.store.allocated
  uniqueWrittenLines _ _ holds := holds.store.unique
  allAddresses _ _ holds := holds.store.addresses
  outcome op backend slots inside holds := by
    cases op with
    | store base line =>
      refine SameOutcome.stored (fun thrown invalid => ?_) (holds.stored inside)
      unfold ChunkFileMemoryBackend.store
      rw [holds.store.size, holds.store.capacity, invalid]
      rfl
    | load base =>
      obtain ⟨after, loaded, stays⟩ := holds.loaded inside
      unfold chunkFileStore lineTable
      dsimp only
      rw [loaded]
      exact SameOutcome.answered _ stays
    | clear => exact SameOutcome.answered _ holds.cleared
    | flush => exact SameOutcome.answered _ holds.flushed
    | reopen =>
      obtain ⟨opened, made, stays⟩ := holds.reopened openable chunked
      unfold chunkFileStore lineTable
      dsimp only
      rw [made]
      exact SameOutcome.answered _ stays

/-! ### New stores -/

theorem sparse_new {lineSize capacityBytes : Nat} {backend : SparseMemoryBackend}
    (made : MemoryBackend.make lineSize capacityBytes = .ok backend) :
    0 < lineSize ∧ backend.Holds lineSize capacityBytes fun _ => none := by
  obtain ⟨_, positive, returned⟩ := bind_eq_ok.mp made
  rw [throwIf_eq_ok] at positive
  cases returned
  exact ⟨Nat.pos_of_ne_zero positive, rfl, rfl, fun _ _ => rfl,
    fun base member => absurd member (AList.notMem_empty base), (Slots.count_empty rfl).symm⟩

theorem checkFileBacked_positive {lineSize : Nat} {options : MemoryBackendOptions}
    (checked : checkFileBacked lineSize options = .ok ()) : 0 < lineSize := by
  obtain ⟨_, positive, -⟩ := bind_eq_ok.mp checked
  rw [throwIf_eq_ok] at positive
  exact Nat.pos_of_ne_zero positive

theorem mmapSparse_new {lineSize : Nat} {options : MemoryBackendOptions}
    {backend : MmapSparseMemoryBackend}
    (made : MmapSparseMemoryBackend.make lineSize options {} = .ok backend) :
    FileStore.Openable lineSize options ∧
      MmapSparseMemoryBackend.Holds backend lineSize options fun _ => none := by
  obtain ⟨_, checked, opened⟩ := bind_eq_ok.mp made
  obtain ⟨openable, marks, size, capacity⟩ :=
    FileStore.open_new (checkFileBacked_positive checked) opened
  exact ⟨openable, marks, size, capacity, fun _ _ _ stored => nomatch stored⟩

theorem chunkFile_new {lineSize : Nat} {options : MemoryBackendOptions}
    {backend : ChunkFileMemoryBackend}
    (made : ChunkFileMemoryBackend.make lineSize options {} = .ok backend) :
    FileStore.Openable lineSize options ∧ options.Chunked lineSize ∧
      backend.Holds lineSize options fun _ => none := by
  obtain ⟨_, checked, rest⟩ := bind_eq_ok.mp made
  obtain ⟨_, accepted, constructed⟩ := bind_eq_ok.mp rest
  obtain ⟨store, opened, rest⟩ := bind_eq_ok.mp constructed
  obtain ⟨_, -, returned⟩ := bind_eq_ok.mp rest
  rw [throwIf_eq_ok, not_or, not_or, not_lt, not_not, not_not] at accepted
  obtain ⟨openable, marks, size, capacity⟩ :=
    FileStore.open_new (checkFileBacked_positive checked) opened
  have chunked : options.Chunked lineSize := ⟨accepted.1, accepted.2.1, accepted.2.2⟩
  cases returned
  exact ⟨openable, chunked, ChunkFileMemoryBackend.holds_of_files
    ⟨marks, size, capacity, fun _ _ _ stored => nomatch stored⟩ chunked rfl⟩

/-! ### Agreement -/

/-- The three line stores, new and of one line size and capacity, answer and throw alike and
report the same counters and addresses after every use. -/
theorem backends_agree {lineSize : Nat} {mmapOptions chunkOptions : MemoryBackendOptions}
    (sameCapacity : mmapOptions.capacityBytes = chunkOptions.capacityBytes)
    {sparse : SparseMemoryBackend} {mmap : MmapSparseMemoryBackend}
    {chunk : ChunkFileMemoryBackend}
    (sparseMade : MemoryBackend.make lineSize chunkOptions.capacityBytes = .ok sparse)
    (mmapMade : MmapSparseMemoryBackend.make lineSize mmapOptions {} = .ok mmap)
    (chunkMade : ChunkFileMemoryBackend.make lineSize chunkOptions {} = .ok chunk)
    {ops : List BackendOp} (inside : ∀ op ∈ ops, op.Inside lineSize chunkOptions.capacityBytes) :
    (mmapSparseStore mmapOptions).run ops mmap = sparseStore.run ops sparse ∧
      (chunkFileStore chunkOptions).run ops chunk = sparseStore.run ops sparse := by
  obtain ⟨positive, sparseHolds⟩ := sparse_new sparseMade
  obtain ⟨mmapOpenable, mmapHolds⟩ := mmapSparse_new mmapMade
  obtain ⟨chunkOpenable, chunked, chunkHolds⟩ := chunkFile_new chunkMade
  have sparseRun := (sparse_simulates positive).run inside sparseHolds
  have chunkRun := (chunkFile_simulates chunkOpenable chunked).run inside chunkHolds
  rw [← sameCapacity] at inside
  have mmapRun := (mmapSparse_simulates mmapOpenable).run inside mmapHolds
  rw [sameCapacity] at mmapRun
  exact ⟨mmapRun.trans sparseRun.symm, chunkRun.trans sparseRun.symm⟩

instance (lineSize capacityBytes : Nat) :
    (op : BackendOp) → Decidable (op.Inside lineSize capacityBytes)
  | .store base line => inferInstanceAs (Decidable (base % lineSize = 0 ∧
      base + lineSize ≤ capacityBytes ∧ ∀ byte ∈ line.initializedMask, byte = 0 ∨ byte = 0xff))
  | .load base =>
    inferInstanceAs (Decidable (base % lineSize = 0 ∧ base + lineSize ≤ capacityBytes))
  | .clear | .flush | .reopen => inferInstanceAs (Decidable True)

/-- Four lines of eight bytes, two to a chunk and one chunk in the cache. -/
def twoChunkOptions : MemoryBackendOptions where
  capacityBytes := 32
  dataFile := "memory.bin"
  chunkSizeBytes := 16
  chunkCacheEntries := 1

def writtenLine (version : Nat) : BackendLine :=
  { bytes := [1, 2, 3, 4, 5, 6, 7, 8]
    initializedMask := [0xff, 0, 0xff, 0, 0xff, 0, 0xff, 0]
    version }

/-- A chunk is evicted, read back, flushed and reopened. -/
def evictingOps : List BackendOp :=
  [.store 0 (writtenLine 1), .store 24 (writtenLine 0), .load 0, .load 8, .flush, .reopen,
    .load 24, .store 0 (writtenLine 0), .clear, .load 0]

theorem backends_agree_evicting :
    ∃ (sparse : SparseMemoryBackend) (mmap : MmapSparseMemoryBackend)
      (chunk : ChunkFileMemoryBackend),
      (mmapSparseStore twoChunkOptions).run evictingOps mmap =
          sparseStore.run evictingOps sparse ∧
        (chunkFileStore twoChunkOptions).run evictingOps chunk =
          sparseStore.run evictingOps sparse := by
  have inside : ∀ op ∈ evictingOps, op.Inside 8 twoChunkOptions.capacityBytes := by
    decide +kernel
  exact ⟨_, _, _, backends_agree rfl rfl rfl rfl inside⟩

end HbmSim
