/-
From a storage key back to an address. The stores in files look through their lines,
so they find a line that carries the key whenever there is one. The sparse store
keeps an index beside its lines. A line that is stored under a new key takes the
entry of its old key with it, even where that entry names another line: the index
is right as long as no rewrite takes a key from a line while another one has it.
-/

import HbmSim.BackendAgree

namespace HbmSim

/-- What a search for a key finds: a line that carries it, and nothing only where there is none. -/
def FindsKey (lines : Nat → Option BackendLine) (key : StorageKey) : Option Nat → Prop
  | some base => ∃ line, lines base = some line ∧ line.storageKey = key
  | none => ∀ base line, lines base = some line → line.storageKey ≠ key

/-- The state after some uses of a store. -/
def LineStore.final {σ : Type} (implementation : LineStore σ) (ops : List BackendOp) (state : σ) :
    σ :=
  ops.foldl (fun state op => implementation.next op state) state

/-! ### The sparse store -/

namespace SparseMemoryBackend

/-- The line at an address. -/
def lineOf (backend : SparseMemoryBackend) (base : Nat) : Option BackendLine :=
  backend.lines.lookup base

/-- `address_for_storage_key`. -/
def addressForStorageKey (backend : SparseMemoryBackend) (key : StorageKey) : Option Nat :=
  backend.reverse.lookup key

/-- The index finds every key that some line carries. -/
def Indexed (backend : SparseMemoryBackend) : Prop :=
  ∀ key, FindsKey backend.lineOf key (backend.addressForStorageKey key)

/-- A line that is stored under a new key was the only one under its old key. -/
def Spares (backend : SparseMemoryBackend) : BackendOp → Prop
  | .store base line => ∀ old, backend.lineOf base = some old →
      old.storageKey ≠ line.storageKey → ∀ other kept, other ≠ base →
      backend.lineOf other = some kept → kept.storageKey ≠ old.storageKey
  | _ => True

/-- Every store of a run spares the keys of the other lines. -/
def SparesKeys : List BackendOp → SparseMemoryBackend → Prop
  | [], _ => True
  | op :: rest, backend => backend.Spares op ∧ SparesKeys rest (sparseStore.next op backend)

variable {backend after : SparseMemoryBackend} {base : Nat} {line : BackendLine} {inserted : Bool}

theorem store_lineOf (stores : backend.store base line = .ok (inserted, after)) (other : Nat) :
    after.lineOf other = if other = base then some line else backend.lineOf other := by
  obtain ⟨_, -, returned⟩ := bind_eq_ok.mp stores
  cases returned
  unfold lineOf
  dsimp only
  split
  next same =>
    rw [same]
    exact AList.lookup_insert backend.lines
  next differs => exact AList.lookup_insert_ne differs

/-- The entry of the old key goes, and the entry of the new one names the line. -/
theorem store_addressForStorageKey (stores : backend.store base line = .ok (inserted, after))
    (key : StorageKey) :
    after.addressForStorageKey key =
      if key = line.storageKey then some base
      else if (backend.lineOf base).any (fun old => decide (old.storageKey = key)) then none
      else backend.addressForStorageKey key := by
  obtain ⟨_, -, returned⟩ := bind_eq_ok.mp stores
  cases returned
  unfold addressForStorageKey lineOf
  dsimp only
  by_cases new : key = line.storageKey
  · rw [if_pos new, new]
    exact AList.lookup_insert _
  · rw [if_neg new, AList.lookup_insert_ne new]
    cases backend.lines.lookup base with
    | none => rfl
    | some old =>
      dsimp only
      by_cases taken : old.storageKey = key
      · rw [Option.any_some, decide_eq_true taken, if_pos rfl, taken]
        exact AList.lookup_erase key backend.reverse
      · rw [Option.any_some, decide_eq_false taken, if_neg Bool.false_ne_true]
        exact AList.lookup_erase_ne (Ne.symm taken)

/-- From a right index a store leads to a right index exactly when it spares the other lines. -/
theorem store_indexed_iff (indexed : backend.Indexed)
    (stores : backend.store base line = .ok (inserted, after)) :
    after.Indexed ↔ backend.Spares (.store base line) := by
  have lines := store_lineOf stores
  have index := store_addressForStorageKey stores
  constructor
  · intro right old there rekeyed other kept differs found same
    have gone : after.addressForStorageKey old.storageKey = none := by
      rw [index, if_neg rekeyed, there, Option.any_some, decide_eq_true rfl, if_pos rfl]
    have finds := right old.storageKey
    rw [gone] at finds
    refine finds other kept ?_ same
    rw [lines, if_neg differs]
    exact found
  · intro spares key
    have finds := indexed key
    rw [index]
    by_cases new : key = line.storageKey
    · rw [if_pos new]
      exact ⟨line, (lines base).trans (if_pos rfl), new.symm⟩
    · rw [if_neg new]
      by_cases taken : (backend.lineOf base).any (fun old => decide (old.storageKey = key)) = true
      · rw [if_pos taken]
        obtain ⟨old, there, had⟩ := (Option.any_eq_true _ _).mp taken
        have same : old.storageKey = key := of_decide_eq_true had
        intro other kept found
        rw [lines] at found
        split at found
        next =>
          obtain rfl := Option.some.inj found
          exact Ne.symm new
        next differs =>
          rw [← same]
          exact spares old there (same ▸ new) other kept differs found
      · rw [if_neg taken]
        cases found : backend.addressForStorageKey key with
        | none =>
          rw [found] at finds
          intro other kept there
          rw [lines] at there
          split at there
          next =>
            obtain rfl := Option.some.inj there
            exact Ne.symm new
          next => exact finds other kept there
        | some address =>
          rw [found] at finds
          obtain ⟨kept, there, same⟩ := finds
          have differs : address ≠ base := by
            rintro rfl
            exact taken ((Option.any_eq_true _ _).mpr ⟨kept, there, decide_eq_true same⟩)
          exact ⟨kept, (lines address).trans ((if_neg differs).trans there), same⟩

/-- Where every store spares the keys of the other lines the index stays right. -/
theorem run_indexed {ops : List BackendOp} (indexed : backend.Indexed)
    (spares : SparesKeys ops backend) : (sparseStore.final ops backend).Indexed := by
  induction ops generalizing backend with
  | nil => exact indexed
  | cons op rest inductionHypothesis =>
    obtain ⟨here, later⟩ := spares
    refine inductionHypothesis ?_ later
    cases op with
    | store base line =>
      unfold LineStore.next sparseStore
      dsimp only
      cases stores : backend.store base line with
      | error error => exact indexed
      | ok result => exact (store_indexed_iff indexed stores).mpr here
    | load base => exact indexed
    | clear => exact fun key base line there => nomatch there
    | flush => exact indexed
    | reopen => exact indexed

end SparseMemoryBackend

/-! ### Any use of a store in files -/

/-- The mask as the files keep it. -/
def BackendLine.canonical (line : BackendLine) : BackendLine :=
  { line with initializedMask := line.initializedMask.map fun byte => if byte = 0 then 0 else 0xff }

theorem validateLine_canonical (base : Nat) (line : BackendLine) (lineSize capacityBytes : Nat) :
    validateLine base line.canonical lineSize capacityBytes =
      validateLine base line lineSize capacityBytes := by
  unfold validateLine BackendLine.canonical
  dsimp only
  rw [List.length_map]

theorem LineBank.put_canonical (bank : LineBank) (lineSize slot : Nat) (line : BackendLine) :
    bank.put lineSize slot line.canonical = bank.put lineSize slot line := by
  have mask : line.canonical.initializedMask.map (fun byte => byte != 0) =
      line.initializedMask.map fun byte => byte != 0 := by
    unfold BackendLine.canonical
    dsimp only
    rw [List.map_map]
    refine List.map_congr_left fun byte _ => ?_
    by_cases zero : byte = 0
    · simp [zero]
    · simp [zero]
  unfold LineBank.put
  rw [mask]
  rfl

/-- What a use of a store in files that does not simulate the table says: an address outside is
rejected, and of a mask only the zeroes matter. -/
structure LineStore.Guards {σ : Type} (implementation : LineStore σ)
    (related : σ → (Nat → Option BackendLine) → Prop) (lineSize capacityBytes : Nat) : Prop where
  canonical (base : Nat) (line : BackendLine) (state : σ) :
    implementation.step (.store base line.canonical) state =
      implementation.step (.store base line) state
  store (base : Nat) (line : BackendLine) (state : σ) (slots : Nat → Option BackendLine) :
    related state slots → ¬ (base % lineSize = 0 ∧ base + lineSize ≤ capacityBytes) →
    ∃ error, implementation.step (.store base line) state = .error error
  load (base : Nat) (state : σ) (slots : Nat → Option BackendLine) :
    related state slots → ¬ (base % lineSize = 0 ∧ base + lineSize ≤ capacityBytes) →
    ∃ error, implementation.step (.load base) state = .error error

section Anywhere

variable {σ : Type} {implementation : LineStore σ} {lineSize capacityBytes : Nat}
variable {related : σ → (Nat → Option BackendLine) → Prop}

open LineStore in
theorem next_related (simulates : Simulates (BackendOp.Inside lineSize capacityBytes) related
      implementation (lineTable lineSize capacityBytes))
    (guards : implementation.Guards related lineSize capacityBytes) {state : σ}
    (holds : ∃ slots, related state slots) (op : BackendOp) :
    ∃ slots, related (implementation.next op state) slots := by
  obtain ⟨slots, holds⟩ := holds
  have inside : op.Inside lineSize capacityBytes →
      ∃ slots, related (implementation.next op state) slots :=
    fun permitted => ⟨_, simulates.next permitted holds⟩
  have rejected : (∃ error, implementation.step op state = .error error) →
      ∃ slots, related (implementation.next op state) slots := by
    rintro ⟨error, throws⟩
    unfold LineStore.next
    rw [throws]
    exact ⟨slots, holds⟩
  cases op with
  | store base line =>
    by_cases here : base % lineSize = 0 ∧ base + lineSize ≤ capacityBytes
    · have same : implementation.next (.store base line) state =
          implementation.next (.store base line.canonical) state := by
        unfold LineStore.next
        rw [guards.canonical]
      rw [same]
      refine ⟨_, simulates.next ⟨here.1, here.2, fun byte member => ?_⟩ holds⟩
      obtain ⟨old, -, rfl⟩ := List.mem_map.mp member
      split
      · exact Or.inl rfl
      · exact Or.inr rfl
    · exact rejected (guards.store base line state slots holds here)
  | load base =>
    by_cases here : base % lineSize = 0 ∧ base + lineSize ≤ capacityBytes
    · exact inside here
    · exact rejected (guards.load base state slots holds here)
  | clear => exact inside trivial
  | flush => exact inside trivial
  | reopen => exact inside trivial

open LineStore in
theorem final_related (simulates : Simulates (BackendOp.Inside lineSize capacityBytes) related
      implementation (lineTable lineSize capacityBytes))
    (guards : implementation.Guards related lineSize capacityBytes) {state : σ}
    (holds : ∃ slots, related state slots) (ops : List BackendOp) :
    ∃ slots, related (implementation.final ops state) slots := by
  induction ops generalizing state with
  | nil => exact holds
  | cons op rest inductionHypothesis =>
    exact inductionHypothesis (next_related simulates guards holds op)

end Anywhere

/-! ### Looking through a table -/

/-- The first slot of the table whose line carries the key. -/
def tableFind (count lineSize : Nat) (slots : Nat → Option BackendLine) (key : StorageKey) :
    Option Nat :=
  ((Slots.used count slots).find? fun slot =>
    (slots slot).any fun line => decide (line.storageKey = key)).map (· * lineSize)

theorem tableFind_finds {lineSize capacityBytes : Nat} {slots lines : Nat → Option BackendLine}
    (positive : 0 < lineSize) (key : StorageKey)
    (reads : ∀ base, lines base =
      if base % lineSize = 0 ∧ base + lineSize ≤ capacityBytes then slots (base / lineSize)
      else none) :
    FindsKey lines key (tableFind (capacityBytes / lineSize) lineSize slots key) := by
  unfold tableFind
  cases found : (Slots.used (capacityBytes / lineSize) slots).find? fun slot =>
      (slots slot).any fun line => decide (line.storageKey = key) with
  | some slot =>
    obtain ⟨below, -⟩ := Slots.mem_used.mp (List.mem_of_find?_eq_some found)
    have inside : slot * lineSize % lineSize = 0 ∧ slot * lineSize + lineSize ≤ capacityBytes := by
      refine ⟨Nat.mul_mod_left .., ?_⟩
      rw [← Nat.succ_mul]
      exact (Nat.le_div_iff_mul_le positive).mp below
    obtain ⟨line, there, same⟩ := (Option.any_eq_true _ _).mp (List.find?_some
      (p := fun slot => (slots slot).any fun line => decide (line.storageKey = key)) found)
    refine ⟨line, ?_, of_decide_eq_true same⟩
    rw [reads, if_pos inside, Nat.mul_div_cancel _ positive]
    exact there
  | none =>
    intro base line there same
    rw [reads] at there
    split at there
    next inside =>
      obtain ⟨below, -⟩ := slot_of_base inside.1 inside.2 positive
      have used : base / lineSize ∈ Slots.used (capacityBytes / lineSize) slots :=
        Slots.mem_used.mpr ⟨below, Option.isSome_of_eq_some there⟩
      exact List.find?_eq_none.mp found _ used
        ((Option.any_eq_true _ _).mpr ⟨line, there, decide_eq_true same⟩)
    next => cases there

namespace FileStore

variable {store : FileStore} {lineAt : Nat → BackendLine} {lineSize : Nat}
variable {options : MemoryBackendOptions} {slots : Nat → Option BackendLine}

/-- An address outside the store has no slot. -/
theorem Holds.outside (holds : store.Holds lineAt lineSize options slots) (kind : String)
    {base : Nat} (outside : ¬ (base % lineSize = 0 ∧ base + lineSize ≤ options.capacityBytes)) :
    (∃ error, store.checkedIndex kind base = .error error) ∧
      ∀ line, ∃ error,
        validateLine base line store.lineSize store.capacityBytes = .error error := by
  have nonempty : 0 < store.capacityBytes := by
    rw [holds.marks.whole]
    exact Nat.mul_pos holds.marks.nonempty holds.marks.positive
  rw [← holds.size, ← holds.capacity] at outside
  refine ⟨?_, fun line => ?_⟩
  · cases checked : store.checkedIndex kind base with
    | error error => exact ⟨error, rfl⟩
    | ok slot =>
      obtain ⟨_, good, -⟩ := bind_eq_ok.mp checked
      rw [throwIf_eq_ok] at good
      omega
  · cases valid : validateLine base line store.lineSize store.capacityBytes with
    | error error => exact ⟨error, rfl⟩
    | ok checked =>
      obtain ⟨_, aligned, rest⟩ := bind_eq_ok.mp valid
      obtain ⟨_, -, room⟩ := bind_eq_ok.mp rest
      rw [throwIf_eq_ok] at aligned room
      omega

/-- The marked slots are the used ones of the table. -/
theorem Holds.members (holds : store.Holds lineAt lineSize options slots) :
    Bitmap.members store.files.presence.cell store.lineCount =
      Slots.used (options.capacityBytes / lineSize) slots := by
  rw [Bitmap.members_eq, holds.count]
  refine List.filter_congr fun slot member => holds.marks.present slot ?_
  rw [holds.count]
  exact List.mem_range.mp member

end FileStore

/-! ### The mapped store -/

namespace MmapSparseMemoryBackend

variable {backend : MmapSparseMemoryBackend} {lineSize : Nat} {options : MemoryBackendOptions}
variable {slots : Nat → Option BackendLine}

def lineOf (backend : MmapSparseMemoryBackend) (base : Nat) : Option BackendLine :=
  (MmapSparseMemoryBackend.load backend base).toOption.join

/-- `address_for_storage_key`: the records of the marked lines, in order. -/
def addressForStorageKey (backend : MmapSparseMemoryBackend) (key : StorageKey) : Option Nat :=
  ((Bitmap.members backend.files.presence.cell backend.lineCount).find? fun slot =>
    decide ((decodeMeta (backend.files.bank.records.cell slot) {}).storageKey = key)).map
      (· * backend.lineSize)

theorem Holds.lineOf (holds : Holds backend lineSize options slots) (base : Nat) :
    MmapSparseMemoryBackend.lineOf backend base =
      if base % lineSize = 0 ∧ base + lineSize ≤ options.capacityBytes then slots (base / lineSize)
      else none := by
  unfold MmapSparseMemoryBackend.lineOf MmapSparseMemoryBackend.load
  split
  next inside =>
    obtain ⟨index, below⟩ := FileStore.Holds.checkedIndex holds "mmap_sparse" inside
    rw [index, ← FileStore.Holds.found holds below, holds.size]
    rfl
  next outside =>
    obtain ⟨⟨error, throws⟩, -⟩ := FileStore.Holds.outside holds "mmap_sparse" outside
    rw [throws]
    rfl

theorem Holds.addressForStorageKey (holds : Holds backend lineSize options slots)
    (key : StorageKey) :
    MmapSparseMemoryBackend.addressForStorageKey backend key =
      tableFind (options.capacityBytes / lineSize) lineSize slots key := by
  have size : backend.lineSize = lineSize := holds.size
  have count : backend.lineCount = options.capacityBytes / lineSize := FileStore.Holds.count holds
  have members := FileStore.Holds.members holds
  unfold MmapSparseMemoryBackend.addressForStorageKey tableFind
  rw [size, members]
  refine congrArg _ (List.find?_congr fun slot member => ?_)
  obtain ⟨below, used⟩ := Slots.mem_used.mp member
  obtain ⟨line, there⟩ := Option.isSome_iff_exists.mp used
  have same : backend.files.bank.line lineSize slot = line :=
    holds.line slot line (by rw [count]; exact below) there
  rw [there, Option.any_some, ← same]
  rfl

open LineStore in
theorem guards (options : MemoryBackendOptions) (lineSize : Nat) :
    (mmapSparseStore options).Guards (fun backend slots => Holds backend lineSize options slots)
      lineSize options.capacityBytes where
  canonical base line backend := by
    unfold mmapSparseStore MmapSparseMemoryBackend.store
    dsimp only
    rw [validateLine_canonical]
    simp only [LineBank.put_canonical]
    rfl
  store base line backend slots holds outside := by
    obtain ⟨error, throws⟩ := (FileStore.Holds.outside holds "mmap_sparse" outside).2 line
    refine ⟨error, ?_⟩
    unfold mmapSparseStore MmapSparseMemoryBackend.store
    dsimp only
    rw [throws]
    rfl
  load base backend slots holds outside := by
    obtain ⟨error, throws⟩ := (FileStore.Holds.outside holds "mmap_sparse" outside).1
    refine ⟨error, ?_⟩
    unfold mmapSparseStore MmapSparseMemoryBackend.load
    dsimp only
    rw [throws]
    rfl

end MmapSparseMemoryBackend

/-! ### The chunked store -/

namespace ChunkFileMemoryBackend

variable {backend : ChunkFileMemoryBackend} {lineSize : Nat} {options : MemoryBackendOptions}
variable {slots : Nat → Option BackendLine}

def lineOf (backend : ChunkFileMemoryBackend) (base : Nat) : Option BackendLine :=
  (backend.load base).toOption.bind Prod.fst

/-- Load lines until one carries the key. -/
def findKey (key : StorageKey) : List Nat → ChunkFileMemoryBackend →
    Except Exception (Option Nat × ChunkFileMemoryBackend)
  | [], backend => .ok (none, backend)
  | slot :: rest, backend => do
    let (found, after) ← backend.load (slot * backend.lineSize)
    if found.any fun line => decide (line.storageKey = key) then
      return (some (slot * backend.lineSize), after)
    else findKey key rest after

/-- `address_for_storage_key`: the marked lines, in order, each through the cache. -/
def addressForStorageKey (backend : ChunkFileMemoryBackend) (key : StorageKey) :
    Except Exception (Option Nat × ChunkFileMemoryBackend) :=
  backend.findKey key (Bitmap.members backend.files.presence.cell backend.lineCount)

theorem Holds.lineOf (holds : backend.Holds lineSize options slots) (base : Nat) :
    backend.lineOf base =
      if base % lineSize = 0 ∧ base + lineSize ≤ options.capacityBytes then slots (base / lineSize)
      else none := by
  unfold ChunkFileMemoryBackend.lineOf
  split
  next inside =>
    obtain ⟨after, loaded, -⟩ := holds.loaded inside
    rw [loaded]
    rfl
  next outside =>
    obtain ⟨⟨error, throws⟩, -⟩ := holds.store.outside "chunk_file" outside
    unfold ChunkFileMemoryBackend.load
    rw [throws]
    rfl

/-- Loading lines one after the other finds what the table has. -/
theorem Holds.findKey (holds : backend.Holds lineSize options slots) (key : StorageKey)
    {places : List Nat} (inside : ∀ slot ∈ places, slot < options.capacityBytes / lineSize) :
    ∃ after, backend.findKey key places = .ok ((places.find? fun slot =>
      (slots slot).any fun line => decide (line.storageKey = key)).map (· * lineSize), after) := by
  induction places generalizing backend with
  | nil => exact ⟨backend, rfl⟩
  | cons slot rest inductionHypothesis =>
    have positive : 0 < lineSize := holds.store.size ▸ holds.store.marks.positive
    have below := inside slot List.mem_cons_self
    have room : slot * lineSize % lineSize = 0 ∧
        slot * lineSize + lineSize ≤ options.capacityBytes := by
      refine ⟨Nat.mul_mod_left .., ?_⟩
      rw [← Nat.succ_mul]
      exact (Nat.le_div_iff_mul_le positive).mp below
    obtain ⟨after, loaded, stays⟩ := holds.loaded room
    rw [Nat.mul_div_cancel _ positive] at loaded
    unfold ChunkFileMemoryBackend.findKey
    rw [holds.store.size, loaded, List.find?_cons]
    dsimp only [bind, Except.bind]
    cases carries : (slots slot).any fun line => decide (line.storageKey = key) with
    | true => exact ⟨after, rfl⟩
    | false =>
      rw [if_neg Bool.false_ne_true]
      exact inductionHypothesis stays fun other member => inside other (List.mem_cons_of_mem _ member)

theorem Holds.addressForStorageKey (holds : backend.Holds lineSize options slots)
    (key : StorageKey) :
    ∃ after, backend.addressForStorageKey key =
      .ok (tableFind (options.capacityBytes / lineSize) lineSize slots key, after) := by
  unfold ChunkFileMemoryBackend.addressForStorageKey
  rw [holds.store.members]
  exact holds.findKey key fun slot member => (Slots.mem_used.mp member).1

open LineStore in
theorem guards (options : MemoryBackendOptions) (lineSize : Nat) :
    (chunkFileStore options).Guards
      (fun backend slots => ChunkFileMemoryBackend.Holds backend lineSize options slots)
      lineSize options.capacityBytes where
  canonical base line backend := by
    unfold chunkFileStore ChunkFileMemoryBackend.store
    dsimp only
    rw [validateLine_canonical]
    simp only [LineBank.put_canonical]
    rfl
  store base line backend slots holds outside := by
    obtain ⟨error, throws⟩ := (holds.store.outside "chunk_file" outside).2 line
    refine ⟨error, ?_⟩
    unfold chunkFileStore ChunkFileMemoryBackend.store
    dsimp only
    rw [throws]
    rfl
  load base backend slots holds outside := by
    obtain ⟨error, throws⟩ := (holds.store.outside "chunk_file" outside).1
    refine ⟨error, ?_⟩
    unfold chunkFileStore ChunkFileMemoryBackend.load
    dsimp only
    rw [throws]
    rfl

end ChunkFileMemoryBackend

/-! ### The index of each store -/

/-- From new stores on, through any uses: the stores in files find a key whenever a line carries
it, and the sparse store does while every line that is stored under a new key was the only one
under its old key. -/
theorem reverse_index_exact {lineSize capacityBytes : Nat}
    {mmapOptions chunkOptions : MemoryBackendOptions} {sparse : SparseMemoryBackend}
    {mmap : MmapSparseMemoryBackend} {chunk : ChunkFileMemoryBackend}
    (sparseMade : MemoryBackend.make lineSize capacityBytes = .ok sparse)
    (mmapMade : MmapSparseMemoryBackend.make lineSize mmapOptions {} = .ok mmap)
    (chunkMade : ChunkFileMemoryBackend.make lineSize chunkOptions {} = .ok chunk)
    (ops : List BackendOp) (key : StorageKey) :
    (sparse.SparesKeys ops →
      FindsKey (sparseStore.final ops sparse).lineOf key
        ((sparseStore.final ops sparse).addressForStorageKey key)) ∧
    FindsKey (MmapSparseMemoryBackend.lineOf ((mmapSparseStore mmapOptions).final ops mmap)) key
      (MmapSparseMemoryBackend.addressForStorageKey
        ((mmapSparseStore mmapOptions).final ops mmap) key) ∧
    ∃ answer after,
      ((chunkFileStore chunkOptions).final ops chunk).addressForStorageKey key =
        .ok (answer, after) ∧
      FindsKey ((chunkFileStore chunkOptions).final ops chunk).lineOf key answer := by
  obtain ⟨positive, -⟩ := sparse_new sparseMade
  refine ⟨fun spares => ?_, ?_, ?_⟩
  · have indexed : sparse.Indexed := by
      obtain ⟨_, -, returned⟩ := bind_eq_ok.mp sparseMade
      cases returned
      exact fun key base line there => nomatch there
    exact SparseMemoryBackend.run_indexed indexed spares key
  · obtain ⟨openable, holds⟩ := mmapSparse_new mmapMade
    obtain ⟨slots, holds⟩ := final_related (mmapSparse_simulates openable)
      (MmapSparseMemoryBackend.guards mmapOptions lineSize) ⟨_, holds⟩ ops
    rw [holds.addressForStorageKey]
    exact tableFind_finds positive key holds.lineOf
  · obtain ⟨openable, chunked, holds⟩ := chunkFile_new chunkMade
    obtain ⟨slots, holds⟩ := final_related (chunkFile_simulates openable chunked)
      (ChunkFileMemoryBackend.guards chunkOptions lineSize) ⟨_, holds⟩ ops
    obtain ⟨after, answers⟩ := holds.addressForStorageKey key
    exact ⟨_, after, answers, tableFind_finds positive key holds.lineOf⟩

/-- A line under a key of its own row. -/
def keyedLine (row : Nat) : BackendLine := { writtenLine 1 with storageKey := { row := some row } }

/-- A line is rewritten under a new key, and its old key goes to another line. -/
def rekeyingOps : List BackendOp :=
  [.store 0 (keyedLine 1), .store 0 (keyedLine 2), .store 8 (keyedLine 1)]

theorem reverse_index_exact_rekeying :
    ∃ sparse : SparseMemoryBackend, MemoryBackend.make 8 32 = .ok sparse ∧
      ∀ key, FindsKey (sparseStore.final rekeyingOps sparse).lineOf key
        ((sparseStore.final rekeyingOps sparse).addressForStorageKey key) := by
  refine ⟨_, rfl, fun key => (reverse_index_exact rfl (rfl :
    MmapSparseMemoryBackend.make 8 twoChunkOptions {} = .ok _) (rfl :
    ChunkFileMemoryBackend.make 8 twoChunkOptions {} = .ok _) _ key).1 ?_⟩
  refine ⟨(fun old there => nomatch there), ?_, (fun old there => nomatch there), trivial⟩
  intro old there rekeyed other kept differs found
  exact nomatch (AList.lookup_insert_ne differs).symm.trans found

/-- Two lines under one key. When the first is stored under another key, the second can no longer
be found. -/
theorem reverse_index_loses :
    ∃ sparse : SparseMemoryBackend, MemoryBackend.make 8 32 = .ok sparse ∧
      ∃ line, (sparseStore.final [.store 0 (keyedLine 1), .store 8 (keyedLine 1),
          .store 0 (keyedLine 2)] sparse).lineOf 8 = some line ∧
        line.storageKey = (keyedLine 1).storageKey ∧
        (sparseStore.final [.store 0 (keyedLine 1), .store 8 (keyedLine 1),
          .store 0 (keyedLine 2)] sparse).addressForStorageKey (keyedLine 1).storageKey = none :=
  ⟨_, rfl, keyedLine 1, rfl, rfl, rfl⟩

end HbmSim
