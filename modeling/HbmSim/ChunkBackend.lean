/-
The line store that caches chunks of its files. A chunk is a run of lines; one
that was written is dirty and goes back to the files when it is evicted or
flushed. The least recently used chunk is evicted first.

The presence maps are mapped into memory as in the other file-backed store.
-/

import HbmSim.FileBackend

namespace HbmSim

/-! ### The store -/

structure CachedChunk where
  bank : LineBank
  lastUse : Nat := 0
  dirty : Bool := false

structure ChunkFileMemoryBackend extends FileStore where
  chunkSize : Nat
  cacheLimit : Nat
  cache : AList (fun _ : Nat => CachedChunk) := ∅
  useClock : Nat := 0

namespace ChunkFileMemoryBackend

def linesPerChunk (backend : ChunkFileMemoryBackend) : Nat :=
  backend.chunkSize / backend.lineSize

/-- The constructor, on files that are new or old. -/
def «open» (lineSize : Nat) (options : MemoryBackendOptions) (files : BackendFiles) :
    Except Exception ChunkFileMemoryBackend := do
  let opened ← FileStore.open "chunk_file" lineSize options files
  throwIf (options.chunkSizeBytes % lineSize ≠ 0 ∨ options.chunkSizeBytes % 8 ≠ 0)
    (invalidArgument "memory_chunk_size must be a multiple of line_size and 8")
  return { opened with
    chunkSize := options.chunkSizeBytes
    cacheLimit := max 1 options.chunkCacheEntries }

def make (lineSize : Nat) (options : MemoryBackendOptions) (files : BackendFiles) :
    Except Exception ChunkFileMemoryBackend := do
  checkFileBacked lineSize options
  throwIf (options.chunkSizeBytes < lineSize ∨ options.chunkSizeBytes % lineSize ≠ 0 ∨
      options.chunkSizeBytes % 8 ≠ 0)
    (invalidArgument
      "memory_chunk_size must be >= line_size and a multiple of line_size and 8")
  ChunkFileMemoryBackend.open lineSize options files

def linesInChunk (backend : ChunkFileMemoryBackend) (chunkIndex : Nat) : Nat :=
  min backend.linesPerChunk (backend.lineCount - chunkIndex * backend.linesPerChunk)

/-- `write_chunk`: a dirty chunk goes back to the files. -/
def writeChunk (lineSize linesPerChunk : Nat) (bank : LineBank) (chunkIndex : Nat)
    (chunk : CachedChunk) : LineBank :=
  if chunk.dirty then bank.write lineSize (chunkIndex * linesPerChunk) chunk.bank else bank

/-- Every chunk of the cache goes back. -/
def writeChunks (lineSize linesPerChunk : Nat) (bank : LineBank)
    (entries : List (Sigma fun _ : Nat => CachedChunk)) : LineBank :=
  entries.foldl (fun bank entry => writeChunk lineSize linesPerChunk bank entry.1 entry.2) bank

def setBank (backend : ChunkFileMemoryBackend) (bank : LineBank) : ChunkFileMemoryBackend :=
  { backend with files := { backend.files with bank } }

/-- The least recently used chunk. -/
def victim (backend : ChunkFileMemoryBackend) : Option (Sigma fun _ : Nat => CachedChunk) :=
  backend.cache.entries.argmin fun entry => entry.2.lastUse

/-- Make room in a full cache. -/
def evict (backend : ChunkFileMemoryBackend) : ChunkFileMemoryBackend :=
  if backend.cache.entries.length < backend.cacheLimit then backend
  else
    match backend.victim with
    | none => backend
    | some ⟨chunkIndex, chunk⟩ =>
      { backend.setBank (writeChunk backend.lineSize backend.linesPerChunk backend.files.bank
          chunkIndex chunk) with
        cache := backend.cache.erase chunkIndex }

/-- The chunk of the files at an index, just used. -/
def fetched (backend : ChunkFileMemoryBackend) (chunkIndex : Nat) : CachedChunk where
  bank := backend.files.bank.read backend.lineSize (chunkIndex * backend.linesPerChunk)
    (backend.linesInChunk chunkIndex)
  lastUse := backend.useClock + 1

/-- `ensure_chunk`: the cached chunk, fetched if it was not there. -/
def ensureChunk (backend : ChunkFileMemoryBackend) (chunkIndex : Nat) :
    CachedChunk × ChunkFileMemoryBackend :=
  match backend.cache.lookup chunkIndex with
  | some chunk =>
    let chunk := { chunk with lastUse := backend.useClock + 1 }
    (chunk, { backend with
      cache := backend.cache.insert chunkIndex chunk, useClock := backend.useClock + 1 })
  | none =>
    let backend := backend.evict
    let chunk := backend.fetched chunkIndex
    (chunk, { backend with
      cache := backend.cache.insert chunkIndex chunk, useClock := backend.useClock + 1 })

def load (backend : ChunkFileMemoryBackend) (base : Nat) :
    Except Exception (Option BackendLine × ChunkFileMemoryBackend) := do
  let slot ← backend.checkedIndex "chunk_file" base
  if backend.isPresent slot then
    let (chunk, backend) := backend.ensureChunk (slot / backend.linesPerChunk)
    return (some (chunk.bank.line backend.lineSize (slot % backend.linesPerChunk)), backend)
  else return (none, backend)

def store (backend : ChunkFileMemoryBackend) (base : Nat) (line : BackendLine) :
    Except Exception (Bool × ChunkFileMemoryBackend) := do
  validateLine base line backend.lineSize backend.capacityBytes
  let slot ← backend.checkedIndex "chunk_file" base
  let inserted := !backend.isPresent slot
  let chunkIndex := slot / backend.linesPerChunk
  let (chunk, backend) := backend.ensureChunk chunkIndex
  let chunk := { chunk with
    bank := chunk.bank.put backend.lineSize (slot % backend.linesPerChunk) line
    dirty := true }
  return (inserted, { backend with
    toFileStore := backend.toFileStore.mark slot line.version
    cache := backend.cache.insert chunkIndex chunk })

def clear (backend : ChunkFileMemoryBackend) : ChunkFileMemoryBackend :=
  { backend with toFileStore := backend.toFileStore.clear, cache := ∅ }

/-- Every dirty chunk goes back to the files and stays cached. -/
def flush (backend : ChunkFileMemoryBackend) : ChunkFileMemoryBackend :=
  let bank := writeChunks backend.lineSize backend.linesPerChunk backend.files.bank
    backend.cache.entries
  let cleaned : List (Sigma fun _ : Nat => CachedChunk) :=
    backend.cache.entries.map (.map id fun _ chunk => { chunk with dirty := false })
  { backend.setBank bank with
    toFileStore := (backend.setBank bank).toFileStore.flush
    cache := cleaned.toAList }

/-! ### Writing chunks back -/

section WriteBack

variable {lineSize perChunk total slot index : Nat} {bank : LineBank} {chunk : CachedChunk}

/-- The chunk has the room of the lines at its index. -/
def Placed (lineSize perChunk total index : Nat) (chunk : CachedChunk) : Prop :=
  index * perChunk < total ∧
    chunk.bank.Sized lineSize (min perChunk (total - index * perChunk))

theorem chunk_aligned (aligned : 8 ∣ perChunk * lineSize) (index : Nat) :
    8 ∣ index * perChunk * lineSize := by
  rw [Nat.mul_assoc]
  exact Dvd.dvd.mul_left aligned index

theorem Placed.sized (placed : Placed lineSize perChunk total index chunk)
    (aligned : 8 ∣ perChunk * lineSize) (sized : bank.Sized lineSize total) :
    (writeChunk lineSize perChunk bank index chunk).Sized lineSize total := by
  unfold writeChunk
  split
  · exact sized.write placed.2 (chunk_aligned aligned index) (by have := placed.1; omega)
  · exact sized

/-- A dirty chunk leaves its lines in the files, and a chunk changes no other line. -/
theorem Placed.line (placed : Placed lineSize perChunk total index chunk) (bank : LineBank)
    (aligned : 8 ∣ perChunk * lineSize) (positive : 0 < perChunk) (inside : slot < total) :
    (writeChunk lineSize perChunk bank index chunk).line lineSize slot =
      if chunk.dirty ∧ slot / perChunk = index then chunk.bank.line lineSize (slot % perChunk)
      else bank.line lineSize slot := by
  have starts := placed.1
  have place := Nat.div_add_mod' slot perChunk
  have small := Nat.mod_lt slot positive
  have next : (index + 1) * perChunk = index * perChunk + perChunk := Nat.succ_mul ..
  unfold writeChunk
  by_cases dirty : chunk.dirty = true
  · rw [if_pos dirty]
    by_cases here : slot / perChunk = index
    · rw [if_pos ⟨dirty, here⟩]
      rw [here] at place
      have within : slot % perChunk < min perChunk (total - index * perChunk) :=
        lt_min small (by omega)
      have inChunk : (bank.write lineSize (index * perChunk) chunk.bank).line lineSize
          (index * perChunk + slot % perChunk) = chunk.bank.line lineSize (slot % perChunk) :=
        LineBank.line_write_inside placed.2 (chunk_aligned aligned index) within
      rwa [place] at inChunk
    · rw [if_neg fun both => here both.2]
      rcases Nat.lt_or_gt_of_ne here with below | above
      · have before : slot < index * perChunk := (Nat.div_lt_iff_lt_mul positive).mp below
        exact LineBank.line_write_outside placed.2 (chunk_aligned aligned index) (Or.inr before)
          (Or.inl before)
      · have behind : (index + 1) * perChunk ≤ slot := (Nat.le_div_iff_mul_le positive).mp above
        have full : min perChunk (total - index * perChunk) = perChunk := min_eq_left (by omega)
        have ends : index * perChunk + min perChunk (total - index * perChunk) =
            (index + 1) * perChunk := by rw [full, next]
        refine LineBank.line_write_outside placed.2 (chunk_aligned aligned index) (Or.inl ?_)
          (Or.inr ?_)
        · rw [ends]
          exact chunk_aligned aligned (index + 1)
        · rwa [ends]
  · rw [if_neg dirty, if_neg fun both => dirty both.1]

variable {entries : List (Sigma fun _ : Nat => CachedChunk)}

theorem writeChunks_sized (sized : bank.Sized lineSize total) (aligned : 8 ∣ perChunk * lineSize)
    (placed : ∀ entry ∈ entries, Placed lineSize perChunk total entry.1 entry.2) :
    (writeChunks lineSize perChunk bank entries).Sized lineSize total := by
  induction entries generalizing bank with
  | nil => exact sized
  | cons entry rest inductionHypothesis =>
    exact inductionHypothesis ((placed entry List.mem_cons_self).sized aligned sized)
      fun later member => placed later (List.mem_cons_of_mem _ member)

/-- A line is in the files what its dirty chunk held, and without one what it was. -/
theorem writeChunks_line (bank : LineBank) (aligned : 8 ∣ perChunk * lineSize)
    (positive : 0 < perChunk) (inside : slot < total) (distinct : entries.NodupKeys)
    (placed : ∀ entry ∈ entries, Placed lineSize perChunk total entry.1 entry.2) :
    (writeChunks lineSize perChunk bank entries).line lineSize slot =
      match entries.dlookup (slot / perChunk) with
      | some chunk =>
        if chunk.dirty then chunk.bank.line lineSize (slot % perChunk) else bank.line lineSize slot
      | none => bank.line lineSize slot := by
  induction entries generalizing bank with
  | nil => rfl
  | cons entry rest inductionHypothesis =>
    obtain ⟨index, chunk⟩ := entry
    have first := (placed ⟨index, chunk⟩ List.mem_cons_self).line bank aligned positive inside
    refine (inductionHypothesis (writeChunk lineSize perChunk bank index chunk)
      (List.nodupKeys_of_nodupKeys_cons distinct)
      fun later member => placed later (List.mem_cons_of_mem _ member)).trans ?_
    rw [first]
    by_cases here : slot / perChunk = index
    · have gone : rest.dlookup index = none :=
        List.dlookup_eq_none.mpr (List.notMem_keys_of_nodupKeys_cons distinct)
      rw [here, gone, List.dlookup_cons_eq]
      exact if_congr (and_iff_left rfl) rfl rfl
    · rw [List.dlookup_cons_ne rest ⟨index, chunk⟩ here, if_neg fun both => here both.2]

end WriteBack

/-! ### What the cache holds -/

/-- The line at a slot as the store finds it: in its chunk if that is cached, else in the files. -/
def lineAt (backend : ChunkFileMemoryBackend) (slot : Nat) : BackendLine :=
  match backend.cache.lookup (slot / backend.linesPerChunk) with
  | some chunk => chunk.bank.line backend.lineSize (slot % backend.linesPerChunk)
  | none => backend.files.bank.line backend.lineSize slot

/-- Every cached chunk has its room, and a clean one holds what the files do. -/
structure Cached (backend : ChunkFileMemoryBackend) : Prop where
  positive : 0 < backend.linesPerChunk
  aligned : 8 ∣ backend.linesPerChunk * backend.lineSize
  sized : backend.files.bank.Sized backend.lineSize backend.lineCount
  placed (index : Nat) (chunk : CachedChunk) : backend.cache.lookup index = some chunk →
    Placed backend.lineSize backend.linesPerChunk backend.lineCount index chunk
  clean (slot : Nat) (chunk : CachedChunk) : slot < backend.lineCount →
    backend.cache.lookup (slot / backend.linesPerChunk) = some chunk → chunk.dirty = false →
    chunk.bank.line backend.lineSize (slot % backend.linesPerChunk) =
      backend.files.bank.line backend.lineSize slot

variable {backend : ChunkFileMemoryBackend} {slot index : Nat} {chunk : CachedChunk}

/-- The same store with another bank in the files, another cache and another clock. -/
def recache (backend : ChunkFileMemoryBackend) (bank : LineBank)
    (cache : AList fun _ : Nat => CachedChunk) (useClock : Nat) : ChunkFileMemoryBackend :=
  { backend.setBank bank with cache := cache, useClock := useClock }

section Recache

variable {bank : LineBank} {cache : AList fun _ : Nat => CachedChunk} {useClock : Nat}

theorem lineAt_cached (there : cache.lookup (slot / backend.linesPerChunk) = some chunk) :
    (backend.recache bank cache useClock).lineAt slot =
      chunk.bank.line backend.lineSize (slot % backend.linesPerChunk) := by
  have found : (backend.recache bank cache useClock).cache.lookup
      (slot / (backend.recache bank cache useClock).linesPerChunk) = some chunk := there
  unfold lineAt
  rw [found]
  rfl

theorem lineAt_files (absent : cache.lookup (slot / backend.linesPerChunk) = none) :
    (backend.recache bank cache useClock).lineAt slot = bank.line backend.lineSize slot := by
  have found : (backend.recache bank cache useClock).cache.lookup
      (slot / (backend.recache bank cache useClock).linesPerChunk) = none := absent
  unfold lineAt
  rw [found]
  rfl

end Recache

/-- Making room evicts nothing, or the chunk of one index, which goes back to the files. -/
theorem evict_cases (backend : ChunkFileMemoryBackend) :
    backend.evict = backend ∨ ∃ index chunk, backend.cache.lookup index = some chunk ∧
      backend.evict = backend.recache (writeChunk backend.lineSize backend.linesPerChunk
        backend.files.bank index chunk) (backend.cache.erase index) backend.useClock := by
  unfold evict
  split
  · exact Or.inl rfl
  split
  · exact Or.inl rfl
  next index chunk least =>
    have member : Sigma.mk index chunk ∈ backend.cache.entries := List.argmin_mem least
    exact Or.inr ⟨index, chunk, AList.mem_lookup_iff.mpr member, rfl⟩

/-- The chunk that goes back leaves every line where the store finds it. -/
theorem Cached.evicted (cached : backend.Cached) (here : backend.cache.lookup index = some chunk) :
    let evicted := backend.recache (writeChunk backend.lineSize backend.linesPerChunk
      backend.files.bank index chunk) (backend.cache.erase index) backend.useClock
    evicted.Cached ∧ ∀ slot < backend.lineCount, evicted.lineAt slot = backend.lineAt slot := by
  have placed := cached.placed index chunk here
  have kept {other : Nat} (differs : other ≠ index) :
      (backend.cache.erase index).lookup other = backend.cache.lookup other :=
    AList.lookup_erase_ne differs
  have gone : (backend.cache.erase index).lookup index = none := AList.lookup_erase index _
  have written {slot : Nat} (inside : slot < backend.lineCount) :=
    placed.line backend.files.bank cached.aligned cached.positive inside
  refine ⟨⟨cached.positive, cached.aligned, placed.sized cached.aligned cached.sized,
    fun other found cachedThere => ?_, fun slot found inside cachedThere unwritten => ?_⟩,
    fun slot inside => ?_⟩
  · by_cases same : other = index
    · rw [same] at cachedThere
      cases gone.symm.trans cachedThere
    · exact cached.placed other found ((kept same).symm.trans cachedThere)
  · have there : (backend.cache.erase index).lookup (slot / backend.linesPerChunk) = some found :=
      cachedThere
    have differs : slot / backend.linesPerChunk ≠ index := by
      intro same
      rw [same, gone] at there
      cases there
    rw [kept differs] at there
    refine (cached.clean slot found inside there unwritten).trans (Eq.symm ?_)
    exact (written inside).trans (if_neg fun both => differs both.2)
  · by_cases same : slot / backend.linesPerChunk = index
    · have absent : (backend.cache.erase index).lookup (slot / backend.linesPerChunk) = none := by
        rwa [same]
      have there : backend.cache.lookup (slot / backend.linesPerChunk) = some chunk := by
        rwa [same]
      refine (lineAt_files absent).trans (Eq.trans ?_ (lineAt_cached there).symm)
      by_cases dirty : chunk.dirty = true
      · exact (written inside).trans (if_pos ⟨dirty, same⟩)
      · refine ((written inside).trans (if_neg fun both => dirty both.1)).trans ?_
        exact (cached.clean slot chunk inside there (Bool.eq_false_of_not_eq_true dirty)).symm
    · cases there : backend.cache.lookup (slot / backend.linesPerChunk) with
      | some found =>
        exact (lineAt_cached ((kept same).trans there)).trans (lineAt_cached there).symm
      | none =>
        refine (lineAt_files ((kept same).trans there)).trans (Eq.trans ?_ (lineAt_files there).symm)
        exact (written inside).trans (if_neg fun both => same both.2)

theorem fetched_line (cached : backend.Cached) (inside : slot < backend.lineCount) :
    (backend.fetched (slot / backend.linesPerChunk)).bank.line backend.lineSize
      (slot % backend.linesPerChunk) = backend.files.bank.line backend.lineSize slot := by
  have place := Nat.div_add_mod' slot backend.linesPerChunk
  have small := Nat.mod_lt slot cached.positive
  have within : slot % backend.linesPerChunk <
      backend.linesInChunk (slot / backend.linesPerChunk) := lt_min small (by omega)
  have room : slot / backend.linesPerChunk * backend.linesPerChunk +
      backend.linesInChunk (slot / backend.linesPerChunk) ≤ backend.lineCount := by
    unfold linesInChunk
    omega
  have read := LineBank.line_read cached.sized
    (chunk_aligned cached.aligned (slot / backend.linesPerChunk)) within room
  rwa [place] at read

/-- Caching a chunk with the room of its index keeps the invariant, and its lines are read
from it. -/
theorem Cached.insert (cached : backend.Cached)
    (placed : Placed backend.lineSize backend.linesPerChunk backend.lineCount index chunk)
    (clean : chunk.dirty = false → ∀ slot < backend.lineCount,
      slot / backend.linesPerChunk = index →
        chunk.bank.line backend.lineSize (slot % backend.linesPerChunk) =
          backend.files.bank.line backend.lineSize slot) (useClock : Nat) :
    let inserted := backend.recache backend.files.bank (backend.cache.insert index chunk) useClock
    inserted.Cached ∧ ∀ slot, inserted.lineAt slot =
      if slot / backend.linesPerChunk = index then
        chunk.bank.line backend.lineSize (slot % backend.linesPerChunk)
      else backend.lineAt slot := by
  have here : (backend.cache.insert index chunk).lookup index = some chunk :=
    AList.lookup_insert backend.cache
  have kept {other : Nat} (differs : other ≠ index) :
      (backend.cache.insert index chunk).lookup other = backend.cache.lookup other :=
    AList.lookup_insert_ne differs
  refine ⟨⟨cached.positive, cached.aligned, cached.sized, fun other found cachedThere => ?_,
    fun slot found inside cachedThere unwritten => ?_⟩, fun slot => ?_⟩
  · by_cases same : other = index
    · rw [same] at cachedThere ⊢
      cases here.symm.trans cachedThere
      exact placed
    · exact cached.placed other found ((kept same).symm.trans cachedThere)
  · by_cases same : slot / backend.linesPerChunk = index
    · have there : (backend.cache.insert index chunk).lookup (slot / backend.linesPerChunk) =
          some chunk := by rwa [same]
      cases there.symm.trans cachedThere
      exact clean unwritten slot inside same
    · exact cached.clean slot found inside ((kept same).symm.trans cachedThere) unwritten
  · by_cases same : slot / backend.linesPerChunk = index
    · rw [if_pos same]
      exact lineAt_cached (by rwa [same])
    · rw [if_neg same]
      cases there : backend.cache.lookup (slot / backend.linesPerChunk) with
      | some found =>
        exact (lineAt_cached ((kept same).trans there)).trans (lineAt_cached there).symm
      | none => exact (lineAt_files ((kept same).trans there)).trans (lineAt_files there).symm

/-- The chunk a store asks for is cached, and no line changes. -/
theorem Cached.ensureChunk (cached : backend.Cached)
    (starts : index * backend.linesPerChunk < backend.lineCount) :
    ∃ chunk bank cache useClock,
      backend.ensureChunk index = (chunk, backend.recache bank cache useClock) ∧
      (backend.recache bank cache useClock).Cached ∧ cache.lookup index = some chunk ∧
      ∀ slot < backend.lineCount,
        (backend.recache bank cache useClock).lineAt slot = backend.lineAt slot := by
  cases found : backend.cache.lookup index with
  | some chunk =>
    have placed : Placed backend.lineSize backend.linesPerChunk backend.lineCount index
        { chunk with lastUse := backend.useClock + 1 } := cached.placed index chunk found
    obtain ⟨invariant, lines⟩ := cached.insert placed (fun unwritten slot inside here =>
        cached.clean slot chunk inside (by rwa [here]) unwritten) (backend.useClock + 1)
    refine ⟨{ chunk with lastUse := backend.useClock + 1 }, _, _, _, ?_, invariant,
      AList.lookup_insert backend.cache, fun slot inside => (lines slot).trans ?_⟩
    · unfold ChunkFileMemoryBackend.ensureChunk
      rw [found]
      rfl
    · split
      next here =>
        have there : backend.cache.lookup (slot / backend.linesPerChunk) = some chunk := by
          rwa [here]
        exact (lineAt_cached there).symm
      · rfl
  | none =>
    obtain ⟨bank, cache, useClock, evicted, absent, invariant, lines⟩ : ∃ bank cache useClock,
        backend.evict = backend.recache bank cache useClock ∧ cache.lookup index = none ∧
        (backend.recache bank cache useClock).Cached ∧ ∀ slot < backend.lineCount,
          (backend.recache bank cache useClock).lineAt slot = backend.lineAt slot := by
      rcases backend.evict_cases with same | ⟨other, chunk, here, same⟩
      · exact ⟨_, _, _, same, found, cached, fun _ _ => rfl⟩
      · refine ⟨_, _, _, same, ?_, cached.evicted here⟩
        by_cases there : index = other
        · rw [there]
          exact AList.lookup_erase other backend.cache
        · exact (AList.lookup_erase_ne there).trans found
    have placed : Placed backend.lineSize backend.linesPerChunk backend.lineCount index
        ((backend.recache bank cache useClock).fetched index) :=
      ⟨starts, LineBank.Sized.read ..⟩
    have fetched (slot : Nat) (inside : slot < backend.lineCount)
        (here : slot / backend.linesPerChunk = index) :
        ((backend.recache bank cache useClock).fetched index).bank.line backend.lineSize
          (slot % backend.linesPerChunk) = bank.line backend.lineSize slot := by
      rw [← here]
      exact fetched_line invariant inside
    obtain ⟨stays, read⟩ := invariant.insert placed (fun _ => fetched) (useClock + 1)
    refine ⟨_, _, _, _, ?_, stays, AList.lookup_insert cache, fun slot inside =>
      (read slot).trans ?_⟩
    · unfold ChunkFileMemoryBackend.ensureChunk
      rw [found]
      dsimp only
      rw [evicted]
      rfl
    · split
      next here =>
        have there : cache.lookup (slot / backend.linesPerChunk) = none := by
          rwa [show slot / backend.linesPerChunk = index from here]
        refine (fetched slot inside here).trans (Eq.trans ?_ (lines slot inside))
        exact (lineAt_files there).symm
      · exact lines slot inside

/-- After a flush every chunk is clean, and every line is in the files. -/
theorem Cached.flush (cached : backend.Cached) :
    backend.flush.Cached ∧
      ∀ slot < backend.lineCount, backend.flush.lineAt slot = backend.lineAt slot ∧
        backend.flush.files.bank.line backend.lineSize slot = backend.lineAt slot := by
  have placed : ∀ entry ∈ backend.cache.entries, Placed backend.lineSize backend.linesPerChunk
      backend.lineCount entry.1 entry.2 := fun entry member =>
    cached.placed entry.1 entry.2 (AList.mem_lookup_iff.mpr member)
  have written (slot : Nat) (inside : slot < backend.lineCount) :
      (writeChunks backend.lineSize backend.linesPerChunk backend.files.bank
        backend.cache.entries).line backend.lineSize slot = backend.lineAt slot := by
    rw [writeChunks_line backend.files.bank cached.aligned cached.positive inside
      backend.cache.nodupKeys placed]
    unfold lineAt AList.lookup
    split
    next chunk there =>
      split
      · rfl
      next unwritten =>
        exact (cached.clean slot chunk inside there (Bool.eq_false_of_not_eq_true unwritten)).symm
    · rfl
  have cleaned (index : Nat) : backend.flush.cache.lookup index =
      (backend.cache.lookup index).map fun chunk => { chunk with dirty := false } :=
    (AList.lookup_to_alist _).trans (List.dlookup_map₂ index)
  have lines (slot : Nat) (inside : slot < backend.lineCount) :
      backend.flush.lineAt slot = backend.lineAt slot := by
    show (backend.recache (writeChunks backend.lineSize backend.linesPerChunk backend.files.bank
      backend.cache.entries) backend.flush.cache backend.useClock).lineAt slot = _
    cases there : backend.cache.lookup (slot / backend.linesPerChunk) with
    | some chunk =>
      have found := cleaned (slot / backend.linesPerChunk)
      rw [there] at found
      exact (lineAt_cached found).trans (lineAt_cached there).symm
    | none =>
      have found := cleaned (slot / backend.linesPerChunk)
      rw [there] at found
      exact (lineAt_files found).trans (written slot inside)
  refine ⟨⟨cached.positive, cached.aligned, writeChunks_sized cached.sized cached.aligned placed,
    fun index chunk there => ?_, fun slot chunk inside there _ => ?_⟩, fun slot inside =>
    ⟨lines slot inside, written slot inside⟩⟩
  · rw [cleaned] at there
    obtain ⟨was, found, rfl⟩ := Option.map_eq_some_iff.mp there
    exact cached.placed index was found
  · have found : backend.flush.lineAt slot =
        chunk.bank.line backend.lineSize (slot % backend.linesPerChunk) := by
      unfold lineAt
      rw [there]
      rfl
    exact found.symm.trans ((lines slot inside).trans (written slot inside).symm)

end ChunkFileMemoryBackend

end HbmSim
