/-
The lines a memory image allocates. A write and an image load allocate the lines
they target at once, a read allocates none. But a row that is closed or flushed after
a write stores all the lines its buffer holds, also those a read has put there. So
the allocated lines are the targeted ones in every run in which a row that is stored
holds no other line.
-/

import HbmSim.Checkpoint
import HbmSim.ImageIsolation
import HbmSim.Lib.Transition
import HbmSim.TextImage

namespace HbmSim

/-! ### Allocated lines -/

/-- The lines a backend holds. -/
def allocated {β : Type} [MemoryBackend β] (backend : β) : Set Nat :=
  {base | ∃ line, MemoryBackend.load backend base = .ok (some line)}

/-- The list of a backend's addresses has the lines it holds. -/
class ListedBackend (β : Type) [CheckpointBackend β] : Prop extends LawfulCheckpointBackend β where
  mem_allAddresses (backend : β) (base : Nat) :
    base ∈ CheckpointBackend.allAddresses backend ↔ base ∈ allocated backend

instance : ListedBackend SparseMemoryBackend where
  mem_allAddresses backend base := by
    show base ∈ backend.lines.keys.mergeSort ↔
      ∃ line, Except.ok (backend.lines.lookup base) = .ok (some line)
    refine List.mem_mergeSort.trans ((@AList.lookup_isSome _ _ _ base backend.lines).symm.trans ?_)
    exact Option.isSome_iff_exists.trans
      (exists_congr fun line => ⟨congrArg Except.ok, Except.ok.inj⟩)

variable {β : Type} {image after : MemoryImage β} {base : Nat} {decoded : DecodedAddress}

/-! ### The lines of the open rows -/

/-- The lines a row buffer stores when its row is closed or flushed. -/
def RowBufferEntry.storedLines (entry : RowBufferEntry) : List Nat :=
  if entry.open = true ∧ entry.dirty = true then
    (entry.columns.entries.map Sigma.snd).map (·.physical.logicalLineBase)
  else []

/-- The lines that closing or flushing the row of a bank stores. -/
def MemoryImage.dirtyLines (image : MemoryImage β) (bankKey : StorageKey) : List Nat :=
  ((image.rowBuffers.lookup bankKey).map RowBufferEntry.storedLines).getD []

theorem setRowBuffer_dirtyLines (image : MemoryImage β) (bankKey other : StorageKey)
    (entry : RowBufferEntry) :
    (image.setRowBuffer bankKey entry).dirtyLines other =
      if other = bankKey then entry.storedLines else image.dirtyLines other := by
  unfold MemoryImage.dirtyLines
  split
  next here =>
    subst here
    rw [setRowBuffer_lookup]
    rfl
  next elsewhere =>
    have untouched : (image.setRowBuffer bankKey entry).rowBuffers.lookup other =
        image.rowBuffers.lookup other := AList.lookup_insert_ne elsewhere
    rw [untouched]

theorem putRowBufferBlock_backend (key : StorageKey) (block : DataBlock) :
    (image.putRowBufferBlock key block).backend = image.backend := by
  unfold MemoryImage.putRowBufferBlock
  split <;> rfl

theorem markDirty_backend (bankKey : StorageKey) :
    (image.markDirty bankKey).backend = image.backend := by
  unfold MemoryImage.markDirty
  split <;> rfl

/-- The row of the coordinates is the open row of its bank. -/
def MemoryImage.RowOpen (image : MemoryImage β) (decoded : DecodedAddress) : Prop :=
  ((image.rowBuffers.lookup (image.bankKeyFromDecoded decoded)).getD {}).open = true ∧
    ((image.rowBuffers.lookup (image.bankKeyFromDecoded decoded)).getD {}).rowKey =
      image.rowKeyFromDecoded decoded

instance (image : MemoryImage β) (decoded : DecodedAddress) : Decidable (image.RowOpen decoded) :=
  inferInstanceAs (Decidable (_ ∧ _))

section Store

variable [CheckpointBackend β] [LawfulCheckpointBackend β]

theorem storeBackendLine_allocated {block : DataBlock}
    (returns : image.storeBackendLine base block = .ok after) :
    allocated after.backend = insert base (allocated image.backend) ∧
      after.rowBuffers = image.rowBuffers := by
  obtain ⟨⟨inserted, backend⟩, stored, returned⟩ := bind_eq_ok.mp returns
  cases returned
  obtain ⟨-, -, others⟩ := LawfulMemoryBackend.store_ok _ _ _ _ _ stored
  obtain ⟨line, loaded, -⟩ := LawfulCheckpointBackend.store_keeps _ _ _ _ _ stored
  refine ⟨?_, rfl⟩
  ext other
  by_cases here : other = base
  · subst here
    exact ⟨fun _ => Or.inl rfl, fun _ => ⟨line, loaded⟩⟩
  · have same := others other here
    simp only [allocated, Set.mem_insert_iff, Set.mem_ofPred_eq, here, false_or]
    rw [same]

omit [LawfulCheckpointBackend β] in
/-- Steps that allocate one line each allocate the lines of the list. -/
theorem foldlM_allocated {α : Type} {step : MemoryImage β → α → Except Exception (MemoryImage β)}
    {lineOf : α → Nat} (items : List α)
    (each : ∀ item ∈ items, ∀ before next, step before item = .ok next →
      allocated next.backend = insert (lineOf item) (allocated before.backend))
    (returns : items.foldlM step image = .ok after) :
    allocated after.backend = allocated image.backend ∪ {base | base ∈ items.map lineOf} := by
  induction items generalizing image with
  | nil =>
    cases returns
    ext base
    simp
  | cons item rest inductionHypothesis =>
    rw [List.foldlM_cons] at returns
    obtain ⟨middle, first, later⟩ := bind_eq_ok.mp returns
    rw [inductionHypothesis (fun other member => each other (List.mem_cons_of_mem _ member)) later,
      each item List.mem_cons_self _ _ first]
    ext base
    simp only [Set.mem_union, Set.mem_insert_iff, Set.mem_ofPred_eq, List.map_cons,
      List.mem_cons]
    tauto

theorem storeColumn_allocated {block : DataBlock} {cycle : Nat}
    (returns : image.storeColumn cycle block = .ok after) :
    allocated after.backend = insert block.physical.logicalLineBase (allocated image.backend) ∧
      after.rowBuffers = image.rowBuffers :=
  storeBackendLine_allocated returns

/-! ### Closing and flushing rows -/

/-- The row of one bank is stored, if it must, and the other rows are left. -/
structure StoresRow (image after : MemoryImage β) (bankKey : StorageKey) : Prop where
  backend : allocated after.backend =
    allocated image.backend ∪ {base | base ∈ image.dirtyLines bankKey}
  rows : ∀ other, after.dirtyLines other =
    if other = bankKey then [] else image.dirtyLines other

omit [LawfulCheckpointBackend β] in
/-- A row with nothing to store stays as it is. -/
theorem StoresRow.refl {bankKey : StorageKey} (nothing : image.dirtyLines bankKey = []) :
    StoresRow image image bankKey where
  backend := by
    ext base
    simp [nothing]
  rows other := by
    split
    next here => rw [here, nothing]
    · rfl

omit [LawfulCheckpointBackend β] in
/-- A row buffer that is replaced, after its lines are stored, by one with nothing to store. -/
theorem StoresRow.of_replace {middle : MemoryImage β} {bankKey : StorageKey}
    {entry : RowBufferEntry} (stored : allocated middle.backend =
      allocated image.backend ∪ {base | base ∈ image.dirtyLines bankKey})
    (same : middle.rowBuffers = image.rowBuffers) (nothing : entry.storedLines = []) :
    StoresRow image (middle.setRowBuffer bankKey entry) bankKey where
  backend := stored
  rows other := by
    rw [setRowBuffer_dirtyLines, nothing]
    unfold MemoryImage.dirtyLines
    rw [same]

theorem storeColumns_allocated {cycle : Nat} {blocks : List DataBlock}
    (returns : blocks.foldlM (MemoryImage.storeColumn cycle) image = .ok after) :
    allocated after.backend = allocated image.backend ∪
        {base | base ∈ blocks.map (·.physical.logicalLineBase)} ∧
      after.rowBuffers = image.rowBuffers := by
  refine ⟨foldlM_allocated blocks (fun _ _ _ _ stores => (storeColumn_allocated stores).1) returns,
    ?_⟩
  exact foldlM_keeps (fun middle : MemoryImage β => middle.rowBuffers = image.rowBuffers)
    (fun _ _ _ rows stores => (storeColumn_allocated stores).2.trans rows) blocks rfl returns

theorem writebackRowBuffer_stores {bankKey : StorageKey} {cycle : Nat}
    (returns : image.writebackRowBuffer bankKey cycle = .ok after) :
    StoresRow image after bankKey := by
  unfold MemoryImage.writebackRowBuffer at returns
  cases lookup : image.rowBuffers.lookup bankKey with
  | none =>
    rw [lookup] at returns
    cases returns
    refine StoresRow.refl ?_
    rw [MemoryImage.dirtyLines, lookup]
    rfl
  | some entry =>
    rw [lookup] at returns
    dsimp only at returns
    have lines : image.dirtyLines bankKey = entry.storedLines := by
      rw [MemoryImage.dirtyLines, lookup]
      rfl
    split at returns
    next closed =>
      cases returns
      refine StoresRow.refl ?_
      rw [lines, RowBufferEntry.storedLines, closed]
      rfl
    next isOpen =>
      rw [Bool.not_eq_false] at isOpen
      split at returns
      next clean =>
        cases returns
        refine StoresRow.of_replace ?_ rfl rfl
        rw [lines, RowBufferEntry.storedLines,
          if_neg fun both => Bool.false_ne_true (clean.symm.trans both.2)]
        ext base
        simp
      next dirty =>
        rw [Bool.not_eq_false] at dirty
        obtain ⟨middle, stores, returned⟩ := bind_eq_ok.mp returns
        cases returned
        obtain ⟨stored, same⟩ := storeColumns_allocated stores
        refine StoresRow.of_replace ?_ same rfl
        rw [lines, RowBufferEntry.storedLines, if_pos ⟨isOpen, dirty⟩]
        exact stored

theorem flushRowBuffer_stores {bankKey : StorageKey} {cycle : Nat}
    (returns : image.flushRowBuffer cycle bankKey = .ok after) :
    StoresRow image after bankKey := by
  unfold MemoryImage.flushRowBuffer at returns
  cases lookup : image.rowBuffers.lookup bankKey with
  | none =>
    rw [lookup] at returns
    cases returns
    refine StoresRow.refl ?_
    rw [MemoryImage.dirtyLines, lookup]
    rfl
  | some entry =>
    rw [lookup] at returns
    dsimp only at returns
    have lines : image.dirtyLines bankKey = entry.storedLines := by
      rw [MemoryImage.dirtyLines, lookup]
      rfl
    split at returns
    next nothing =>
      cases returns
      refine StoresRow.refl ?_
      rw [lines, RowBufferEntry.storedLines, if_neg]
      rintro ⟨isOpen, dirty⟩
      rw [isOpen, dirty] at nothing
      simp at nothing
    next something =>
      rw [not_or, Bool.not_eq_false, Bool.not_eq_false] at something
      obtain ⟨middle, stores, returned⟩ := bind_eq_ok.mp returns
      cases returned
      obtain ⟨stored, same⟩ := storeColumns_allocated stores
      refine StoresRow.of_replace ?_ same (if_neg fun both => Bool.false_ne_true both.2)
      rw [lines, RowBufferEntry.storedLines, if_pos something]
      exact stored

omit [LawfulCheckpointBackend β] in
/-- Storing the rows of several banks, one after the other. -/
theorem storeRows_allocated
    {step : MemoryImage β → StorageKey → Except Exception (MemoryImage β)}
    (each : ∀ before next bankKey, step before bankKey = .ok next → StoresRow before next bankKey)
    {targets : List StorageKey} (returns : targets.foldlM step image = .ok after) :
    allocated after.backend =
      allocated image.backend ∪ {base | base ∈ targets.flatMap image.dirtyLines} := by
  induction targets generalizing image with
  | nil =>
    cases returns
    ext base
    simp
  | cons bankKey rest inductionHypothesis =>
    rw [List.foldlM_cons] at returns
    obtain ⟨middle, first, later⟩ := bind_eq_ok.mp returns
    have stores := each _ _ _ first
    rw [inductionHypothesis later, stores.backend, Set.union_assoc]
    refine congrArg _ ?_
    ext base
    simp only [Set.mem_union, Set.mem_ofPred_eq, List.flatMap_cons, List.mem_append,
      List.mem_flatMap, stores.rows]
    refine or_congr_right' fun elsewhere => exists_congr fun other => and_congr_right fun _ => ?_
    split
    next here =>
      rw [here]
      exact iff_of_false List.not_mem_nil elsewhere
    · exact Iff.rfl

/-- A row that opens closes another open row of its bank. -/
theorem activateRow_allocated {cycle : Nat}
    (returns : image.activateRow decoded cycle = .ok after) :
    allocated after.backend = allocated image.backend ∪
      {base | base ∈ if image.RowOpen decoded then []
        else image.dirtyLines (image.bankKeyFromDecoded decoded)} := by
  obtain ⟨_, -, returns⟩ := bind_eq_ok.mp returns
  dsimp only at returns
  split at returns
  next same =>
    cases returns
    rw [if_pos (show image.RowOpen decoded from same)]
    show allocated image.backend = _
    simp
  next other =>
    rw [if_neg (show ¬ image.RowOpen decoded from other)]
    split at returns
    next =>
      obtain ⟨closed, closes, returned⟩ := bind_eq_ok.mp returns
      cases returned
      exact (writebackRowBuffer_stores closes).backend
    next closed =>
      cases returns
      have nothing : image.dirtyLines (image.bankKeyFromDecoded decoded) = [] := by
        unfold MemoryImage.dirtyLines
        cases lookup : image.rowBuffers.lookup (image.bankKeyFromDecoded decoded) with
        | none => rfl
        | some entry =>
          rw [lookup] at closed
          exact if_neg fun both => closed both.1
      rw [nothing]
      show allocated image.backend = _
      simp

/-! ### Reads and writes -/

omit [LawfulCheckpointBackend β] in
theorem rowBufferBlock_backend {place : Option DecodedAddress} {cycle : Nat}
    {found : Option (StorageKey × DataBlock)}
    (returns : image.rowBufferBlock base place cycle = .ok (found, after)) :
    after.backend = image.backend := by
  unfold MemoryImage.rowBufferBlock at returns
  split at returns
  · cases returns
    rfl
  obtain ⟨key, -, returns⟩ := bind_eq_ok.mp returns
  dsimp only at returns
  split at returns
  · cases returns
    rfl
  split at returns
  · cases returns
    rfl
  · obtain ⟨_, -, returns⟩ := bind_eq_ok.mp returns
    obtain ⟨_, -, returned⟩ := bind_eq_ok.mp returns
    cases returned
    exact putRowBufferBlock_backend _ _

omit [LawfulCheckpointBackend β] in
/-- A line that can be loaded is one of the backend's. -/
theorem loadBackendLine_isSome {place : Option DecodedAddress} {stored : Option DataBlock}
    (loads : image.loadBackendLine base place = .ok stored) :
    stored.isSome = true ↔ base ∈ allocated image.backend := by
  obtain ⟨line, loaded, loads⟩ := bind_eq_ok.mp loads
  cases line with
  | none =>
    cases loads
    refine iff_of_false Bool.false_ne_true ?_
    rintro ⟨line, is⟩
    cases loaded.symm.trans is
  | some line =>
    refine iff_of_true ?_ ⟨line, loaded⟩
    dsimp only at loads
    split at loads
    all_goals
      obtain ⟨_, -, loads⟩ := bind_eq_ok.mp loads
      obtain ⟨_, -, returned⟩ := bind_eq_ok.mp loads
      cases returned
      rfl

omit [LawfulCheckpointBackend β] in
theorem insert_of_loaded {place : Option DecodedAddress} {block : DataBlock}
    (loads : image.loadBackendLine base place = .ok (some block)) :
    insert base (allocated image.backend) = allocated image.backend :=
  Set.insert_eq_of_mem ((loadBackendLine_isSome loads).mp rfl)

/-- A read stores a line back only if it has loaded it. -/
theorem readSpan_allocated {span : LineSpan} {place : Option DecodedAddress} {bytes : ByteVector}
    {initialized : Bool} (returns : image.readSpan span place = .ok (bytes, initialized, after)) :
    allocated after.backend = allocated image.backend := by
  obtain ⟨⟨hit, middle⟩, looks, continues⟩ := bind_eq_ok.mp returns
  have same := rowBufferBlock_backend looks
  cases hit with
  | some pair =>
    cases continues
    rw [putRowBufferBlock_backend]
    exact congrArg allocated same
  | none =>
    obtain ⟨stored, loads, rest⟩ := bind_eq_ok.mp continues
    rw [← same]
    cases stored with
    | none =>
      cases rest
      rfl
    | some block =>
      dsimp only at rest
      split at rest
      · obtain ⟨settled, stores, returned⟩ := bind_eq_ok.mp rest
        cases returned
        exact (storeBackendLine_allocated stores).1.trans (insert_of_loaded loads)
      · cases rest
        rfl

theorem read_allocated {address size : Nat} {place : Option DecodedAddress} {bytes : ByteVector}
    {initialized : Bool}
    (returns : image.read address size place = .ok (bytes, initialized, after)) :
    allocated after.backend = allocated image.backend := by
  obtain ⟨_, -, returns⟩ := bind_eq_ok.mp returns
  refine foldlM_keeps (fun result : ByteVector × Bool × MemoryImage β =>
    allocated result.2.2.backend = allocated image.backend) (fun result span next same steps => ?_)
    _ rfl returns
  obtain ⟨⟨some, flag, middle⟩, reads, returned⟩ := bind_eq_ok.mp steps
  cases returned
  exact (readSpan_allocated reads).trans same

/-- A span of a write allocates its line, in an open row as well. -/
theorem writeSpan_allocated {span : LineSpan} {place : Option DecodedAddress} {data : ByteVector}
    {mask : Option ByteVector} {stamp : MemoryImage.WriteStamp}
    (returns : image.writeSpan span place data mask stamp = .ok after) :
    allocated after.backend = insert span.base (allocated image.backend) := by
  obtain ⟨stored, loads, returns⟩ := bind_eq_ok.mp returns
  obtain ⟨backing, -, returns⟩ := bind_eq_ok.mp returns
  obtain ⟨⟨hit, middle⟩, looks, continues⟩ := bind_eq_ok.mp returns
  have same := rowBufferBlock_backend looks
  rw [← same]
  cases hit with
  | none => exact (storeBackendLine_allocated continues).1
  | some pair =>
    obtain ⟨settled, missing, continues⟩ := bind_eq_ok.mp continues
    have stores : allocated settled.backend = insert span.base (allocated middle.backend) := by
      unfold MemoryImage.storeMissing at missing
      split at missing
      · exact (storeBackendLine_allocated missing).1
      next present =>
        cases missing
        rw [same, Option.isNone_iff_eq_none, ← ne_eq, Option.ne_none_iff_isSome] at *
        exact (Set.insert_eq_of_mem ((loadBackendLine_isSome loads).mp present)).symm
    rw [← stores]
    dsimp only at continues
    split at continues
    · cases continues
      rw [markDirty_backend, putRowBufferBlock_backend]
      rfl
    · cases continues
      rw [putRowBufferBlock_backend]
      rfl

theorem write_allocated {address : Nat} {data : ByteVector} {mask : Option ByteVector}
    {place : Option DecodedAddress} {stamp : MemoryImage.WriteStamp}
    (returns : image.write address data mask place stamp = .ok after) :
    allocated after.backend = allocated image.backend ∪
      {base | base ∈ (lineSpans image.lineSize address data.length).map LineSpan.base} := by
  obtain ⟨_, -, returns⟩ := bind_eq_ok.mp returns
  obtain ⟨_, -, returns⟩ := bind_eq_ok.mp returns
  exact foldlM_allocated _ (fun _ _ _ _ writes => writeSpan_allocated writes) returns

theorem loadTextLine_allocated {line : TextLine} (returns : image.loadTextLine line = .ok after) :
    allocated after.backend = allocated image.backend ∪
      {base | base ∈ (lineSpans image.lineSize line.address line.data.length).map
        LineSpan.base} := by
  obtain ⟨_, -, returns⟩ := bind_eq_ok.mp returns
  refine foldlM_allocated _ (fun span _ before next loads => ?_) returns
  obtain ⟨_, -, loads⟩ := bind_eq_ok.mp loads
  obtain ⟨_, -, stores⟩ := bind_eq_ok.mp loads
  exact (storeBackendLine_allocated stores).1

end Store

/-! ### The operations -/

inductive StorageOp where
  | activateRow (decoded : DecodedAddress) (cycle : Nat)
  | prechargeBank (decoded : DecodedAddress) (cycle : Nat)
  | prechargeAll (decoded : DecodedAddress) (cycle : Nat)
  | flushDirtyRowBuffers (cycle : Nat)
  | flushAllRowBuffers (cycle : Nat)
  | read (address size : Nat) (decoded : Option DecodedAddress)
  | write (address : Nat) (data : ByteVector) (mask : Option ByteVector)
      (decoded : Option DecodedAddress) (stamp : MemoryImage.WriteStamp)
  | loadTextLine (line : TextLine)
  | loadBinary (path : String) (file : Option ByteVector)

namespace StorageOp

/-- The lines a binary file has entries for. -/
def entryLines (lineSize : Nat) (path : String) : Option ByteVector → List Nat
  | none => []
  | some input =>
    match Checkpoint.readHeader path lineSize input with
    | .error _ => []
    | .ok (entryCount, body) =>
      match Checkpoint.readEntries lineSize entryCount 0 body with
      | .error _ => []
      | .ok (entries, _) => entries.map Checkpoint.Entry.base

/-- The lines a write or an image load targets. -/
def targets (lineSize : Nat) : StorageOp → List Nat
  | .write address data _ _ _ => (lineSpans lineSize address data.length).map LineSpan.base
  | .loadTextLine line => (lineSpans lineSize line.address line.data.length).map LineSpan.base
  | .loadBinary path file => entryLines lineSize path file
  | _ => []

/-- Whether the operation first drops all the image holds. -/
def replaces : StorageOp → Bool
  | .loadBinary .. => true
  | _ => false

end StorageOp

/-- The targeted lines after an operation. -/
def StorageOp.addTargets (lineSize : Nat) (lines : List Nat) (op : StorageOp) : List Nat :=
  (if op.replaces then [] else lines) ++ op.targets lineSize

/-- The lines that are targeted by a write or an image load, since the last load that replaces the
image. -/
def targetedLines (lineSize : Nat) (ops : List StorageOp) : List Nat :=
  ops.foldl (StorageOp.addTargets lineSize) []

namespace MemoryImage

variable [CheckpointBackend β]

def applyStorage (image : MemoryImage β) :
    StorageOp → Except Exception (List ByteVector × MemoryImage β)
  | .activateRow decoded cycle => do return ([], ← image.activateRow decoded cycle)
  | .prechargeBank decoded cycle => do return ([], ← image.prechargeBank decoded cycle)
  | .prechargeAll decoded cycle => do return ([], ← image.prechargeAll decoded cycle)
  | .flushDirtyRowBuffers cycle => do return ([], ← image.flushDirtyRowBuffers cycle)
  | .flushAllRowBuffers cycle => do return ([], ← image.flushAllRowBuffers cycle)
  | .read address size decoded => do
    let (bytes, _, image) ← image.read address size decoded
    return ([bytes], image)
  | .write address data mask decoded stamp => do
    return ([], ← image.write address data mask decoded stamp)
  | .loadTextLine line => do return ([], ← image.loadTextLine line)
  | .loadBinary path file =>
    match image.loadBinary path file with
    | (.error error, _) => .error error
    | (.ok _, image) => .ok ([], image)

/-- The lines that the rows the operation closes or flushes store. -/
def storedByRows (image : MemoryImage β) : StorageOp → List Nat
  | .activateRow decoded _ =>
    if image.RowOpen decoded then [] else image.dirtyLines (image.bankKeyFromDecoded decoded)
  | .prechargeBank decoded _ => image.dirtyLines (image.bankKeyFromDecoded decoded)
  | .prechargeAll decoded _ => (image.openBanks fun key =>
      key.channel = decoded.channel ∧ key.pseudoChannel = decoded.pseudoChannel ∧
        key.sid = decoded.sid ∧ key.rank = decoded.rank).flatMap image.dirtyLines
  | .flushDirtyRowBuffers _ => image.rowBuffers.keys.flatMap image.dirtyLines
  | .flushAllRowBuffers _ => (image.openBanks fun _ => true).flatMap image.dirtyLines
  | _ => []

/-- The rows that the operation closes or flushes store no line that is not allocated. -/
def StoresAllocated (image : MemoryImage β) (op : StorageOp) : Prop :=
  ∀ base ∈ image.storedByRows op, base ∈ allocated image.backend

/-- A new image: its backend is new, and no row is open. -/
def IsNew (image : MemoryImage β) : Prop :=
  (∃ capacity, MemoryBackend.make image.lineSize capacity = .ok image.backend) ∧
    image.rowBuffers = ∅

end MemoryImage

section Run

variable [CheckpointBackend β] {op : StorageOp} {ops : List StorageOp}
variable {outputs : List ByteVector}

theorem loadTextLine_lineSize {line : TextLine} (returns : image.loadTextLine line = .ok after) :
    after.lineSize = image.lineSize := by
  obtain ⟨_, -, returns⟩ := bind_eq_ok.mp returns
  refine foldlM_keeps (fun middle : MemoryImage β => middle.lineSize = image.lineSize)
    (fun before span next same loads => ?_) _ rfl returns
  obtain ⟨_, -, loads⟩ := bind_eq_ok.mp loads
  obtain ⟨_, -, stores⟩ := bind_eq_ok.mp loads
  have kept := storeBackendLine_config stores
  exact (lineSize_eq kept).trans same

variable [LawfulCheckpointBackend β]

theorem applyStorage_lineSize (returns : image.applyStorage op = .ok (outputs, after)) :
    after.lineSize = image.lineSize := by
  cases op with
  | activateRow =>
    obtain ⟨_, activates, returned⟩ := bind_eq_ok.mp returns
    cases returned
    exact lineSize_eq (activateRow_config activates)
  | prechargeBank =>
    obtain ⟨_, closes, returned⟩ := bind_eq_ok.mp returns
    cases returned
    obtain ⟨_, -, closes⟩ := bind_eq_ok.mp closes
    exact lineSize_eq (writebackRowBuffer_config closes)
  | prechargeAll =>
    obtain ⟨_, closes, returned⟩ := bind_eq_ok.mp returns
    cases returned
    obtain ⟨_, -, closes⟩ := bind_eq_ok.mp closes
    exact lineSize_eq (writebackAll_config closes)
  | flushDirtyRowBuffers =>
    obtain ⟨_, flushes, returned⟩ := bind_eq_ok.mp returns
    cases returned
    exact lineSize_eq (flushDirtyRowBuffers_config flushes)
  | flushAllRowBuffers =>
    obtain ⟨_, closes, returned⟩ := bind_eq_ok.mp returns
    cases returned
    exact lineSize_eq (writebackAll_config closes)
  | read =>
    obtain ⟨_, reads, returned⟩ := bind_eq_ok.mp returns
    cases returned
    exact lineSize_eq (read_config reads)
  | write address data mask place stamp =>
    obtain ⟨_, writes, returned⟩ := bind_eq_ok.mp returns
    cases returned
    obtain ⟨_, -, writes⟩ := bind_eq_ok.mp writes
    obtain ⟨_, -, writes⟩ := bind_eq_ok.mp writes
    exact foldlM_keeps (fun middle : MemoryImage β => middle.lineSize = image.lineSize)
      (fun _ _ _ same spans => (lineSize_eq (writeSpan_config spans)).trans same) _ rfl writes
  | loadTextLine =>
    obtain ⟨_, loads, returned⟩ := bind_eq_ok.mp returns
    cases returned
    exact loadTextLine_lineSize loads
  | loadBinary path file =>
    unfold MemoryImage.applyStorage at returns
    dsimp only at returns
    split at returns
    · cases returns
    next loads =>
      cases returns
      obtain ⟨_, _, _, _, _, -, -, -, size, -⟩ := Checkpoint.loadBinary_success loads
      exact size

omit [CheckpointBackend β] [LawfulCheckpointBackend β] in
theorem mem_loadBinary_targets {path : String} {input body : ByteVector} {entryCount : Nat}
    {entries : List Checkpoint.Entry} {rest : ByteVector}
    (header : Checkpoint.readHeader path image.lineSize input = .ok (entryCount, body))
    (reads : Checkpoint.readEntries image.lineSize entryCount 0 body = .ok (entries, rest)) :
    base ∈ (StorageOp.loadBinary path (some input)).targets image.lineSize ↔
      (Checkpoint.latest entries base).isSome = true := by
  have lines : (StorageOp.loadBinary path (some input)).targets image.lineSize =
      entries.map Checkpoint.Entry.base := by
    unfold StorageOp.targets StorageOp.entryLines
    dsimp only
    rw [header]
    dsimp only
    rw [reads]
  rw [lines, Checkpoint.latest, List.find?_isSome, List.mem_map]
  simp only [List.mem_reverse, decide_eq_true_eq]

theorem loadBinary_allocated {path : String} {file : Option ByteVector} {value : Unit}
    (returns : image.loadBinary path file = (.ok value, after)) :
    allocated after.backend =
      {base | base ∈ (StorageOp.loadBinary path file).targets image.lineSize} := by
  obtain ⟨input, _, _, entries, _, rfl, header, reads, -, -, restored⟩ :=
    Checkpoint.loadBinary_success returns
  ext base
  rw [Set.mem_ofPred_eq, mem_loadBinary_targets header reads]
  cases latest : Checkpoint.latest entries base with
  | none =>
    refine iff_of_false ?_ Bool.false_ne_true
    rintro ⟨line, loads⟩
    cases restored.only latest loads
  | some entry =>
    obtain ⟨line, loads, -⟩ := restored.there latest
    exact iff_of_true ⟨line, loads⟩ rfl

omit [CheckpointBackend β] [LawfulCheckpointBackend β] in
theorem union_nil (lines : Set Nat) : lines ∪ {base | base ∈ ([] : List Nat)} = lines := by
  ext base
  simp

/-- What an operation allocates: the lines that rows store, and the lines it targets. -/
theorem applyStorage_allocated (returns : image.applyStorage op = .ok (outputs, after)) :
    allocated after.backend =
      (if op.replaces then ∅
        else allocated image.backend ∪ {base | base ∈ image.storedByRows op}) ∪
      {base | base ∈ op.targets image.lineSize} := by
  cases op with
  | activateRow =>
    obtain ⟨_, activates, returned⟩ := bind_eq_ok.mp returns
    cases returned
    exact (activateRow_allocated activates).trans (union_nil _).symm
  | prechargeBank =>
    obtain ⟨_, closes, returned⟩ := bind_eq_ok.mp returns
    cases returned
    obtain ⟨_, -, closes⟩ := bind_eq_ok.mp closes
    exact (writebackRowBuffer_stores closes).backend.trans (union_nil _).symm
  | prechargeAll =>
    obtain ⟨_, closes, returned⟩ := bind_eq_ok.mp returns
    cases returned
    obtain ⟨_, -, closes⟩ := bind_eq_ok.mp closes
    exact (storeRows_allocated (fun _ _ _ => writebackRowBuffer_stores) closes).trans
      (union_nil _).symm
  | flushDirtyRowBuffers =>
    obtain ⟨_, flushes, returned⟩ := bind_eq_ok.mp returns
    cases returned
    exact (storeRows_allocated (fun _ _ _ => flushRowBuffer_stores) flushes).trans
      (union_nil _).symm
  | flushAllRowBuffers =>
    obtain ⟨_, closes, returned⟩ := bind_eq_ok.mp returns
    cases returned
    exact (storeRows_allocated (fun _ _ _ => writebackRowBuffer_stores) closes).trans
      (union_nil _).symm
  | read =>
    obtain ⟨_, reads, returned⟩ := bind_eq_ok.mp returns
    cases returned
    exact ((read_allocated reads).trans (union_nil _).symm).trans (union_nil _).symm
  | write =>
    obtain ⟨_, writes, returned⟩ := bind_eq_ok.mp returns
    cases returned
    exact (write_allocated writes).trans (congrArg (· ∪ _) (union_nil _).symm)
  | loadTextLine =>
    obtain ⟨_, loads, returned⟩ := bind_eq_ok.mp returns
    cases returned
    exact (loadTextLine_allocated loads).trans (congrArg (· ∪ _) (union_nil _).symm)
  | loadBinary path file =>
    unfold MemoryImage.applyStorage at returns
    dsimp only at returns
    split at returns
    · cases returns
    next loads =>
      cases returns
      exact (loadBinary_allocated loads).trans (Set.empty_union _).symm

/-- Exactly then an operation that adds to the image allocates the lines it targets and no other,
if its rows store allocated lines only. -/
theorem applyStorage_allocated_iff (returns : image.applyStorage op = .ok (outputs, after))
    (adds : op.replaces = false) :
    allocated after.backend = allocated image.backend ∪ {base | base ∈ op.targets image.lineSize} ↔
      ∀ base ∈ image.storedByRows op,
        base ∈ allocated image.backend ∪ {base | base ∈ op.targets image.lineSize} := by
  rw [applyStorage_allocated returns, adds, if_neg Bool.false_ne_true, Set.union_right_comm,
    Set.union_eq_left]
  exact Iff.rfl

theorem MemoryImage.StoresAllocated.allocated (stores : image.StoresAllocated op)
    (returns : image.applyStorage op = .ok (outputs, after)) :
    allocated after.backend =
      (if op.replaces then ∅ else HbmSim.allocated image.backend) ∪
        {base | base ∈ op.targets image.lineSize} := by
  cases adds : op.replaces with
  | true =>
    rw [applyStorage_allocated returns, adds]
    rfl
  | false =>
    refine (applyStorage_allocated_iff returns adds).mpr fun base row => ?_
    exact Or.inl (stores base row)

theorem run_allocated {final : MemoryImage β} {lines : List Nat}
    (targeted : allocated image.backend = {base | base ∈ lines})
    (meets : Transition.Meets MemoryImage.applyStorage MemoryImage.StoresAllocated image ops)
    (returns : Transition.run MemoryImage.applyStorage image ops = .ok (outputs, final)) :
    allocated final.backend =
      {base | base ∈ ops.foldl (StorageOp.addTargets image.lineSize) lines} := by
  induction ops generalizing image outputs lines with
  | nil =>
    cases returns
    exact targeted
  | cons op rest inductionHypothesis =>
    obtain ⟨now, next, later, steps, runs, -⟩ := Transition.run_cons returns
    rw [← applyStorage_lineSize steps]
    refine inductionHypothesis ?_ (meets.2 _ _ steps) runs
    rw [meets.1.allocated steps, targeted, applyStorage_lineSize steps]
    ext base
    unfold StorageOp.addTargets
    split <;> simp

omit [LawfulCheckpointBackend β] in
theorem MemoryImage.IsNew.allocated [LawfulMemoryBackend β] (isNew : image.IsNew) :
    allocated image.backend = {base | base ∈ ([] : List Nat)} := by
  obtain ⟨⟨capacity, made⟩, -⟩ := isNew
  ext base
  refine iff_of_false ?_ List.not_mem_nil
  rintro ⟨line, loads⟩
  cases (LawfulMemoryBackend.make_ok _ _ _ made).2.2 base _ loads

end Run

/-- From a new image, in every run in which the rows that are closed or flushed store only lines
that are allocated already, the allocated lines, which a checkpoint writes out, are those targeted
by a write or an image load since the last load that replaced the image. -/
theorem mem_allAddresses_iff_targeted [CheckpointBackend β] [ListedBackend β]
    {start final : MemoryImage β} (isNew : start.IsNew) {ops : List StorageOp}
    (meets : Transition.Meets MemoryImage.applyStorage MemoryImage.StoresAllocated start ops)
    {outputs : List ByteVector}
    (returns : Transition.run MemoryImage.applyStorage start ops = .ok (outputs, final))
    (base : Nat) :
    base ∈ CheckpointBackend.allAddresses final.backend ↔
      base ∈ targetedLines start.lineSize ops := by
  rw [ListedBackend.mem_allAddresses, run_allocated isNew.allocated meets returns]
  rfl

instance [CheckpointBackend β] (backend : β) (base : Nat) : Decidable (base ∈ allocated backend) :=
  match loads : MemoryBackend.load backend base with
  | .ok (some line) => .isTrue ⟨line, loads⟩
  | .ok none => .isFalse fun holds => by
    obtain ⟨line, is⟩ := holds
    cases loads.symm.trans is
  | .error _ => .isFalse fun holds => by
    obtain ⟨line, is⟩ := holds
    cases loads.symm.trans is

instance [CheckpointBackend β] (image : MemoryImage β) (op : StorageOp) :
    Decidable (image.StoresAllocated op) :=
  inferInstanceAs (Decidable (∀ base ∈ image.storedByRows op, base ∈ allocated image.backend))

/-- A read of a line nobody wrote, in a row that is closed clean, and then a write to its row. -/
def readThenWrite : List StorageOp :=
  [.activateRow { row := 0 } 0, .read 4 4 (some { row := 0, column := 1 }), .prechargeBank {} 1,
    .activateRow { row := 0 } 2, .write 0 [1, 2] none (some {}) {}, .prechargeBank {} 3]

/-- The small device with its own capacity. -/
def fullImage : MemoryImage SparseMemoryBackend := smallImage { capacityBytes := 16 }

theorem mem_allAddresses_iff_targeted_small : ∃ outputs final,
    Transition.run MemoryImage.applyStorage fullImage readThenWrite = .ok (outputs, final) ∧
      targetedLines 4 readThenWrite = [0] ∧
      ∀ base, base ∈ CheckpointBackend.allAddresses final.backend ↔
        base ∈ targetedLines 4 readThenWrite := by
  have meets : Transition.Meets MemoryImage.applyStorage MemoryImage.StoresAllocated fullImage
      readThenWrite := Transition.meets_of_check _ _ (by decide +kernel)
  have returns : ∃ result, Transition.run MemoryImage.applyStorage fullImage readThenWrite =
      .ok result := ⟨_, rfl⟩
  obtain ⟨⟨outputs, final⟩, returns⟩ := returns
  exact ⟨outputs, final, returns, by decide,
    mem_allAddresses_iff_targeted ⟨⟨16, rfl⟩, rfl⟩ meets returns⟩

/-- A write and then a read of another line of its row. -/
def writeThenRead : List StorageOp :=
  [.activateRow { row := 0 } 0, .write 0 [1, 2] none (some {}) {},
    .read 4 4 (some { row := 0, column := 1 }), .prechargeBank {} 1]

/-- Closing the row stores both lines. -/
theorem read_line_allocated : MemoryImage.create smallSpec 0 {} = .ok fullImage ∧
    ∃ outputs final,
      Transition.run MemoryImage.applyStorage fullImage writeThenRead = .ok (outputs, final) ∧
        4 ∈ CheckpointBackend.allAddresses final.backend ∧
        4 ∉ targetedLines 4 writeThenRead := by
  refine ⟨rfl, _, _, rfl, ?_, by decide⟩
  rw [ListedBackend.mem_allAddresses]
  exact ⟨_, rfl⟩

end HbmSim
