/-
Reads are answered as by a memory that executes every request when it accepts it.

A write waits in the write buffer, goes to the image or through the PHY, and
overtakes other requests on the way; a read is answered from the buffer or from
the image, long after it was accepted. When all accesses are to blocks of one
size, every read still returns the content at its acceptance: the writes
accepted before it, and no later ones.

With a behavioral PHY this holds for writes without a mask only: a read that a
masked pending write answers in part takes the other bytes from the image, which
the writes in the PHY have not reached.
-/

import HbmSim.BlockAccess
import HbmSim.InFlight
import HbmSim.Lib.History
import HbmSim.Lib.Replay

namespace HbmSim

/-! ### The reference memory -/

section Reference

variable {spec : DramSpec} {initial content : Patch Nat UInt8}
variable {history more : List ControllerEvent} {sequence : Nat} {request : Request}

/-- An accepted write lays its bytes over the content; nothing else changes it. -/
def writtenBy (spec : DramSpec) (content : Patch Nat UInt8) :
    ControllerEvent → Patch Nat UInt8
  | .accepted _ request =>
    if request.type = .write then (ensureWritePayload spec request).patch.onto content
    else content
  | _ => content

/-- The content after the accepted writes, in the order of their acceptance. -/
def written (spec : DramSpec) (initial : Patch Nat UInt8) (history : List ControllerEvent) :
    Patch Nat UInt8 :=
  history.foldl (writtenBy spec) initial

def acceptedAs (sequence : Nat) : ControllerEvent → Bool
  | .accepted other _ => decide (other = sequence)
  | _ => false

/-- The request was accepted with the sequence, and found the content. -/
def Found (spec : DramSpec) (initial : Patch Nat UInt8) (history : List ControllerEvent)
    (sequence : Nat) (request : Request) (content : Patch Nat UInt8) : Prop :=
  Replay.meets (writtenBy spec) (acceptedAs sequence) initial history =
    some (.accepted sequence request, content)

theorem Found.append (found : Found spec initial history sequence request content)
    (more : List ControllerEvent) :
    Found spec initial (history ++ more) sequence request content :=
  Replay.meets_append found

theorem Found.unique (found : Found spec initial history sequence request content)
    {other : Request} {others : Patch Nat UInt8}
    (again : Found spec initial history sequence other others) :
    other = request ∧ others = content := by
  have same := Option.some.inj (again.symm.trans found)
  obtain ⟨events, contents⟩ := Prod.mk.inj same
  cases events
  exact ⟨rfl, contents⟩

/-- A request with a new sequence finds what was written so far. -/
theorem found_concat (fresh : ∀ other request, .accepted other request ∈ history → other ≠ sequence)
    (request : Request) :
    Found spec initial (history ++ [.accepted sequence request]) sequence request
      (written spec initial history) := by
  refine Replay.meets_concat (fun event member => ?_) (decide_eq_true rfl)
  cases event with
  | accepted other request => exact decide_eq_false (fresh other request member)
  | issued => rfl
  | responded => rfl

theorem Found.splits (found : Found spec initial history sequence request content) :
    ∃ earlier later, history = earlier ++ .accepted sequence request :: later ∧
      content = written spec initial earlier := by
  obtain ⟨earlier, later, splits, -, reached⟩ := Replay.meets_splits found
  exact ⟨earlier, later, splits, reached⟩

/-- Events that accept nothing write nothing. -/
theorem written_append (silent : ∀ event ∈ more, ∀ sequence request,
      event ≠ .accepted sequence request) :
    written spec initial (history ++ more) = written spec initial history := by
  unfold written
  rw [List.foldl_append]
  generalize history.foldl (writtenBy spec) initial = content
  induction more with
  | nil => rfl
  | cons event rest inductionHypothesis =>
    obtain ⟨here, later⟩ := List.forall_mem_cons.mp silent
    rw [List.foldl_cons]
    cases event with
    | accepted sequence request => exact absurd rfl (here sequence request)
    | issued => exact inductionHypothesis later
    | responded => exact inductionHypothesis later

theorem written_concat (sequence : Nat) (request : Request) :
    written spec initial (history ++ [.accepted sequence request]) =
      if request.type = .write then
        (ensureWritePayload spec request).patch.onto (written spec initial history)
      else written spec initial history := by
  unfold written
  rw [List.foldl_append]
  rfl

end Reference

/-! ### Accesses by blocks -/

/-- What a run by blocks rests on, and no operation changes: the controller's device, the device
its addresses are stored in, the size of a block, and the image at the start. -/
structure BlockSetup where
  spec : DramSpec
  storage : DramSpec
  size : Nat
  channel : Nat
  behavioral : Bool
  defaultValue : UInt8
  initial : Patch Nat UInt8
  positive : 0 < size
  bounded : storage.capacityOf ≤ uint64Max

/-- The contents agree on a block. -/
def AgreeOn (size address : Nat) (first second : Patch Nat UInt8) : Prop :=
  ∀ target, lineBase size target = address → first target = second target

/-- The patch changes nothing of a block. -/
def SilentOn (size address : Nat) (patch : Patch Nat UInt8) : Prop :=
  ∀ target, lineBase size target = address → patch target = none

/-- The request reaches its own block, from the controller and from the PHY. -/
structure Request.Located (setup : BlockSetup) (request : Request) : Prop where
  block : Block setup.storage setup.size request.address
  decoded : (if request.hasStorageDecoded then request.storageDecoded
    else { request.decoded with channel := setup.channel }) = decode setup.storage request.address
  slot : setup.behavioral = true →
    MemPhy.slotDecoded request = decode setup.storage request.address

/-- A request of a run by blocks: it comes without the internal mark, and a read or write is to a
whole block. -/
structure Request.ByBlock (setup : BlockSetup) (request : Request) : Prop where
  plain : request.bypassDram = false
  located : request.type ≠ .maintenance → request.Located setup
  reads : request.type = .read → requestDataSize setup.spec request = setup.size
  writes : request.type = .write → (ensureWritePayload setup.spec request).Sized setup.size
  unmasked : request.type = .write → setup.behavioral = true → request.hasByteMask = false

/-- A request of the history, and the content it found. -/
def Request.Expects (setup : BlockSetup) (history : List ControllerEvent) (request : Request)
    (content : Patch Nat UInt8) : Prop :=
  ∃ original, Found setup.spec setup.initial history request.controllerSequence original content ∧
    original.type = request.type ∧ original.id = request.id ∧ original.address = request.address

/-- A read whose bytes still come from the memory: its block is as it found it, up to the writes
that have been issued. -/
structure Request.Awaits (setup : BlockSetup) (history : List ControllerEvent)
    (settled : Patch Nat UInt8) (read : Request) : Prop where
  located : read.Located setup
  dataSize : requestDataSize setup.spec read = setup.size
  content : ∃ content, read.Expects setup history content ∧
    AgreeOn setup.size read.address content settled

/-- The bytes are those of the content. -/
structure HasContent (setup : BlockSetup) (content : Patch Nat UInt8) (address : Nat)
    (data initializedMask : ByteVector) : Prop where
  data : data = contentBytes setup.defaultValue content address setup.size
  initializedMask : initializedMask = contentMask content address setup.size

/-- A completion answers a request of the history. -/
def MemPhyCompletion.Told (setup : BlockSetup) (history : List ControllerEvent)
    (completion : MemPhyCompletion) : Prop :=
  ∃ original content,
    Found setup.spec setup.initial history completion.controllerSequence original content ∧
    (original.type = .read →
      HasContent setup content original.address completion.data completion.initializedMask)

/-- A response answers a read of the history. -/
def TransactionResponse.Told (setup : BlockSetup) (history : List ControllerEvent)
    (response : TransactionResponse) : Prop :=
  ∃ original content,
    Found setup.spec setup.initial history response.controllerSequence original content ∧
    original.type = .read ∧ original.id = response.requestId ∧
    original.address = response.localAddress ∧
    HasContent setup content response.localAddress response.data response.initializedMask

section Blocks

variable {setup : BlockSetup} {history more : List ControllerEvent} {request read : Request}
variable {content settled first second : Patch Nat UInt8} {size address : Nat}

theorem AgreeOn.contentBytes {storage : DramSpec} (agree : AgreeOn size address first second)
    (block : Block storage size address) (defaultValue : UInt8) :
    contentBytes defaultValue first address size =
      contentBytes defaultValue second address size := by
  unfold HbmSim.contentBytes
  refine List.map_congr_left fun index member => ?_
  rw [agree _ (block.lineBase_add (List.mem_range.mp member))]

theorem AgreeOn.contentMask {storage : DramSpec} (agree : AgreeOn size address first second)
    (block : Block storage size address) :
    contentMask first address size = contentMask second address size := by
  unfold HbmSim.contentMask
  refine List.map_congr_left fun index member => ?_
  rw [agree _ (block.lineBase_add (List.mem_range.mp member))]

theorem AgreeOn.trans {third : Patch Nat UInt8} (one : AgreeOn size address first second)
    (two : AgreeOn size address second third) : AgreeOn size address first third :=
  fun target here => (one target here).trans (two target here)

/-- A patch that is silent on a block changes nothing there. -/
theorem SilentOn.agree {patch : Patch Nat UInt8} (silent : SilentOn size address patch)
    (content : Patch Nat UInt8) : AgreeOn size address content (patch.onto content) := by
  intro target here
  rw [Patch.onto_apply, silent target here, Option.none_or]

/-- Two bytes of one block are not in another. -/
theorem Request.WritesBlock.silentOn {storage : DramSpec}
    (writes : request.WritesBlock storage size) (differs : address ≠ request.address) :
    SilentOn size address request.patch :=
  fun _ here => writes.patch_outside fun same => differs (here.symm.trans same)

/-- A read or write with its arrival is by blocks as well. -/
theorem Request.ByBlock.arrives (byBlock : request.ByBlock setup) (arrival : Nat) :
    ({ request with arrival } : Request).ByBlock setup := by
  refine ⟨byBlock.plain, fun ordinary => ?_, byBlock.reads, fun isWrite => ?_, byBlock.unmasked⟩
  · have located := byBlock.located ordinary
    exact ⟨located.block, located.decoded, located.slot⟩
  · have sized := byBlock.writes isWrite
    rw [Controller.ensureWritePayload_arrival]
    exact ⟨sized.transfer, sized.expected, sized.payload⟩

/-- The marks of commands do not move a request. -/
theorem Request.Located.unmarked_iff : request.unmarked.Located setup ↔ request.Located setup :=
  ⟨fun located => ⟨located.block, located.decoded, located.slot⟩,
    fun located => ⟨located.block, located.decoded, located.slot⟩⟩

theorem Request.Expects.append (expects : request.Expects setup history content)
    (more : List ControllerEvent) : request.Expects setup (history ++ more) content := by
  obtain ⟨original, found, same⟩ := expects
  exact ⟨original, found.append more, same⟩

theorem Request.Awaits.append (awaits : read.Awaits setup history settled)
    (more : List ControllerEvent) : read.Awaits setup (history ++ more) settled := by
  obtain ⟨content, expects, agree⟩ := awaits.content
  exact ⟨awaits.located, awaits.dataSize, content, expects.append more, agree⟩

/-- A read waits on while the memory behind its block stays the same. -/
theorem Request.Awaits.agree (awaits : read.Awaits setup history settled)
    {other : Patch Nat UInt8} (same : AgreeOn setup.size read.address settled other) :
    read.Awaits setup history other := by
  obtain ⟨content, expects, agree⟩ := awaits.content
  exact ⟨awaits.located, awaits.dataSize, content, expects, agree.trans same⟩

theorem MemPhyCompletion.Told.append {completion : MemPhyCompletion}
    (told : completion.Told setup history) (more : List ControllerEvent) :
    completion.Told setup (history ++ more) := by
  obtain ⟨original, content, found, carries⟩ := told
  exact ⟨original, content, found.append more, carries⟩

theorem TransactionResponse.Told.append {response : TransactionResponse}
    (told : response.Told setup history) (more : List ControllerEvent) :
    response.Told setup (history ++ more) := by
  obtain ⟨original, content, found, rest⟩ := told
  exact ⟨original, content, found.append more, rest⟩

end Blocks

/-! ### The PHY and the image -/

namespace MemPhy

/-- The content of the image once the PHY has stored its writes. -/
def settled (phy : MemPhy) (flat : Patch Nat UInt8) : Patch Nat UInt8 :=
  phy.writeFifo.foldl (fun content slot => slot.request.patch.onto content) flat

theorem DataKept.settled {phy next : MemPhy} (kept : DataKept phy next) (flat : Patch Nat UInt8) :
    next.settled flat = phy.settled flat := by
  unfold MemPhy.settled
  rw [kept.writeFifo]

/-- Without a behavioral PHY nothing is left to store. -/
theorem Tracks.settled {phy : MemPhy} {outstanding : List Request}
    (tracks : phy.Tracks outstanding) (direct : phy.behavioral = false) (flat : Patch Nat UInt8) :
    phy.settled flat = flat := by
  have none := (List.append_eq_nil_iff.mp (tracks.direct direct).1).2
  unfold MemPhy.settled
  rw [none]
  rfl

/-- The slots of a PHY reach the image in blocks, and no block is read and written at once. -/
structure Blockwise (setup : BlockSetup) (phy : MemPhy) : Prop where
  reads : ∀ slot ∈ phy.readFifo, requestDataSize setup.spec slot.request = setup.size
  writes : ∀ slot ∈ phy.writeFifo, slot.request.WritesBlock setup.storage setup.size
  located : ∀ slot ∈ phy.slots, slot.request.Located setup
  apart : ∀ read ∈ phy.readFifo, ∀ write ∈ phy.writeFifo,
    read.request.address ≠ write.request.address

end MemPhy

namespace Controller

variable {β : Type} [MemoryBackend β]

/-- The controller answers as the reference memory: its buffer over what the PHY will store over
the image is what was written, and every read on its way gets what it found. -/
structure Coherent (setup : BlockSetup) (history : List ControllerEvent) (c : Controller β)
    (flat : Patch Nat UInt8) : Prop where
  spec : c.spec = setup.spec
  channel : c.options.globalChannelId = setup.channel
  behavioral : c.memPhy.behavioral = setup.behavioral
  image : Holds c.memoryImage setup.storage flat
  defaultValue : c.memoryImage.defaultValue = setup.defaultValue
  clean : c.memoryImage.options.eccInjectPeriod ≤ 0
  fresh : ∀ sequence request, .accepted sequence request ∈ history →
    sequence < c.nextControllerSequence
  content : (bufferPatch setup.size c.bufferedWrites).onto (c.memPhy.settled flat) =
    written setup.spec setup.initial history
  buffer : BlockBuffer setup.storage setup.size c.bufferedWrites
  whole : setup.behavioral = true → ∀ address state,
    c.bufferedWrites.lookup address = some state → state.request.hasByteMask = false
  expects : ∀ request ∈ c.waiting ++ c.pending, ∃ content, request.Expects setup history content
  awaits : ∀ read ∈ c.waiting ++ c.issuedData, read.type = .read →
    read.Awaits setup history (c.memPhy.settled flat)
  undisturbed : ∀ read ∈ c.waiting ++ c.issuedData, read.type = .read →
    ∀ write ∈ c.waiting, write.type = .write → write.address = read.address →
      write.controllerSequence < read.controllerSequence →
      SilentOn setup.size read.address (bufferPatch setup.size c.bufferedWrites)
  writes : ∀ write ∈ c.waiting, write.type = .write →
    write.Located setup ∧ write.WritesBlock setup.storage setup.size
  stored : ∀ write ∈ c.issuedData, write.type = .write →
    Block setup.storage setup.size write.address ∧
      requestDataSize setup.spec write = setup.size ∧
      (setup.behavioral = false → write.dataCommitted = true)
  forwarded : ∀ read ∈ c.pending, read.bypassDram = true → read.type = .read →
    ∃ content, read.Expects setup history content ∧
      HasContent setup content read.address read.payload read.byteMask
  slots : c.memPhy.Blockwise setup
  completions : ∀ completion ∈ c.memPhy.completions, completion.Told setup history
  responses : ∀ response ∈ c.responses, response.type = .read → response.Told setup history

variable {setup : BlockSetup} {history more : List ControllerEvent} {c after : Controller β}
variable {flat : Patch Nat UInt8}

/-! ### What changes nothing -/

omit [MemoryBackend β] in
theorem issuedData_of_pending (pending : after.pending = c.pending) :
    after.issuedData = c.issuedData := by
  unfold issuedData
  rw [pending]

/-- The places of the requests, the buffer and the content of the image are all that counts. -/
theorem Coherent.of_same (holds : Coherent setup history c flat) (spec : after.spec = c.spec)
    (options : after.options = c.options) (waiting : after.waiting.Perm c.waiting)
    (pending : after.pending = c.pending) (writes : after.bufferedWrites = c.bufferedWrites)
    (phy : MemPhy.DataKept c.memPhy after.memPhy)
    (image : Holds after.memoryImage setup.storage flat)
    (config : after.memoryImage.config = c.memoryImage.config)
    (responses : after.responses ⊆ c.responses)
    (next : after.nextControllerSequence = c.nextControllerSequence) :
    Coherent setup history after flat := by
  have issued := issuedData_of_pending pending
  have settled := phy.settled flat
  have waits : ∀ request, request ∈ after.waiting → request ∈ c.waiting :=
    fun _ => waiting.mem_iff.mp
  have placed : ∀ {others : List Request}, ∀ request ∈ after.waiting ++ others,
      request ∈ c.waiting ++ others := fun request member =>
    List.mem_append.mpr ((List.mem_append.mp member).imp_left (waits request))
  refine ⟨spec.trans holds.spec, ?_, phy.behavioral.trans holds.behavioral, image, ?_, ?_, ?_, ?_,
    writes ▸ holds.buffer, ?_, ?_, ?_, ?_, ?_, ?_, ?_, ?_, ?_, ?_⟩
  · rw [options]
    exact holds.channel
  · exact (congrArg ImageConfig.defaultValue config).trans holds.defaultValue
  · rw [show after.memoryImage.options = c.memoryImage.options from
      congrArg ImageConfig.options config]
    exact holds.clean
  · rw [next]
    exact holds.fresh
  · rw [writes, settled]
    exact holds.content
  · rw [writes]
    exact holds.whole
  · rw [pending]
    exact fun request member => holds.expects request (placed request member)
  · rw [issued, settled]
    exact fun read member => holds.awaits read (placed read member)
  · rw [issued, writes]
    exact fun read member isRead write waits' => holds.undisturbed read (placed read member) isRead
      write (waits write waits')
  · exact fun write member => holds.writes write (waits write member)
  · rw [issued]
    exact holds.stored
  · rw [pending]
    exact holds.forwarded
  · exact ⟨phy.readFifo ▸ holds.slots.reads, phy.writeFifo ▸ holds.slots.writes,
      phy.slots ▸ holds.slots.located, phy.readFifo ▸ phy.writeFifo ▸ holds.slots.apart⟩
  · rw [phy.completions]
    exact holds.completions
  · exact fun response member => holds.responses response (responses member)

theorem Coherent.housekeeping (holds : Coherent setup history c flat)
    (keeps : Housekeeping c after) : Coherent setup history after flat := by
  have image : after.memoryImage = c.memoryImage := congrArg Core.memoryImage keeps.core
  have phy : after.memPhy = c.memPhy := congrArg Core.memPhy keeps.core
  refine holds.of_same keeps.spec keeps.options (List.Perm.of_eq keeps.waiting) keeps.pending
    (congrArg Core.bufferedWrites keeps.core) ?_ (image ▸ holds.image) (by rw [image])
    (keeps.responses ▸ List.Subset.refl _) keeps.nextControllerSequence
  rw [phy]
  exact MemPhy.DataKept.refl _

/-- Events that accept nothing leave the reference memory. -/
theorem Coherent.append (holds : Coherent setup history c flat)
    (silent : ∀ event ∈ more, ∀ sequence request, event ≠ .accepted sequence request) :
    Coherent setup (history ++ more) c flat where
  spec := holds.spec
  channel := holds.channel
  behavioral := holds.behavioral
  image := holds.image
  defaultValue := holds.defaultValue
  clean := holds.clean
  fresh sequence request member := (List.mem_append.mp member).elim
    (holds.fresh sequence request) fun new => absurd rfl (silent _ new sequence request)
  content := by
    rw [written_append silent]
    exact holds.content
  buffer := holds.buffer
  whole := holds.whole
  expects request member := by
    obtain ⟨content, expects⟩ := holds.expects request member
    exact ⟨content, expects.append more⟩
  awaits read member isRead := (holds.awaits read member isRead).append more
  undisturbed := holds.undisturbed
  writes := holds.writes
  stored := holds.stored
  forwarded read member bypass isRead := by
    obtain ⟨content, expects, carries⟩ := holds.forwarded read member bypass isRead
    exact ⟨content, expects.append more, carries⟩
  slots := holds.slots
  completions completion member := (holds.completions completion member).append more
  responses response member isRead := (holds.responses response member isRead).append more

/-! ### Acceptance -/

/-- An accepted request is queued, or answered from the buffer or merged into it. What it found is
what was written before. -/
theorem Coherent.accept (holds : Coherent setup history c flat) {offered : Request}
    {queued answered : List Request} (spec : after.spec = c.spec)
    (options : after.options = c.options) (waiting : after.waiting.Perm (queued ++ c.waiting))
    (pending : after.pending = c.pending ++ answered)
    (bypass : ∀ request ∈ answered, request.bypassDram = true) (phy : after.memPhy = c.memPhy)
    (image : Keeps c.memoryImage after.memoryImage setup.storage flat)
    (responses : after.responses = c.responses)
    (next : after.nextControllerSequence = c.nextControllerSequence + 1)
    (content : (bufferPatch setup.size after.bufferedWrites).onto (c.memPhy.settled flat) =
      written setup.spec setup.initial
        (history ++ [.accepted c.nextControllerSequence offered]))
    (buffer : BlockBuffer setup.storage setup.size after.bufferedWrites)
    (whole : setup.behavioral = true → ∀ address state,
      after.bufferedWrites.lookup address = some state → state.request.hasByteMask = false)
    (identity : ∀ request ∈ queued ++ answered,
      request.controllerSequence = c.nextControllerSequence ∧ offered.type = request.type ∧
        offered.id = request.id ∧ offered.address = request.address)
    (reads : ∀ read ∈ queued, read.type = .read → read.Located setup ∧
      requestDataSize setup.spec read = setup.size ∧
      AgreeOn setup.size read.address (written setup.spec setup.initial history)
        (c.memPhy.settled flat))
    (undisturbed : ∀ read ∈ after.waiting ++ c.issuedData, read.type = .read →
      ∀ write ∈ after.waiting, write.type = .write → write.address = read.address →
        write.controllerSequence < read.controllerSequence →
        SilentOn setup.size read.address (bufferPatch setup.size after.bufferedWrites))
    (writes : ∀ write ∈ queued, write.type = .write →
      write.Located setup ∧ write.WritesBlock setup.storage setup.size)
    (forwarded : ∀ read ∈ answered, read.type = .read →
      HasContent setup (written setup.spec setup.initial history) read.address read.payload
        read.byteMask) :
    Coherent setup (history ++ [.accepted c.nextControllerSequence offered]) after flat := by
  have none : answered.filter (fun request => !request.bypassDram) = [] := by
    refine List.filter_eq_nil_iff.mpr fun request member => ?_
    rw [bypass request member]
    exact Bool.false_ne_true
  have issued : after.issuedData = c.issuedData := by
    unfold issuedData
    rw [pending, List.filter_append, none, List.append_nil]
  have finds : ∀ request ∈ queued ++ answered,
      request.Expects setup (history ++ [.accepted c.nextControllerSequence offered])
        (written setup.spec setup.initial history) := by
    intro request member
    obtain ⟨sequence, same⟩ := identity request member
    refine ⟨offered, ?_, same⟩
    rw [sequence]
    exact found_concat (fun other request member => Nat.ne_of_lt (holds.fresh other request member))
      offered
  have waits : ∀ request ∈ after.waiting, request ∈ queued ∨ request ∈ c.waiting :=
    fun request member => List.mem_append.mp (waiting.mem_iff.mp member)
  refine ⟨spec.trans holds.spec, ?_, ?_, image.holds, ?_, ?_, ?_, ?_, buffer, whole, ?_, ?_, ?_, ?_,
    ?_, ?_, ?_, ?_, ?_⟩
  · rw [options]
    exact holds.channel
  · rw [phy]
    exact holds.behavioral
  · exact (congrArg ImageConfig.defaultValue image.config).trans holds.defaultValue
  · rw [show after.memoryImage.options = c.memoryImage.options from
      congrArg ImageConfig.options image.config]
    exact holds.clean
  · intro sequence request member
    rw [next]
    rcases List.mem_append.mp member with old | new
    · exact Nat.lt_succ_of_lt (holds.fresh sequence request old)
    · cases List.mem_singleton.mp new
      exact Nat.lt_succ_self _
  · rw [phy]
    exact content
  · intro request member
    rw [pending] at member
    rcases List.mem_append.mp member with waits' | pends
    · rcases waits request waits' with new | old
      · exact ⟨_, finds request (List.mem_append_left _ new)⟩
      · obtain ⟨content, expects⟩ := holds.expects request (List.mem_append_left _ old)
        exact ⟨content, expects.append _⟩
    · rcases List.mem_append.mp pends with old | new
      · obtain ⟨content, expects⟩ := holds.expects request (List.mem_append_right _ old)
        exact ⟨content, expects.append _⟩
      · exact ⟨_, finds request (List.mem_append_right _ new)⟩
  · intro read member isRead
    rw [issued] at member
    rw [phy]
    rcases List.mem_append.mp member with waits' | issues
    · rcases waits read waits' with new | old
      · obtain ⟨located, dataSize, agree⟩ := reads read new isRead
        exact ⟨located, dataSize, _, finds read (List.mem_append_left _ new), agree⟩
      · exact (holds.awaits read (List.mem_append_left _ old) isRead).append _
    · exact (holds.awaits read (List.mem_append_right _ issues) isRead).append _
  · rw [issued]
    exact undisturbed
  · intro write member isWrite
    exact (waits write member).elim (fun new => writes write new isWrite)
      fun old => holds.writes write old isWrite
  · rw [issued]
    exact holds.stored
  · intro read member isBypass isRead
    rw [pending] at member
    rcases List.mem_append.mp member with old | new
    · obtain ⟨content, expects, carries⟩ := holds.forwarded read old isBypass isRead
      exact ⟨content, expects.append _, carries⟩
    · exact ⟨_, finds read (List.mem_append_right _ new), forwarded read new isRead⟩
  · rw [phy]
    exact holds.slots
  · rw [phy]
    exact fun completion member => (holds.completions completion member).append _
  · rw [responses]
    exact fun response member isRead => (holds.responses response member isRead).append _

section Entering

variable {offered request : Request} {arrival : Nat} {accepted : Bool}

omit [MemoryBackend β] in
/-- What the check for unresolved reads leaves out. -/
theorem not_overlaps_of_check (kinds : QueueKinds c) {write : Request} {older : Nat}
    (passes : c.hasUnresolvedOverlappingRead write older = false) :
    ∀ read ∈ c.waiting ++ c.pending, read.type = .read →
      (older = 0 ∨ read.controllerSequence < older) →
      ¬ rangesOverlap write.address (requestDataSize c.spec write) read.address
        (requestDataSize c.spec read) = true := by
  intro read member isRead age overlap
  unfold hasUnresolvedOverlappingRead at passes
  rw [Bool.or_eq_false_iff, Bool.or_eq_false_iff] at passes
  have hit : ∀ (queue : List Request) (queued : Request), queued ∈ queue →
      queued.unmarked = read ∨ queued = read → queueHasOverlap c.spec write older queue = true := by
    intro queue queued member same
    refine List.any_eq_true.mpr ⟨queued, member, Bool.and_eq_true_iff.mpr ?_⟩
    rcases same with rfl | rfl
    · exact ⟨decide_eq_true ⟨isRead, age⟩, overlap⟩
    · exact ⟨decide_eq_true ⟨isRead, age⟩, overlap⟩
  rcases List.mem_append.mp member with waits | pending
  · obtain ⟨queued, place, rfl⟩ := mem_waiting.mp waits
    rcases place with reads | writes | active
    · exact nomatch (hit _ queued reads (Or.inl rfl)).symm.trans passes.1.1
    · exact nomatch isRead.symm.trans (kinds.write queued writes)
    · exact nomatch (hit _ queued active (Or.inl rfl)).symm.trans passes.1.2
  · exact nomatch (hit _ read pending (Or.inr rfl)).symm.trans passes.2

variable [LawfulMemoryBackend β]

/-- A read that the write buffer answers sees what was written. -/
theorem Coherent.forwardRead (holds : Coherent setup history c flat) (inFlight : InFlight c)
    (byBlock : ({ offered with arrival } : Request).ByBlock setup) (isRead : offered.type = .read)
    (hits : c.readHitsBufferedWrite { offered with arrival } = true)
    (returns : c.forwardRead { offered with arrival } = .ok after) :
    Coherent setup (history ++ [.accepted c.nextControllerSequence offered]) after flat := by
  have located := byBlock.located (by rw [isRead]; nofun)
  have dataSize : requestDataSize c.spec { offered with arrival } = setup.size :=
    holds.spec ▸ byBlock.reads isRead
  have decoded : c.storageDecodedFor { offered with arrival } =
      decode setup.storage offered.address := by
    unfold storageDecodedFor
    rw [holds.channel]
    exact located.decoded
  unfold Controller.forwardRead at returns
  obtain ⟨⟨payload, byteMask, image⟩, reads, returns⟩ := bind_eq_ok.mp returns
  obtain ⟨bytes, mask, keeps⟩ := readForwardPayload_block setup.positive setup.bounded holds.image
    holds.buffer located.block dataSize decoded reads
  have seen : AgreeOn setup.size offered.address
      ((bufferPatch setup.size c.bufferedWrites).onto flat)
      (written setup.spec setup.initial history) := by
    rw [← holds.content]
    intro target here
    cases behavioral : setup.behavioral with
    | false =>
      rw [inFlight.tracks.settled (holds.behavioral.trans behavioral)]
    | true =>
      obtain ⟨state, held⟩ := hits_lookup setup.positive setup.bounded holds.buffer located.block
        dataSize hits
      obtain ⟨same, writes⟩ := holds.buffer _ state held
      have whole := writes.patch_whole (holds.whole behavioral _ state held) (here.trans same.symm)
      rw [← here] at held
      rw [Patch.onto_apply, Patch.onto_apply, bufferPatch_of_some held]
      obtain ⟨value, is⟩ := Option.isSome_iff_exists.mp whole
      rw [is]
      rfl
  cases returns
  refine @Coherent.accept β _ setup history c _ flat holds offered [] [_] rfl rfl (List.Perm.refl _)
    rfl ?_ rfl keeps rfl rfl ?_ holds.buffer holds.whole ?_ ?_ ?_ ?_ ?_
  · intro request member
    rw [List.mem_singleton.mp member]
  · rw [written_concat, if_neg (by rw [isRead]; nofun)]
    exact holds.content
  · intro request member
    rw [List.mem_singleton.mp member]
    exact ⟨rfl, rfl, rfl, rfl⟩
  · exact fun read member => absurd member List.not_mem_nil
  · exact holds.undisturbed
  · exact fun write member => absurd member List.not_mem_nil
  · intro read member _
    rw [List.mem_singleton.mp member]
    refine ⟨?_, ?_⟩
    · rw [← holds.defaultValue, ← seen.contentBytes located.block]
      exact bytes
    · rw [← seen.contentMask located.block]
      exact mask

omit [LawfulMemoryBackend β] in
/-- A read that the write buffer does not answer finds its block behind the PHY. -/
theorem Coherent.queueRead (holds : Coherent setup history c flat)
    (byBlock : ({ offered with arrival } : Request).ByBlock setup) (isRead : offered.type = .read)
    (misses : c.readHitsBufferedWrite { offered with arrival } = false) :
    Coherent setup (history ++ [.accepted c.nextControllerSequence offered])
      { c.acceptSequence.countInjected with
        requestQueues := c.requestQueues.pushBack .read
          { offered with arrival, controllerSequence := c.nextControllerSequence } } flat := by
  have located := byBlock.located (by rw [isRead]; nofun)
  have silent : SilentOn setup.size offered.address (bufferPatch setup.size c.bufferedWrites) :=
    fun target here => misses_patch setup.positive setup.bounded holds.buffer located.block
      (holds.spec ▸ byBlock.reads isRead) misses here
  have waiting := @waiting_pushBack β c { c.acceptSequence.countInjected with
    requestQueues := c.requestQueues.pushBack .read
      { offered with arrival, controllerSequence := c.nextControllerSequence } } .read _ nofun rfl
  have queued : ∀ {meets : Request → Prop}, meets ({ offered with
      arrival, controllerSequence := c.nextControllerSequence } : Request).unmarked →
      ∀ request ∈ [({ offered with
        arrival, controllerSequence := c.nextControllerSequence } : Request).unmarked],
      meets request := fun holds request member => List.mem_singleton.mp member ▸ holds
  refine @Coherent.accept β _ setup history c _ flat holds offered [_] [] rfl rfl waiting
    (List.append_nil _).symm (fun _ member => absurd member List.not_mem_nil) rfl
    ⟨holds.image, rfl⟩ rfl rfl ?_ holds.buffer holds.whole (queued ⟨rfl, rfl, rfl, rfl⟩)
    (queued fun _ => ⟨⟨located.block, located.decoded, located.slot⟩, byBlock.reads isRead, ?_⟩) ?_
    (queued fun isWrite => (nomatch isRead.symm.trans isWrite))
    fun _ member => absurd member List.not_mem_nil
  · rw [written_concat, if_neg (by rw [isRead]; nofun)]
    exact holds.content
  · rw [← holds.content]
    exact fun target here => (silent.agree _ target here).symm
  · intro read member readIs write waits isWrite same older
    have old : write ∈ c.waiting := by
      refine (List.mem_cons.mp (waiting.mem_iff.mp waits)).resolve_left fun is => ?_
      rw [is] at isWrite
      exact nomatch isRead.symm.trans isWrite
    rcases List.mem_append.mp member with waits' | issues
    · rcases List.mem_cons.mp (waiting.mem_iff.mp waits') with rfl | was
      · exact silent
      · exact holds.undisturbed read (List.mem_append_left _ was) readIs write old isWrite same
          older
    · exact holds.undisturbed read (List.mem_append_right _ issues) readIs write old isWrite same
        older

omit [MemoryBackend β] [LawfulMemoryBackend β] in
/-- The write as it is accepted is one of a block. -/
theorem entering_writesBlock (spec : c.spec = setup.spec) (byBlock : request.ByBlock setup)
    (isWrite : request.type = .write) :
    (ensureWritePayload c.spec request).WritesBlock setup.storage setup.size := by
  refine ⟨?_, ensureWritePayload_ready c.spec request, spec ▸ byBlock.writes isWrite⟩
  rw [ensureWritePayload_address]
  exact (byBlock.located (by rw [isWrite]; nofun)).block

omit [MemoryBackend β] [LawfulMemoryBackend β] in
theorem entering_patch (spec : c.spec = setup.spec) (arrival : Nat) :
    (ensureWritePayload c.spec { offered with arrival }).patch =
      (ensureWritePayload setup.spec offered).patch := by
  rw [spec, ensureWritePayload_arrival]
  rfl

omit [LawfulMemoryBackend β] in
/-- A merged write is added to its pending write, which no read waits for. -/
theorem Coherent.coalesceWrite (holds : Coherent setup history c flat) (mirrored : Mirrored c)
    (byBlock : ({ offered with arrival } : Request).ByBlock setup) (isWrite : offered.type = .write)
    (buffered : offered.address ∈ c.bufferedWriteAddrs)
    (unread : c.hasUnresolvedOverlappingRead
      (ensureWritePayload c.spec { offered with arrival }) 0 = false) :
    Coherent setup (history ++ [.accepted c.nextControllerSequence offered])
      (c.coalesceWrite (ensureWritePayload c.spec { offered with arrival })) flat := by
  have ready : BufferReady c := by
    intro address state held
    obtain ⟨here, writes⟩ := holds.buffer address state held
    refine ⟨(mirrored.addrs address).mpr ?_, here, writes.ready⟩
    exact AList.lookup_isSome.mp (Option.isSome_iff_exists.mpr ⟨state, held⟩)
  have ensured := entering_writesBlock holds.spec byBlock isWrite
  have newWrites : (c.mergedAs { offered with arrival }).WritesBlock setup.storage setup.size :=
    ⟨ensured.block, mergedAs_ready c _, ensured.sized.transfer, ensured.sized.expected,
      ensured.sized.payload⟩
  have address : (c.mergedAs { offered with arrival }).address = offered.address :=
    ensureWritePayload_address ..
  obtain ⟨older, held⟩ := Option.isSome_iff_exists.mp
    (AList.lookup_isSome.mpr ((mirrored.addrs _).mp buffered))
  obtain ⟨-, oldWrites⟩ := holds.buffer _ _ held
  have heldNew : c.bufferedWrites.lookup (c.mergedAs { offered with arrival }).address =
      some older := by rw [address]; exact held
  have merged := coalesced_writesBlock ready heldNew oldWrites newWrites
  have patch : (c.mergedAs { offered with arrival }).patch =
      (ensureWritePayload setup.spec offered).patch := entering_patch holds.spec arrival
  have insert : bufferPatch setup.size (c.bufferedWrites.insert
        (c.mergedAs { offered with arrival }).address
        (c.coalesced (c.mergedAs { offered with arrival }))) =
      (ensureWritePayload setup.spec offered).patch.onto
        (bufferPatch setup.size c.bufferedWrites) := by
    rw [← patch]
    refine bufferPatch_insert (fun target => newWrites.patch_outside) fun target here => ?_
    rw [coalesced_patch ready heldNew oldWrites newWrites, Patch.onto_apply, Patch.onto_apply,
      bufferPatch_of_some (by rw [here]; exact heldNew)]
  have one : ∀ {meets : Request → Prop}, meets (c.mergedAs { offered with arrival }) →
      ∀ request ∈ [c.mergedAs { offered with arrival }], meets request :=
    fun holds request member => List.mem_singleton.mp member ▸ holds
  refine @Coherent.accept β _ setup history c
    (c.coalesceWrite (ensureWritePayload c.spec { offered with arrival })) flat holds offered []
    [c.mergedAs { offered with arrival }] rfl rfl (List.Perm.refl _)
    (coalesceWrite_pending c { offered with arrival })
    (fun request member => List.mem_singleton.mp member ▸ rfl) rfl ⟨holds.image, rfl⟩ rfl rfl ?_
    (holds.buffer.insert (coalesced_ready ready newWrites.ready).2 merged) ?_ (one ⟨rfl, ?_⟩)
    (fun read member => absurd member List.not_mem_nil) ?_
    (fun write member => absurd member List.not_mem_nil) (one fun isRead => ?_)
  · rw [written_concat, if_pos isWrite, ← holds.content, ← Patch.onto_assoc]
    exact congrArg (Patch.onto · (c.memPhy.settled flat)) insert
  · intro behavioral other state found
    by_cases same : other = (c.mergedAs { offered with arrival }).address
    · subst same
      have is : state = c.coalesced (c.mergedAs { offered with arrival }) :=
        Option.some.inj (found.symm.trans (AList.lookup_insert _))
      have unmasked : (c.mergedAs { offered with arrival }).hasByteMask = false := by
        unfold mergedAs
        rw [ensureWritePayload_eq]
        exact byBlock.unmasked isWrite behavioral
      rw [is, coalesced_unmasked unmasked]
      exact unmasked
    · exact holds.whole behavioral other state ((AList.lookup_insert_ne same).symm.trans found)
  · unfold mergedAs
    rw [ensureWritePayload_eq]
    exact ⟨rfl, rfl, rfl⟩
  · intro read member isRead write waits writeIs same older
    have silent := holds.undisturbed read member isRead write waits writeIs same older
    have awaits := holds.awaits read member isRead
    have placed : read ∈ c.waiting ++ c.pending := List.mem_append.mpr
      ((List.mem_append.mp member).imp_right List.mem_of_mem_filter)
    have dataSize : requestDataSize c.spec read = setup.size := by
      rw [holds.spec]
      exact awaits.dataSize
    have apart := not_overlaps_of_check mirrored.kinds unread read placed isRead (Or.inl rfl)
    rw [ensured.dataSize, dataSize,
      ensured.block.overlap_iff setup.positive setup.bounded awaits.located.block,
      ensureWritePayload_address] at apart
    show SilentOn setup.size read.address (bufferPatch setup.size (c.bufferedWrites.insert _ _))
    intro target here
    refine (congrFun insert target).trans ?_
    rw [← patch, Patch.onto_apply, silent target here, Option.or_none]
    exact newWrites.silentOn (fun is => apart (address.symm.trans is.symm)) target here
  · unfold mergedAs at isRead
    rw [ensureWritePayload_eq] at isRead
    exact nomatch isWrite.symm.trans isRead

omit [LawfulMemoryBackend β] in
/-- A new write enters the buffer, where its block had no pending write. -/
theorem Coherent.bufferWrite (holds : Coherent setup history c flat) (inFlight : InFlight c)
    (mirrored : Mirrored c) (byBlock : ({ offered with arrival } : Request).ByBlock setup)
    (isWrite : offered.type = .write) (unbuffered : offered.address ∉ c.bufferedWriteAddrs) :
    Coherent setup (history ++ [.accepted c.nextControllerSequence offered])
      (c.bufferWrite (ensureWritePayload c.spec { offered with arrival })) flat := by
  have ensured := entering_writesBlock holds.spec byBlock isWrite
  have located := byBlock.located (by rw [isWrite]; nofun)
  have missing : c.bufferedWrites.lookup offered.address = none :=
    Option.not_isSome_iff_eq_none.mp fun found =>
      unbuffered ((mirrored.addrs _).mpr (AList.lookup_isSome.mp found))
  obtain ⟨newer, is⟩ : ∃ newer : Request, newer =
      { ensureWritePayload c.spec { offered with arrival } with
        controllerSequence := c.nextControllerSequence } := ⟨_, rfl⟩
  obtain ⟨state, held⟩ : ∃ state : BufferedWriteState, state.request = newer ∧
      (c.bufferWrite (ensureWritePayload c.spec { offered with arrival })).bufferedWrites =
        c.bufferedWrites.insert newer.address state := ⟨_, is.symm, by rw [is]; rfl⟩
  have frame := is.trans (congrArg (fun request : Request => { request with
    controllerSequence := c.nextControllerSequence }) (ensureWritePayload_eq ..))
  have address : newer.address = offered.address := by rw [frame]
  have type : newer.type = offered.type := by rw [frame]
  have newWrites : newer.WritesBlock setup.storage setup.size := by
    rw [is]
    exact ⟨ensured.block, ⟨ensured.ready.hasPayload, ensured.ready.payload, ensured.ready.mask⟩,
      ensured.sized.transfer, ensured.sized.expected, ensured.sized.payload⟩
  have newLocated : newer.Located setup := by
    rw [frame]
    exact ⟨located.block, located.decoded, located.slot⟩
  have patch : newer.patch = (ensureWritePayload setup.spec offered).patch := by
    rw [is, ← entering_patch holds.spec arrival]
    rfl
  have insert : bufferPatch setup.size (c.bufferWrite
        (ensureWritePayload c.spec { offered with arrival })).bufferedWrites =
      (ensureWritePayload setup.spec offered).patch.onto
        (bufferPatch setup.size c.bufferedWrites) := by
    rw [held.2, ← patch]
    refine bufferPatch_insert (fun target => newWrites.patch_outside) fun target here => ?_
    rw [held.1, Patch.onto_apply, bufferPatch_of_none (by rw [here, address]; exact missing),
      Option.or_none]
  have waiting := @waiting_pushBack β c
    (c.bufferWrite (ensureWritePayload c.spec { offered with arrival })) .write newer nofun
    (by rw [is]; rfl)
  have one : ∀ {meets : Request → Prop}, meets newer.unmarked →
      ∀ request ∈ [newer.unmarked], meets request :=
    fun holds request member => List.mem_singleton.mp member ▸ holds
  refine @Coherent.accept β _ setup history c
    (c.bufferWrite (ensureWritePayload c.spec { offered with arrival })) flat holds offered
    [newer.unmarked] [] rfl rfl waiting (List.append_nil _).symm
    (fun _ member => absurd member List.not_mem_nil) rfl ⟨holds.image, rfl⟩ rfl rfl ?_ ?_ ?_
    (one ⟨?_, ?_⟩) (one fun isRead => (nomatch isWrite.symm.trans (type.symm.trans isRead))) ?_
    (one fun _ => ⟨⟨newLocated.block, newLocated.decoded, newLocated.slot⟩, newWrites.block,
      ⟨newWrites.ready.hasPayload, newWrites.ready.payload, newWrites.ready.mask⟩,
      newWrites.sized.transfer, newWrites.sized.expected, newWrites.sized.payload⟩)
    fun _ member => absurd member List.not_mem_nil
  · rw [written_concat, if_pos isWrite, ← holds.content, ← Patch.onto_assoc]
    exact congrArg (Patch.onto · (c.memPhy.settled flat)) insert
  · rw [held.2]
    exact holds.buffer.insert (by rw [held.1]) (by rw [held.1]; exact newWrites)
  · intro behavioral other found lookup
    rw [held.2] at lookup
    by_cases same : other = newer.address
    · subst same
      rw [AList.lookup_insert] at lookup
      rw [← Option.some.inj lookup, held.1, frame]
      exact byBlock.unmasked isWrite behavioral
    · rw [AList.lookup_insert_ne same] at lookup
      exact holds.whole behavioral other found lookup
  · show newer.controllerSequence = _
    rw [is]
  · show offered.type = newer.type ∧ offered.id = newer.id ∧ offered.address = newer.address
    rw [frame]
    exact ⟨rfl, rfl, rfl⟩
  · intro read member isRead write waits writeIs same older
    have wasRead : read ∈ c.waiting ++ c.issuedData := by
      rcases List.mem_append.mp member with waits | issues
      · rcases List.mem_cons.mp (waiting.mem_iff.mp waits) with rfl | was
        · exact nomatch isWrite.symm.trans (type.symm.trans isRead)
        · exact List.mem_append_left _ was
      · exact List.mem_append_right _ issues
    -- No read is younger than the new write, so the older write was pending.
    have wasWrite : write ∈ c.waiting := by
      refine (List.mem_cons.mp (waiting.mem_iff.mp waits)).resolve_left fun new => ?_
      obtain ⟨traffic, listed, sequence⟩ : ∃ queued ∈ c.traffic,
          queued.controllerSequence = read.controllerSequence := by
        rcases List.mem_append.mp wasRead with waits | issues
        · obtain ⟨queued, place, rfl⟩ := mem_waiting.mp waits
          refine ⟨queued, List.mem_append_left _ ?_, rfl⟩
          simpa [or_assoc] using place
        · exact ⟨read, List.mem_append_right _ (List.mem_of_mem_filter issues), rfl⟩
      have younger := inFlight.free.fresh traffic listed
      rw [sequence] at younger
      have here : newer.controllerSequence = c.nextControllerSequence := by rw [is]
      have sequence' : write.controllerSequence = newer.controllerSequence := by
        rw [new]
        rfl
      omega
    obtain ⟨pending, lookup⟩ := mirrored.lookup wasWrite writeIs
    have silent := holds.undisturbed read wasRead isRead write wasWrite writeIs same older
    intro target here
    rw [insert, ← patch, Patch.onto_apply, silent target here, Option.or_none]
    refine newWrites.silentOn (fun is => ?_) target here
    rw [same, is, address, missing] at lookup
    cases lookup

omit [LawfulMemoryBackend β] in
theorem Coherent.acceptMaintenance (holds : Coherent setup history c flat)
    (isMaintenance : offered.type = .maintenance) :
    Coherent setup (history ++ [.accepted c.nextControllerSequence offered])
      { c.acceptSequence with
        requestQueues := c.requestQueues.pushBack .priority
          { offered with arrival, controllerSequence := c.nextControllerSequence }
        stats := { c.stats with maintenanceRequests := c.stats.maintenanceRequests + 1 } }
      flat := by
  have waiting : ({ c.acceptSequence with
      requestQueues := c.requestQueues.pushBack .priority
        { offered with arrival, controllerSequence := c.nextControllerSequence }
      stats := { c.stats with maintenanceRequests := c.stats.maintenanceRequests + 1 } } :
        Controller β).waiting = c.waiting := by
    have same : ∀ (queued : Request) (kind : RequestQueueKind), kind ≠ .priority →
        (c.requestQueues.pushBack .priority queued).queue kind = c.requestQueues.queue kind :=
      fun _ _ differs => put_queue_of_ne differs
    unfold Controller.waiting
    dsimp only
    rw [same _ .read nofun, same _ .write nofun, same _ .active nofun]
  have none : ∀ {meets : Request → Prop}, ∀ request ∈ ([] : List Request), meets request :=
    fun _ member => absurd member List.not_mem_nil
  refine @Coherent.accept β _ setup history c _ flat holds offered [] [] rfl rfl
    (List.Perm.of_eq waiting) (List.append_nil _).symm none rfl ⟨holds.image, rfl⟩ rfl rfl ?_
    holds.buffer holds.whole none none ?_ none none
  · rw [written_concat, if_neg (by rw [isMaintenance]; nofun)]
    exact holds.content
  · rw [waiting]
    exact holds.undisturbed

theorem Entry.coherent (holds : Coherent setup history c flat) (inFlight : InFlight c)
    (mirrored : Mirrored c) (byBlock : offered.ByBlock setup)
    (entry : Entry c { offered with arrival } accepted after) :
    Coherent setup (history ++ c.acceptance accepted offered) after flat := by
  have arrived := byBlock.arrives arrival
  cases entry with
  | refused =>
    unfold acceptance
    rw [if_neg Bool.false_ne_true, List.append_nil]
    exact holds
  | forwarded isRead hits forwards => exact holds.forwardRead inFlight arrived isRead hits forwards
  | queuedRead isRead misses => exact holds.queueRead arrived isRead misses
  | coalesced isWrite buffered unread =>
    exact holds.coalesceWrite mirrored arrived isWrite buffered unread
  | buffered isWrite unbuffered =>
    exact holds.bufferWrite inFlight mirrored arrived isWrite unbuffered
  | maintenance isMaintenance => exact holds.acceptMaintenance isMaintenance

end Entering

end Controller

/-! ### The PHY stores and answers -/

section Drain

variable {β : Type} [MemoryBackend β] {image after : MemoryImage β} {storage : DramSpec}
variable {flat : Patch Nat UInt8}

/-- Without injected errors no write meets a flip. -/
theorem flipSafe_of_no_injection {address : Nat} {data : ByteVector} {mask : Option ByteVector}
    (holds : Holds image storage flat) (bounded : InCapacity storage address data.length)
    (off : image.options.eccInjectPeriod ≤ 0) : FlipSafe image storage address data mask := by
  intro index small
  refine Or.inl (lineClean_of_no_injection holds ⟨?_, ?_⟩ off)
  · exact Nat.sub_mod_eq_zero_of_mod_eq (Nat.mod_mod _ _).symm
  · have below : lineBase image.lineSize (address + index) ≤ address + index := Nat.sub_le _ _
    rcases bounded with empty | inside
    · omega
    · omega

variable [LawfulMemoryBackend β]

/-- A write of a block is laid over the content. -/
theorem Request.WritesBlock.stores {size : Nat} {request : Request} {stamp : MemoryImage.WriteStamp}
    (writes : request.WritesBlock storage size) (holds : Holds image storage flat)
    (off : image.options.eccInjectPeriod ≤ 0)
    (returns : image.write request.address request.payload request.writeMask
      (some (decode storage request.address)) stamp = .ok after) :
    Keeps image after storage (request.patch.onto flat) := by
  have bounded : InCapacity storage request.address request.payload.length := by
    rw [writes.sized.payload]
    exact Or.inr writes.block.inside
  exact write_spec holds bounded (flipSafe_of_no_injection holds bounded off) returns

namespace MemPhy

variable {setup : BlockSetup} {cycle : Nat} {fifo left : List DataSlot}
variable {completions : List MemPhyCompletion}

/-- The reads that are due see the content of the image. -/
theorem drain_reads (reads : ∀ slot ∈ fifo, slot.request.type = .read)
    (sizes : ∀ slot ∈ fifo, requestDataSize setup.spec slot.request = setup.size)
    (blocks : ∀ slot ∈ fifo, Block setup.storage setup.size slot.request.address)
    (decoded : ∀ slot ∈ fifo,
      slotDecoded slot.request = decode setup.storage slot.request.address)
    (holds : HbmSim.Holds image setup.storage flat)
    (default : image.defaultValue = setup.defaultValue)
    (returns : drain setup.spec cycle fifo image = .ok (left, completions, after)) :
    Keeps image after setup.storage flat ∧ left ⊆ fifo ∧ ∀ completion ∈ completions,
      ∃ slot ∈ fifo, completion.controllerSequence = slot.request.controllerSequence ∧
        HasContent setup flat slot.request.address completion.data completion.initializedMask := by
  induction fifo generalizing image left completions with
  | nil =>
    cases returns
    exact ⟨⟨holds, rfl⟩, List.Subset.refl _, fun _ member => absurd member List.not_mem_nil⟩
  | cons slot rest inductionHypothesis =>
    unfold drain at returns
    split at returns
    · obtain ⟨⟨completion, middle⟩, completes, returns⟩ := bind_eq_ok.mp returns
      obtain ⟨⟨others, later, final⟩, drains, returns⟩ := bind_eq_ok.mp returns
      cases returns
      have member : slot ∈ slot :: rest := List.mem_cons_self
      have block := blocks slot member
      unfold completeSlot at completes
      rw [if_pos (reads slot member)] at completes
      obtain ⟨⟨data, initialized, read⟩, accesses, completes⟩ := bind_eq_ok.mp completes
      obtain ⟨mask, masks, completes⟩ := bind_eq_ok.mp completes
      cases completes
      rw [decoded slot member, sizes slot member] at accesses
      rw [decoded slot member] at masks
      obtain ⟨bytes, -, keeps⟩ := read_spec holds (Or.inr block.inside) accesses
      have length : data.length = setup.size := by
        rw [bytes]
        unfold contentBytes
        rw [List.length_map, List.length_range]
      rw [length] at masks
      have set := readInitializedMask_spec keeps.holds (Or.inr block.inside) masks
      have again : middle.defaultValue = setup.defaultValue :=
        (congrArg ImageConfig.defaultValue keeps.config).trans default
      obtain ⟨kept, fewer, answers⟩ := inductionHypothesis
        (fun other member => reads other (List.mem_cons_of_mem _ member))
        (fun other member => sizes other (List.mem_cons_of_mem _ member))
        (fun other member => blocks other (List.mem_cons_of_mem _ member))
        (fun other member => decoded other (List.mem_cons_of_mem _ member)) keeps.holds again drains
      refine ⟨⟨kept.holds, kept.config.trans keeps.config⟩,
        fun other member => List.mem_cons_of_mem _ (fewer member), fun completion member => ?_⟩
      rcases List.mem_cons.mp member with rfl | rest
      · exact ⟨slot, List.mem_cons_self, rfl, by rw [bytes, default], set⟩
      · obtain ⟨other, listed, answer⟩ := answers completion rest
        exact ⟨other, List.mem_cons_of_mem _ listed, answer⟩
    · cases returns
      exact ⟨⟨holds, rfl⟩, List.Subset.refl _, fun _ member => absurd member List.not_mem_nil⟩

/-- The writes that are due are stored, in their order. -/
theorem drain_writes (writes : ∀ slot ∈ fifo, slot.request.type = .write)
    (blocks : ∀ slot ∈ fifo, slot.request.WritesBlock setup.storage setup.size)
    (decoded : ∀ slot ∈ fifo,
      slotDecoded slot.request = decode setup.storage slot.request.address)
    (holds : HbmSim.Holds image setup.storage flat) (off : image.options.eccInjectPeriod ≤ 0)
    (returns : drain setup.spec cycle fifo image = .ok (left, completions, after)) :
    (∃ stored, HbmSim.Holds after setup.storage stored ∧
      left.foldl (fun content slot => slot.request.patch.onto content) stored =
        fifo.foldl (fun content slot => slot.request.patch.onto content) flat) ∧
      after.config = image.config ∧ left ⊆ fifo ∧ ∀ completion ∈ completions,
      ∃ slot ∈ fifo, completion.controllerSequence = slot.request.controllerSequence := by
  induction fifo generalizing image left completions flat with
  | nil =>
    cases returns
    exact ⟨⟨flat, holds, rfl⟩, rfl, List.Subset.refl _,
      fun _ member => absurd member List.not_mem_nil⟩
  | cons slot rest inductionHypothesis =>
    unfold drain at returns
    split at returns
    · obtain ⟨⟨completion, middle⟩, completes, returns⟩ := bind_eq_ok.mp returns
      obtain ⟨⟨others, later, final⟩, drains, returns⟩ := bind_eq_ok.mp returns
      cases returns
      have member : slot ∈ slot :: rest := List.mem_cons_self
      unfold completeSlot at completes
      rw [if_neg (by rw [writes slot member]; decide)] at completes
      obtain ⟨written, stores, completes⟩ := bind_eq_ok.mp completes
      cases completes
      rw [decoded slot member] at stores
      have keeps := (blocks slot member).stores holds off stores
      have again : middle.options.eccInjectPeriod ≤ 0 := by
        rw [show middle.options = image.options from congrArg ImageConfig.options keeps.config]
        exact off
      obtain ⟨⟨stored, kept, same⟩, config, fewer, answers⟩ := inductionHypothesis
        (fun other member => writes other (List.mem_cons_of_mem _ member))
        (fun other member => blocks other (List.mem_cons_of_mem _ member))
        (fun other member => decoded other (List.mem_cons_of_mem _ member)) keeps.holds again drains
      refine ⟨⟨stored, kept, same⟩, config.trans keeps.config,
        fun other member => List.mem_cons_of_mem _ (fewer member), fun completion member => ?_⟩
      rcases List.mem_cons.mp member with rfl | rest
      · exact ⟨slot, List.mem_cons_self, rfl⟩
      · obtain ⟨other, listed, answer⟩ := answers completion rest
        exact ⟨other, List.mem_cons_of_mem _ listed, answer⟩
    · cases returns
      exact ⟨⟨flat, holds, rfl⟩, rfl, List.Subset.refl _,
        fun _ member => absurd member List.not_mem_nil⟩

omit [MemoryBackend β] [LawfulMemoryBackend β] in
/-- The writes of other blocks leave a block. -/
theorem settled_agree {phy : MemPhy} {size address : Nat}
    (silent : ∀ slot ∈ phy.writeFifo, SilentOn size address slot.request.patch)
    (flat : Patch Nat UInt8) : AgreeOn size address flat (phy.settled flat) := by
  unfold settled
  generalize phy.writeFifo = fifo at silent
  induction fifo generalizing flat with
  | nil => exact fun _ _ => rfl
  | cons slot rest inductionHypothesis =>
    obtain ⟨here, later⟩ := List.forall_mem_cons.mp silent
    exact (here.agree flat).trans (inductionHypothesis _ later)

end MemPhy

namespace Controller

variable {setup : BlockSetup} {history : List ControllerEvent} {c : Controller β} {clk : Nat}
variable {memPhy : MemPhy} {memoryImage : MemoryImage β}

/-- A tick of the PHY answers reads with what they found, and stores writes that were on their
way. -/
theorem Coherent.phyTick (holds : Coherent setup history c flat)
    (tracks : c.memPhy.Tracks c.issuedData)
    (ticks : c.memPhy.tick c.spec c.memoryImage clk = .ok (memPhy, memoryImage)) :
    ∃ stored, Coherent setup history { c with clk, memPhy, memoryImage } stored := by
  obtain ⟨options, -, readFifo, writeFifo, completed⟩ :=
    MemPhy.advanceLifecycle_lines c.memPhy c.spec clk
  unfold MemPhy.tick at ticks
  dsimp only at ticks
  rw [readFifo, writeFifo, completed] at ticks
  obtain ⟨⟨readsLeft, reads, middle⟩, readDrain, ticks⟩ := bind_eq_ok.mp ticks
  obtain ⟨⟨writesLeft, writes, final⟩, writeDrain, ticks⟩ := bind_eq_ok.mp ticks
  cases ticks
  rw [holds.spec] at readDrain writeDrain
  have decoded : ∀ slot ∈ c.memPhy.slots,
      MemPhy.slotDecoded slot.request = decode setup.storage slot.request.address := by
    intro slot member
    cases behavioral : setup.behavioral with
    | false =>
      rw [(tracks.direct (holds.behavioral.trans behavioral)).1] at member
      exact absurd member List.not_mem_nil
    | true => exact (holds.slots.located slot member).slot behavioral
  have isRead : ∀ slot ∈ c.memPhy.readFifo, slot ∈ c.memPhy.slots :=
    fun slot => List.mem_append_left _
  have isWrite : ∀ slot ∈ c.memPhy.writeFifo, slot ∈ c.memPhy.slots :=
    fun slot => List.mem_append_right _
  obtain ⟨keeps, readsFewer, readAnswers⟩ := MemPhy.drain_reads tracks.reads holds.slots.reads
    (fun slot member => (holds.slots.located slot (isRead slot member)).block)
    (fun slot member => decoded slot (isRead slot member)) holds.image holds.defaultValue readDrain
  have clean : middle.options.eccInjectPeriod ≤ 0 := by
    rw [show middle.options = c.memoryImage.options from congrArg ImageConfig.options keeps.config]
    exact holds.clean
  obtain ⟨⟨stored, image, settled⟩, config, writesFewer, writeAnswers⟩ :=
    MemPhy.drain_writes tracks.writes holds.slots.writes
      (fun slot member => decoded slot (isWrite slot member)) keeps.holds clean writeDrain
  have config := config.trans keeps.config
  refine ⟨stored, holds.spec, holds.channel, ?_, image, ?_, ?_, holds.fresh, ?_, holds.buffer,
    holds.whole, holds.expects, ?_, holds.undisturbed, holds.writes, holds.stored, holds.forwarded,
    ?_, ?_, holds.responses⟩
  · have behavioral := holds.behavioral
    unfold MemPhy.behavioral at behavioral ⊢
    rw [← behavioral, ← options]
  · exact (congrArg ImageConfig.defaultValue config).trans holds.defaultValue
  · have same : final.options = c.memoryImage.options := congrArg ImageConfig.options config
    show final.options.eccInjectPeriod ≤ 0
    rw [same]
    exact holds.clean
  · exact (congrArg _ settled).trans holds.content
  · intro read member typeIs
    exact (holds.awaits read member typeIs).agree fun target _ => (congrFun settled target).symm
  · refine ⟨fun slot member => holds.slots.reads slot (readsFewer member),
      fun slot member => holds.slots.writes slot (writesFewer member), fun slot member => ?_,
      fun read readMember write writeMember =>
        holds.slots.apart read (readsFewer readMember) write (writesFewer writeMember)⟩
    rcases List.mem_append.mp member with reads | writes
    · exact holds.slots.located slot (isRead slot (readsFewer reads))
    · exact holds.slots.located slot (isWrite slot (writesFewer writes))
  · intro completion member
    rcases List.mem_append.mp member with before | new
    · rcases List.mem_append.mp before with old | new
      · exact holds.completions completion old
      · obtain ⟨slot, listed, sequence, carries⟩ := readAnswers completion new
        obtain ⟨read, outstanding, identity⟩ := tracks.partner slot (isRead slot listed)
        have type : read.type = .read :=
          (congrArg Identity.type identity).trans (tracks.reads slot listed)
        have address : read.address = slot.request.address := congrArg Identity.address identity
        have same : read.controllerSequence = slot.request.controllerSequence :=
          congrArg Identity.controllerSequence identity
        have awaits := holds.awaits read (List.mem_append_right _ outstanding) type
        obtain ⟨content, ⟨original, found, -, -, place⟩, agree⟩ := awaits.content
        have silent : AgreeOn setup.size read.address flat (c.memPhy.settled flat) := by
          refine MemPhy.settled_agree (fun write member => ?_) flat
          rw [address]
          exact (holds.slots.writes write member).silentOn
            (holds.slots.apart slot listed write member)
        have sees : AgreeOn setup.size read.address content flat :=
          agree.trans fun target here => (silent target here).symm
        refine ⟨original, content, ?_, fun _ => ⟨?_, ?_⟩⟩
        · rw [sequence, ← same]
          exact found
        · rw [carries.data, place, sees.contentBytes awaits.located.block, address]
        · rw [carries.initializedMask, place, sees.contentMask awaits.located.block, address]
    · obtain ⟨slot, listed, sequence⟩ := writeAnswers completion new
      obtain ⟨write, outstanding, identity⟩ := tracks.partner slot (isWrite slot listed)
      have type : write.type = .write :=
        (congrArg Identity.type identity).trans (tracks.writes slot listed)
      have same : write.controllerSequence = slot.request.controllerSequence :=
        congrArg Identity.controllerSequence identity
      obtain ⟨content, original, found, typeIs, -⟩ := holds.expects write
        (List.mem_append_right _ (List.mem_of_mem_filter outstanding))
      refine ⟨original, content, ?_, fun isRead => ?_⟩
      · rw [sequence, ← same]
        exact found
      · exact nomatch isRead.symm.trans (typeIs.trans type)

/-! ### Completion -/

variable {front rest : List Request} {request finished : Request} {response : TransactionResponse}
variable {phyCompletion : Option MemPhyCompletion}

omit [MemoryBackend β] [LawfulMemoryBackend β] in
/-- A request completes with the completion of the PHY, or has none to wait for. -/
theorem readiness_phy (ready : c.readiness request = .completes finished phyCompletion memPhy) :
    (memPhy.options = c.memPhy.options ∧ memPhy.readFifo = c.memPhy.readFifo ∧
      memPhy.writeFifo = c.memPhy.writeFifo ∧ memPhy.completions ⊆ c.memPhy.completions) ∧
    match phyCompletion with
    | some completion => completion ∈ c.memPhy.completions ∧
        completion.controllerSequence = request.controllerSequence
    | none => request.bypassDram = true ∨ c.memPhy.behavioral = false := by
  unfold readiness at ready
  split at ready
  · cases ready
  split at ready
  next =>
    split at ready
    · cases ready
    next takes =>
      cases ready
      unfold MemPhy.takeCompletion at takes
      obtain ⟨found, finds, is⟩ := Option.map_eq_some_iff.mp takes
      cases is
      have passes := List.find?_some finds
      exact ⟨⟨rfl, rfl, rfl, List.eraseP_subset⟩, List.mem_of_find?_eq_some finds,
        (of_decide_eq_true passes).2⟩
  next free =>
    cases ready
    refine ⟨⟨rfl, rfl, rfl, List.Subset.refl _⟩, ?_⟩
    by_cases bypass : request.bypassDram = true
    · exact Or.inl bypass
    · exact Or.inr (Bool.eq_false_of_not_eq_true fun behavioral =>
        free ⟨Bool.eq_false_of_not_eq_true bypass, behavioral⟩)

theorem autoPrechargeImage_keeps {command : Command} {image : MemoryImage β}
    (keeps : Keeps c.memoryImage image setup.storage flat)
    (closes : c.autoPrechargeImage request command image = .ok memoryImage) :
    Keeps c.memoryImage memoryImage setup.storage flat := by
  unfold autoPrechargeImage at closes
  split at closes
  · obtain ⟨closed, config⟩ := prechargeBank_holds keeps.holds closes
    exact ⟨closed, config.trans keeps.config⟩
  · cases closes
    exact keeps

/-- A read completes with what it found. -/
theorem Coherent.completeRead
    (holds : Coherent setup history { c with pending := front ++ request :: rest } flat)
    (tracks : c.memPhy.behavioral = false → c.memPhy.settled flat = flat)
    (isRead : request.type = .read)
    (ready : c.readiness request = .completes finished phyCompletion memPhy)
    (completes : c.completeRead finished phyCompletion = .ok (response, memoryImage)) :
    response.Told setup history ∧ Keeps c.memoryImage memoryImage setup.storage flat := by
  obtain ⟨-, phy⟩ := readiness_phy ready
  have same := (readiness_completes ready).2
  have pending : request ∈ front ++ request :: rest :=
    List.mem_append_right _ List.mem_cons_self
  unfold Controller.completeRead at completes
  obtain ⟨⟨result, image⟩, reads, completes⟩ := bind_eq_ok.mp completes
  obtain ⟨closed, closes, completes⟩ := bind_eq_ok.mp completes
  -- What was found, and the bytes that carry it.
  have answered : (∃ original content,
      Found setup.spec setup.initial history request.controllerSequence original content ∧
      original.type = .read ∧ original.id = request.id ∧ original.address = request.address ∧
      HasContent setup content request.address result.data result.initializedMask) ∧
      Keeps c.memoryImage image setup.storage flat := by
    unfold readResult at reads
    by_cases bypass : request.bypassDram = true
    · rw [same] at reads
      rw [if_pos bypass] at reads
      cases reads
      obtain ⟨content, ⟨original, found, type, id, address⟩, carries⟩ :=
        holds.forwarded request pending bypass isRead
      exact ⟨⟨original, content, found, type.trans isRead, id, address, carries⟩, holds.image, rfl⟩
    · have issued : request ∈ ({ c with pending := front ++ request :: rest } :
          Controller β).waiting ++ ({ c with pending := front ++ request :: rest } :
            Controller β).issuedData := by
        refine List.mem_append_right _ (List.mem_filter.mpr ⟨pending, ?_⟩)
        rw [Bool.eq_false_of_not_eq_true bypass]
        rfl
      have awaits := holds.awaits request issued isRead
      obtain ⟨content, ⟨original, found, type, id, address⟩, agree⟩ := awaits.content
      rw [if_neg (by rw [same]; exact bypass)] at reads
      cases phyCompletion with
      | some completion =>
        cases reads
        obtain ⟨other, others, again, carries⟩ := holds.completions completion phy.1
        rw [phy.2] at again
        obtain ⟨rfl, rfl⟩ := found.unique again
        have carried := carries (type.trans isRead)
        rw [address] at carried
        exact ⟨⟨_, _, found, type.trans isRead, id, address, carried⟩, holds.image, rfl⟩
      | none =>
        have direct := phy.resolve_left bypass
        obtain ⟨⟨data, initialized, read⟩, accesses, reads⟩ := bind_eq_ok.mp reads
        obtain ⟨mask, masks, reads⟩ := bind_eq_ok.mp reads
        cases reads
        have decoded : c.storageDecodedFor finished = decode setup.storage request.address := by
          have decoded := awaits.located.decoded
          unfold storageDecodedFor
          rw [same, show c.options.globalChannelId = setup.channel from holds.channel]
          exact decoded
        have dataSize : requestDataSize c.spec finished = setup.size := by
          rw [same, show c.spec = setup.spec from holds.spec]
          exact awaits.dataSize
        rw [decoded, dataSize, show finished.address = request.address by rw [same]] at accesses
        rw [decoded, show finished.address = request.address by rw [same]] at masks
        obtain ⟨bytes, -, keeps⟩ := read_spec holds.image
          (Or.inr awaits.located.block.inside) accesses
        have length : data.length = setup.size := by
          rw [bytes]
          unfold contentBytes
          rw [List.length_map, List.length_range]
        rw [length] at masks
        have set := readInitializedMask_spec keeps.holds
          (Or.inr awaits.located.block.inside) masks
        have sees : AgreeOn setup.size request.address content flat := by
          have settled : c.memPhy.settled flat = flat := tracks direct
          exact agree.trans fun target _ => congrFun settled target
        refine ⟨⟨original, content, found, type.trans isRead, id, address, ?_, ?_⟩, keeps⟩
        · rw [sees.contentBytes awaits.located.block, ← holds.defaultValue]
          exact bytes
        · rw [sees.contentMask awaits.located.block]
          exact set
  obtain ⟨⟨original, content, found, type, id, address, carries⟩, keeps⟩ := answered
  cases completes
  refine ⟨⟨original, content, ?_, type, ?_, ?_, ?_⟩, autoPrechargeImage_keeps keeps closes⟩
  · show Found setup.spec setup.initial history finished.controllerSequence original content
    rw [same]
    exact found
  · show original.id = finished.id
    rw [same]
    exact id
  · show original.address = finished.address
    rw [same]
    exact address
  · show HasContent setup content finished.address result.data result.initializedMask
    rw [same]
    exact carries

/-- A write completes without touching the content: it is stored, or in another write. -/
theorem Coherent.completeWrite
    (holds : Coherent setup history { c with pending := front ++ request :: rest } flat)
    (isWrite : request.type = .write)
    (ready : c.readiness request = .completes finished phyCompletion memPhy)
    (completes : c.completeWrite finished phyCompletion = .ok (response, memoryImage)) :
    Keeps c.memoryImage memoryImage setup.storage flat := by
  obtain ⟨-, phy⟩ := readiness_phy ready
  have same := (readiness_completes ready).2
  have pending : request ∈ front ++ request :: rest :=
    List.mem_append_right _ List.mem_cons_self
  unfold Controller.completeWrite at completes
  by_cases bypass : request.bypassDram = true
  · rw [if_pos (by rw [same]; exact bypass)] at completes
    cases completes
    exact ⟨holds.image, rfl⟩
  · rw [if_neg (by rw [same]; exact bypass)] at completes
    obtain ⟨⟨committed, image⟩, commits, completes⟩ := bind_eq_ok.mp completes
    obtain ⟨closed, closes, completes⟩ := bind_eq_ok.mp completes
    cases completes
    have kept : image = c.memoryImage := by
      unfold commitMissing at commits
      cases phyCompletion with
      | some completion =>
        rw [if_pos Option.isSome_some] at commits
        cases commits
        rfl
      | none =>
        have direct : setup.behavioral = false :=
          holds.behavioral.symm.trans (phy.resolve_left bypass)
        have issued : request ∈ ({ c with pending := front ++ request :: rest } :
            Controller β).issuedData := by
          refine List.mem_filter.mpr ⟨pending, ?_⟩
          rw [Bool.eq_false_of_not_eq_true bypass]
          rfl
        have done := (holds.stored request issued isWrite).2.2 direct
        rw [if_neg (by exact Bool.false_ne_true), if_pos (by rw [same]; exact done)] at commits
        cases commits
        rfl
    exact autoPrechargeImage_keeps ⟨kept ▸ holds.image, by rw [kept]⟩ closes

omit [LawfulMemoryBackend β] in
/-- A pending request leaves, with its completion and perhaps as a response. -/
theorem Coherent.leaves {after : Controller β}
    (holds : Coherent setup history { c with pending := front ++ request :: rest } flat)
    (spec : after.spec = c.spec) (options : after.options = c.options)
    (waiting : after.waiting = c.waiting) (pending : after.pending = front ++ rest)
    (writes : after.bufferedWrites = c.bufferedWrites)
    (phy : after.memPhy.options = c.memPhy.options ∧ after.memPhy.readFifo = c.memPhy.readFifo ∧
      after.memPhy.writeFifo = c.memPhy.writeFifo ∧
      after.memPhy.completions ⊆ c.memPhy.completions)
    (image : Keeps c.memoryImage after.memoryImage setup.storage flat)
    (responses : ∀ response ∈ after.responses, response ∈ c.responses ∨
      (response.type = .read → response.Told setup history))
    (next : after.nextControllerSequence = c.nextControllerSequence) :
    Coherent setup history after flat := by
  obtain ⟨phyOptions, readFifo, writeFifo, completions⟩ := phy
  have settled : after.memPhy.settled flat = c.memPhy.settled flat := by
    unfold MemPhy.settled
    rw [writeFifo]
  have slots : after.memPhy.slots = c.memPhy.slots := by
    unfold MemPhy.slots
    rw [readFifo, writeFifo]
  have fewer : ∀ other ∈ front ++ rest, other ∈ front ++ request :: rest := fun other member =>
    ((List.sublist_cons_self request rest).append_left front).subset member
  have remains : ∀ other ∈ after.pending, other ∈ front ++ request :: rest :=
    fun other member => fewer other (pending ▸ member)
  have issued : ∀ other ∈ after.issuedData, other ∈ (front ++ request :: rest).filter
      fun request => !request.bypassDram := fun other member =>
    List.mem_filter.mpr ⟨remains other (List.mem_filter.mp member).1, (List.mem_filter.mp member).2⟩
  have placed : ∀ other ∈ after.waiting ++ after.issuedData, other ∈ c.waiting ++
      (front ++ request :: rest).filter fun request => !request.bypassDram := fun other member =>
    List.mem_append.mpr ((List.mem_append.mp member).imp (waiting ▸ ·) (issued other))
  refine ⟨spec.trans holds.spec, ?_, ?_, image.holds, ?_, ?_, ?_, ?_, writes ▸ holds.buffer, ?_, ?_,
    ?_, ?_, ?_, ?_, ?_, ?_, ?_, ?_⟩
  · rw [options]
    exact holds.channel
  · refine Eq.trans ?_ holds.behavioral
    unfold MemPhy.behavioral
    rw [phyOptions]
  · exact (congrArg ImageConfig.defaultValue image.config).trans holds.defaultValue
  · rw [show after.memoryImage.options = c.memoryImage.options from
      congrArg ImageConfig.options image.config]
    exact holds.clean
  · rw [next]
    exact holds.fresh
  · rw [writes, settled]
    exact holds.content
  · rw [writes]
    exact holds.whole
  · intro other member
    refine holds.expects other (List.mem_append.mpr ((List.mem_append.mp member).imp ?_ ?_))
    · exact fun waits => waiting ▸ waits
    · exact remains other
  · rw [settled]
    exact fun read member => holds.awaits read (placed read member)
  · rw [writes, waiting]
    exact fun read member => holds.undisturbed read (placed read (by rw [waiting]; exact member))
  · rw [waiting]
    exact holds.writes
  · exact fun write member => holds.stored write (issued write member)
  · exact fun read member => holds.forwarded read (remains read member)
  · exact ⟨readFifo ▸ holds.slots.reads, writeFifo ▸ holds.slots.writes,
      slots ▸ holds.slots.located, readFifo ▸ writeFifo ▸ holds.slots.apart⟩
  · exact fun completion member => holds.completions completion (completions member)
  · intro response member isRead
    exact (responses response member).elim (fun old => holds.responses response old isRead)
      fun told => told isRead

omit [MemoryBackend β] [LawfulMemoryBackend β] in
theorem keepResponse_eq (c : Controller β) (type : RequestType) (response : TransactionResponse) :
    (c.countCompleted type).keepResponse response = { c with
      stats := (c.countCompleted type).stats
      responses := if c.options.retainResponses then c.responses ++ [response]
        else c.responses } := by
  unfold keepResponse
  cases retains : c.options.retainResponses <;> cases type <;> simp [countCompleted, retains]

/-- Completing the due requests keeps the controller coherent. -/
theorem Coherent.completeEach {after : Controller β} {requests left : List Request}
    (holds : Coherent setup history { c with pending := front ++ requests } flat)
    (direct : c.memPhy.behavioral = false → c.memPhy.writeFifo = [])
    (returns : completeEach requests c = .ok (left, after)) :
    Coherent setup history { after with pending := front ++ left } flat := by
  induction requests generalizing front c left with
  | nil =>
    cases returns
    exact holds
  | cons request rest inductionHypothesis =>
    obtain ⟨⟨stays, middle⟩, one, returns⟩ := bind_eq_ok.mp returns
    obtain ⟨⟨later, final⟩, others, returns⟩ := bind_eq_ok.mp returns
    cases returns
    have settled : c.memPhy.behavioral = false → c.memPhy.settled flat = flat := by
      intro isDirect
      unfold MemPhy.settled
      rw [direct isDirect]
      rfl
    have still : ∀ {memPhy : MemPhy}, (memPhy.options = c.memPhy.options ∧
        memPhy.readFifo = c.memPhy.readFifo ∧ memPhy.writeFifo = c.memPhy.writeFifo ∧
        memPhy.completions ⊆ c.memPhy.completions) →
        memPhy.behavioral = false → memPhy.writeFifo = [] := by
      rintro memPhy ⟨options, -, writeFifo, -⟩ isDirect
      unfold MemPhy.behavioral at isDirect direct
      exact writeFifo.trans (direct (options ▸ isDirect))
    have kept : ∀ {response : TransactionResponse},
        (response.type = .read → response.Told setup history) →
        ∀ other ∈ if c.options.retainResponses then c.responses ++ [response] else c.responses,
          other ∈ c.responses ∨ (other.type = .read → other.Told setup history) := by
      intro response told other member
      split at member
      · refine (List.mem_append.mp member).imp_right fun new => ?_
        rw [List.mem_singleton.mp new]
        exact told
      · exact Or.inl member
    cases completeOne_cases one with
    | waits =>
      rw [if_pos rfl]
      have shifted : front ++ request :: rest = (front ++ [request]) ++ rest := by simp
      have again : front ++ request :: later = (front ++ [request]) ++ later := by simp
      rw [shifted] at holds
      rw [again]
      exact inductionHypothesis holds direct others
    | @read finished phyCompletion memPhy response memoryImage isRead ready completes =>
      obtain ⟨told, image⟩ := holds.completeRead settled isRead ready completes
      obtain ⟨phy, -⟩ := readiness_phy ready
      rw [keepResponse_eq] at others
      refine inductionHypothesis ?_ (still phy) others
      exact holds.leaves rfl rfl rfl rfl rfl phy image (kept fun _ => told) rfl
    | @write finished phyCompletion memPhy response memoryImage isWrite ready completes =>
      have image := holds.completeWrite isWrite ready completes
      obtain ⟨phy, -⟩ := readiness_phy ready
      have type : response.type = .write := by
        rw [(completeWrite_answers completes).type, (readiness_completes ready).2]
        exact isWrite
      rw [keepResponse_eq] at others
      refine inductionHypothesis ?_ (still phy) others
      exact holds.leaves rfl rfl rfl rfl rfl phy image
        (kept fun isRead => nomatch isRead.symm.trans type) rfl
    | @maintenance finished phyCompletion memPhy isMaintenance ready =>
      obtain ⟨phy, -⟩ := readiness_phy ready
      refine inductionHypothesis ?_ (still phy) others
      exact holds.leaves rfl rfl rfl rfl rfl phy ⟨holds.image, rfl⟩
        (fun other member => Or.inl member) rfl

/-! ### Data commands -/

variable {after : Controller β} {stored : Patch Nat UInt8} {candidate : Candidate}

omit [LawfulMemoryBackend β] in
/-- A request becomes pending with its data command. The memory behind the reads on their way stays
the same, and the buffer only loses what the memory got. -/
theorem Coherent.retires (holds : Coherent setup history c flat) (spec : after.spec = c.spec)
    (options : after.options = c.options) (responses : after.responses = c.responses)
    (next : after.nextControllerSequence = c.nextControllerSequence)
    (waiting : (request.unmarked :: after.waiting).Perm c.waiting)
    (pending : after.pending = c.pending ++ [finished]) (plain : finished.bypassDram = false)
    (identity : finished.identity = request.identity)
    (behavioral : after.memPhy.behavioral = c.memPhy.behavioral)
    (completions : after.memPhy.completions = c.memPhy.completions)
    (image : Holds after.memoryImage setup.storage stored)
    (config : after.memoryImage.config = c.memoryImage.config)
    (content : (bufferPatch setup.size after.bufferedWrites).onto (after.memPhy.settled stored) =
      (bufferPatch setup.size c.bufferedWrites).onto (c.memPhy.settled flat))
    (buffer : BlockBuffer setup.storage setup.size after.bufferedWrites)
    (whole : setup.behavioral = true → ∀ address state,
      after.bufferedWrites.lookup address = some state → state.request.hasByteMask = false)
    (silent : ∀ address, SilentOn setup.size address (bufferPatch setup.size c.bufferedWrites) →
      SilentOn setup.size address (bufferPatch setup.size after.bufferedWrites))
    (agrees : ∀ read ∈ c.waiting ++ c.issuedData, read.type = .read →
      AgreeOn setup.size read.address (c.memPhy.settled flat) (after.memPhy.settled stored))
    (reads : finished.type = .read → finished.Located setup ∧
      requestDataSize setup.spec finished = setup.size)
    (writes : finished.type = .write → Block setup.storage setup.size finished.address ∧
      requestDataSize setup.spec finished = setup.size ∧
      (setup.behavioral = false → finished.dataCommitted = true))
    (slots : after.memPhy.Blockwise setup) : Coherent setup history after stored := by
  have waits : ∀ other ∈ after.waiting, other ∈ c.waiting :=
    fun other member => waiting.mem_iff.mp (List.mem_cons_of_mem _ member)
  have was : request.unmarked ∈ c.waiting := waiting.mem_iff.mp List.mem_cons_self
  have type : finished.type = request.type := congrArg Identity.type identity
  have address : finished.address = request.address := congrArg Identity.address identity
  have sequence : finished.controllerSequence = request.controllerSequence :=
    congrArg Identity.controllerSequence identity
  have id : finished.id = request.id := congrArg Identity.id identity
  have issued : after.issuedData = c.issuedData ++ [finished] := by
    unfold issuedData
    rw [pending, List.filter_append, @List.filter_cons_of_pos _
      (fun request : Request => !request.bypassDram) _ _ (by rw [plain]; rfl)]
    rfl
  have places : ∀ other ∈ after.waiting ++ after.issuedData,
      other ∈ c.waiting ++ c.issuedData ∨ other = finished := by
    intro other member
    rw [issued, ← List.append_assoc] at member
    rcases List.mem_append.mp member with old | new
    · exact Or.inl (List.mem_append.mpr ((List.mem_append.mp old).imp_left (waits other)))
    · exact Or.inr (List.mem_singleton.mp new)
  have found : ∀ {content : Patch Nat UInt8}, request.unmarked.Expects setup history content →
      finished.Expects setup history content := by
    rintro content ⟨original, finds, typeIs, idIs, addressIs⟩
    refine ⟨original, ?_, typeIs.trans type.symm, idIs.trans id.symm, addressIs.trans address.symm⟩
    rw [sequence]
    exact finds
  refine ⟨spec.trans holds.spec, ?_, behavioral.trans holds.behavioral, image, ?_, ?_, ?_,
    content.trans holds.content, buffer, whole, ?_, ?_, ?_, ?_, ?_, ?_, slots, ?_, ?_⟩
  · rw [options]
    exact holds.channel
  · exact (congrArg ImageConfig.defaultValue config).trans holds.defaultValue
  · rw [show after.memoryImage.options = c.memoryImage.options from
      congrArg ImageConfig.options config]
    exact holds.clean
  · rw [next]
    exact holds.fresh
  · intro other member
    rw [pending] at member
    rcases List.mem_append.mp member with waits' | pends
    · exact holds.expects other (List.mem_append_left _ (waits other waits'))
    · rcases List.mem_append.mp pends with old | new
      · exact holds.expects other (List.mem_append_right _ old)
      · obtain ⟨content, expects⟩ := holds.expects _ (List.mem_append_left _ was)
        exact ⟨content, List.mem_singleton.mp new ▸ found expects⟩
  · intro read member isRead
    rcases places read member with old | rfl
    · exact (holds.awaits read old isRead).agree (agrees read old isRead)
    · have old := List.mem_append_left c.issuedData was
      obtain ⟨content, expects, agree⟩ := (holds.awaits _ old (type.symm.trans isRead)).content
      obtain ⟨located, dataSize⟩ := reads isRead
      refine ⟨located, dataSize, content, found expects, ?_⟩
      rw [address]
      exact agree.trans (agrees _ old (type.symm.trans isRead))
  · intro read member isRead write waits' isWrite same older
    refine silent _ ?_
    rcases places read member with old | rfl
    · exact holds.undisturbed read old isRead write (waits write waits') isWrite same older
    · rw [address] at same ⊢
      rw [sequence] at older
      exact holds.undisturbed request.unmarked (List.mem_append_left _ was) (type.symm.trans isRead)
        write (waits write waits') isWrite same older
  · exact fun write member => holds.writes write (waits write member)
  · intro write member isWrite
    rw [issued] at member
    rcases List.mem_append.mp member with old | new
    · exact holds.stored write old isWrite
    · rw [List.mem_singleton.mp new] at isWrite ⊢
      exact writes isWrite
  · intro read member bypass isRead
    rw [pending] at member
    rcases List.mem_append.mp member with old | new
    · exact holds.forwarded read old bypass isRead
    · rw [List.mem_singleton.mp new, plain] at bypass
      cases bypass
  · rw [completions]
    exact holds.completions
  · rw [responses]
    exact holds.responses

omit [LawfulMemoryBackend β] in
theorem Retired.bufferedWrites (how : Retired c candidate request after) :
    after.bufferedWrites =
      (c.leaveBuffer (c.retiring candidate.command request)).bufferedWrites :=
  (congrArg Controller.bufferedWrites how.result :)

omit [LawfulMemoryBackend β] in
/-- The data command of a read takes it off the queues. Its slot is apart from those of the
writes. -/
theorem Coherent.retireRead (holds : Coherent setup history c flat)
    (tracks : c.memPhy.Tracks c.issuedData) (isRead : request.type = .read)
    (data : (commandMeta candidate.command).data = true)
    (reading : MemPhy.isRead candidate.command = true) (plain : request.bypassDram = false)
    (waiting : (request.unmarked :: after.waiting).Perm c.waiting)
    (unwritten : c.memPhy.behavioral = true → ∀ write ∈ c.pending, write.type = .write →
      ¬ rangesOverlap request.address (requestDataSize c.spec request) write.address
        (requestDataSize c.spec write) = true)
    (how : Retired c candidate request after) : Coherent setup history after flat := by
  have was : request.unmarked ∈ c.waiting ++ c.issuedData :=
    List.mem_append_left _ (waiting.mem_iff.mp List.mem_cons_self)
  have awaits := holds.awaits request.unmarked was isRead
  have located : request.Located setup := Request.Located.unmarked_iff.mp awaits.located
  have dataSize : requestDataSize setup.spec request = setup.size := awaits.dataSize
  have frame := (Advance.retired after data (by rw [isRead]; nofun) how).turnFrame
  have retiring : c.retiring candidate.command request =
      { request with issuedDataCommand := candidate.command, issuedCycle := c.clk } := by
    unfold Controller.retiring mergedRequest
    exact if_neg (by rw [isRead]; nofun)
  have leaves : c.leaveBuffer (c.retiring candidate.command request) = c := by
    unfold leaveBuffer
    exact if_neg (by rw [retiring, isRead]; nofun)
  have commits := how.commits
  rw [leaves, retiring] at commits
  unfold commitIssued at commits
  rw [if_neg (by rw [isRead]; exact fun both => RequestType.noConfusion both.1)] at commits
  obtain ⟨finished, image⟩ := Prod.mk.inj (Except.ok.inj commits)
  have writes : after.bufferedWrites = c.bufferedWrites := by
    rw [how.bufferedWrites, leaves]
  have memoryImage : after.memoryImage = c.memoryImage :=
    (congrArg Controller.memoryImage how.result :).trans image.symm
  have placed : ∀ {other : Request}, other = how.finished → other.Located setup ∧
      requestDataSize setup.spec other = setup.size := by
    rintro other rfl
    rw [← finished]
    exact ⟨⟨located.block, located.decoded, located.slot⟩, dataSize⟩
  have address : how.finished.address = request.address := by rw [← finished]
  have settled : ∀ {next : MemPhy}, next.writeFifo = c.memPhy.writeFifo →
      next.settled flat = c.memPhy.settled flat := by
    intro next same
    unfold MemPhy.settled
    rw [same]
  obtain ⟨writeFifo, behavioral, completions, slots⟩ : after.memPhy.writeFifo = c.memPhy.writeFifo ∧
      after.memPhy.behavioral = c.memPhy.behavioral ∧
      after.memPhy.completions = c.memPhy.completions ∧ after.memPhy.Blockwise setup := by
    rcases how.submitted with ⟨-, same⟩ | ⟨isBehavioral, submits⟩
    · rw [same]
      exact ⟨rfl, rfl, rfl, holds.slots⟩
    · obtain ⟨-, -, ⟨-, -, next⟩ | ⟨plain, -⟩⟩ := MemPhy.submitData_enters isBehavioral submits
      · rw [next]
        refine ⟨rfl, rfl, rfl, ?_, holds.slots.writes, ?_, ?_⟩
        · intro slot member
          rcases List.mem_append.mp member with old | new
          · exact holds.slots.reads slot old
          · exact (placed (by rw [List.mem_singleton.mp new])).2
        · intro slot member
          unfold MemPhy.slots at member
          rcases List.mem_append.mp member with reads | writes
          · rcases List.mem_append.mp reads with old | new
            · exact holds.slots.located slot (List.mem_append_left _ old)
            · exact (placed (by rw [List.mem_singleton.mp new])).1
          · exact holds.slots.located slot (List.mem_append_right _ writes)
        · intro read member write listed
          rcases List.mem_append.mp member with old | new
          · exact holds.slots.apart read old write listed
          · rw [List.mem_singleton.mp new]
            show how.finished.address ≠ write.request.address
            rw [address]
            -- The write is still pending, so the read would have waited for it.
            obtain ⟨partner, outstanding, identity⟩ :=
              tracks.partner write (List.mem_append_right _ listed)
            have type : partner.type = .write :=
              (congrArg Identity.type identity).trans (tracks.writes write listed)
            have place : partner.address = write.request.address :=
              congrArg Identity.address identity
            obtain ⟨block, size, -⟩ := holds.stored partner outstanding type
            intro same
            refine unwritten isBehavioral partner (List.mem_of_mem_filter outstanding) type ?_
            rw [holds.spec, dataSize, size]
            exact (located.block.overlap_iff setup.positive setup.bounded block).mpr
              (same.trans place.symm)
      · exact nomatch reading.symm.trans plain
  refine holds.retires frame.spec frame.options frame.responses frame.nextControllerSequence waiting
    (congrArg Controller.pending how.result :) (how.bypassDram.trans plain)
    (congrArg Ticket.identity how.ticket) behavioral completions (memoryImage ▸ holds.image)
    (by rw [memoryImage]) ?_ (writes ▸ holds.buffer) (by rw [writes]; exact holds.whole)
    (by rw [writes]; exact fun _ silent => silent) ?_ ?_ ?_ slots
  · rw [writes, settled writeFifo]
  · rw [settled writeFifo]
    exact fun _ _ _ _ _ => rfl
  · intro _
    obtain ⟨here, size⟩ := placed rfl
    exact ⟨⟨here.block, here.decoded, here.slot⟩, size⟩
  · intro isWrite
    exact nomatch isRead.symm.trans (how.type.symm.trans isWrite)

omit [LawfulMemoryBackend β] in
/-- The pending write of a block changes no read of the block that is on its way: an older read
would have held the write back, and a younger one would have been answered from the buffer. -/
theorem Coherent.spared (holds : Coherent setup history c flat) {state : BufferedWriteState}
    (distinct : (c.traffic.map Request.controllerSequence).Nodup)
    (isWrite : request.type = .write) (was : request.unmarked ∈ c.waiting)
    (held : c.bufferedWrites.lookup request.address = some state)
    (unread : ∀ read ∈ c.waiting ++ c.pending, read.type = .read →
      read.controllerSequence < request.controllerSequence →
      ¬ rangesOverlap request.address (requestDataSize c.spec request) read.address
        (requestDataSize c.spec read) = true) :
    ∀ read ∈ c.waiting ++ c.issuedData, read.type = .read →
      SilentOn setup.size read.address state.request.patch := by
  intro read member isRead
  obtain ⟨here, block⟩ := holds.buffer _ state held
  obtain ⟨-, writes⟩ := holds.writes request.unmarked was isWrite
  have awaits := holds.awaits read member isRead
  have placed : read ∈ c.waiting ++ c.pending := List.mem_append.mpr
    ((List.mem_append.mp member).imp_right List.mem_of_mem_filter)
  by_cases same : read.address = request.address
  · rcases Nat.lt_trichotomy read.controllerSequence request.controllerSequence with
      older | equal | younger
    · refine absurd ?_ (unread read placed isRead older)
      have size : requestDataSize setup.spec request = setup.size := writes.dataSize setup.spec
      rw [holds.spec, size, awaits.dataSize]
      have own : Block setup.storage setup.size request.address := writes.block
      exact (own.overlap_iff setup.positive setup.bounded awaits.located.block).mpr same.symm
    · rw [traffic_map _ (fun _ => rfl), ← List.map_append] at distinct
      have one : read = request.unmarked :=
        List.inj_on_of_nodup_map distinct placed (List.mem_append_left _ was) equal
      rw [one] at isRead
      exact nomatch isWrite.symm.trans isRead
    · have silent := holds.undisturbed read member isRead request.unmarked was isWrite same.symm
        younger
      intro target target_in
      rw [← bufferPatch_of_some (by rw [target_in, same]; exact held)]
      exact silent target target_in
  · exact block.silentOn fun is => same (is.trans here)

/-- The data command of a write sends its pending write to the image, or to the PHY. -/
theorem Coherent.retireWrite (holds : Coherent setup history c flat)
    (tracks : c.memPhy.Tracks c.issuedData) (mirrored : Mirrored c)
    (distinct : (c.traffic.map Request.controllerSequence).Nodup)
    (isWrite : request.type = .write) (data : (commandMeta candidate.command).data = true)
    (writing : MemPhy.isRead candidate.command = false) (plain : request.bypassDram = false)
    (waiting : (request.unmarked :: after.waiting).Perm c.waiting)
    (unread : ∀ read ∈ c.waiting ++ c.pending, read.type = .read →
      read.controllerSequence < request.controllerSequence →
      ¬ rangesOverlap request.address (requestDataSize c.spec request) read.address
        (requestDataSize c.spec read) = true)
    (how : Retired c candidate request after) :
    ∃ stored, Coherent setup history after stored := by
  have was : request.unmarked ∈ c.waiting := waiting.mem_iff.mp List.mem_cons_self
  obtain ⟨unmarkedLocated, own⟩ := holds.writes request.unmarked was isWrite
  have located : request.Located setup := Request.Located.unmarked_iff.mp unmarkedLocated
  obtain ⟨state, lookup⟩ := mirrored.lookup was isWrite
  have held : c.bufferedWrites.lookup request.address = some state := lookup
  obtain ⟨here, block⟩ := holds.buffer _ state held
  have spared := holds.spared distinct isWrite was held unread
  have frame := (Advance.retired after data (by rw [isWrite]; nofun) how).turnFrame
  -- What is committed is the pending write, under the name of the request.
  have retiring : c.retiring candidate.command request = { request with
      issuedDataCommand := candidate.command
      issuedCycle := c.clk
      payload := state.request.payload
      expectedPayload := state.request.expectedPayload
      byteMask := state.request.byteMask
      hasPayload := state.request.hasPayload
      hasExpectedPayload := state.request.hasExpectedPayload
      hasByteMask := state.request.hasByteMask } := by
    unfold Controller.retiring mergedRequest
    dsimp only
    rw [if_pos isWrite, held]
  generalize merges : c.retiring candidate.command request = merged at retiring
  have mergedWrites : merged.WritesBlock setup.storage setup.size := by
    rw [retiring]
    exact ⟨located.block, ⟨block.ready.hasPayload, block.ready.payload, block.ready.mask⟩,
      own.sized.transfer, block.sized.expected, block.sized.payload⟩
  have mergedLocated : merged.Located setup := by
    rw [retiring]
    exact ⟨located.block, located.decoded, located.slot⟩
  have address : merged.address = request.address := by rw [retiring]
  have patch : merged.patch = state.request.patch := by
    rw [retiring]
    unfold Request.patch Request.writeMask
    rw [here]
  have type : merged.type = .write := by
    rw [retiring]
    exact isWrite
  have leaves : after.bufferedWrites = c.bufferedWrites.erase request.address := by
    rw [how.bufferedWrites, merges, ← address]
    unfold leaveBuffer
    rw [if_pos type]
  have erased := bufferPatch_erase holds.buffer held
  rw [← leaves] at erased
  have silent : ∀ address, SilentOn setup.size address (bufferPatch setup.size c.bufferedWrites) →
      SilentOn setup.size address (bufferPatch setup.size after.bufferedWrites) := by
    intro address silent target target_in
    have nothing := silent target target_in
    rw [erased, Patch.onto_apply] at nothing
    exact (Option.or_eq_none_iff.mp nothing).2
  have content : ∀ below : Patch Nat UInt8,
      (bufferPatch setup.size after.bufferedWrites).onto (state.request.patch.onto below) =
        (bufferPatch setup.size c.bufferedWrites).onto below := by
    intro below
    rw [erased]
    funext target
    simp only [Patch.onto_apply]
    by_cases same : lineBase setup.size target = request.address
    · rw [bufferPatch_of_none (by rw [same, leaves]; exact AList.lookup_erase _ _), Option.none_or,
        Option.or_none]
    · rw [block.patch_outside (fun is => same (is.trans here)), Option.none_or, Option.none_or]
  have committed : ∀ {finished : Request}, finished.WritesBlock setup.storage setup.size →
      Block setup.storage setup.size finished.address ∧
        requestDataSize setup.spec finished = setup.size := fun writes =>
    ⟨writes.block, writes.dataSize setup.spec⟩
  have buffer : BlockBuffer setup.storage setup.size after.bufferedWrites := by
    rw [leaves]
    exact holds.buffer.erase
  have whole : setup.behavioral = true → ∀ address state,
      after.bufferedWrites.lookup address = some state → state.request.hasByteMask = false := by
    intro behavioral other found lookup
    rw [leaves] at lookup
    by_cases same : other = request.address
    · rw [same, AList.lookup_erase] at lookup
      cases lookup
    · rw [AList.lookup_erase_ne same] at lookup
      exact holds.whole behavioral other found lookup
  have memoryImage : after.memoryImage = how.memoryImage :=
    (congrArg Controller.memoryImage how.result :)
  have commits := how.commits
  rw [merges, leaveBuffer_eq] at commits
  unfold commitIssued at commits
  rcases how.submitted with ⟨isDirect, same⟩ | ⟨isBehavioral, submits⟩
  · -- Without a behavioral PHY the write reaches the image with its command.
    rw [if_pos ⟨type, isDirect⟩] at commits
    unfold commitWriteData at commits
    rw [mergedWrites.ready.ensured] at commits
    obtain ⟨image, stores, commits⟩ := bind_eq_ok.mp commits
    obtain ⟨finished, returned⟩ := Prod.mk.inj (Except.ok.inj commits)
    have decoded : (if merged.hasStorageDecoded then merged.storageDecoded
        else { merged.decoded with channel := c.options.globalChannelId }) =
        decode setup.storage merged.address := by
      rw [holds.channel]
      exact mergedLocated.decoded
    unfold storageDecodedFor at stores
    dsimp only at stores
    rw [decoded] at stores
    have keeps := mergedWrites.stores holds.image holds.clean stores
    rw [patch] at keeps
    have settled : after.memPhy.settled (state.request.patch.onto flat) =
        state.request.patch.onto (c.memPhy.settled flat) := by
      rw [same, tracks.settled isDirect, tracks.settled isDirect]
    refine ⟨state.request.patch.onto flat, holds.retires frame.spec frame.options frame.responses
      frame.nextControllerSequence waiting (congrArg Controller.pending how.result :)
      (how.bypassDram.trans plain) (congrArg Ticket.identity how.ticket) (by rw [same])
      (by rw [same]) ?_ ?_ ?_ buffer whole silent ?_ ?_ ?_ (same ▸ holds.slots)⟩
    · rw [memoryImage, ← returned]
      exact keeps.holds
    · rw [memoryImage, ← returned]
      exact keeps.config
    · rw [settled]
      exact content _
    · intro read member isRead
      rw [settled]
      exact (spared read member isRead).agree _
    · intro isRead
      exact nomatch isWrite.symm.trans (how.type.symm.trans isRead)
    · intro _
      rw [← finished]
      have sized : ({ merged with dataCommitted := true } : Request).Sized setup.size :=
        ⟨mergedWrites.sized.transfer, mergedWrites.sized.expected, mergedWrites.sized.payload⟩
      exact ⟨mergedWrites.block, sized.dataSize mergedWrites.ready.hasPayload
        mergedWrites.ready.payload setup.spec, fun _ => rfl⟩
  · -- The PHY stores the write later, behind those it has.
    rw [if_neg (fun both => Bool.false_ne_true (both.2.symm.trans isBehavioral))] at commits
    obtain ⟨finished, returned⟩ := Prod.mk.inj (Except.ok.inj commits)
    obtain ⟨-, -, ⟨reading, -⟩ | ⟨-, -, -, next⟩⟩ :=
      MemPhy.submitData_enters isBehavioral submits
    · exact nomatch reading.symm.trans writing
    rw [← finished] at next
    have writeFifo : ∃ slot : DataSlot, slot.request = merged ∧
        after.memPhy.writeFifo = c.memPhy.writeFifo ++ [slot] := by
      rw [next]
      exact ⟨_, rfl, rfl⟩
    obtain ⟨slot, slotIs, writeFifo⟩ := writeFifo
    have readFifo : after.memPhy.readFifo = c.memPhy.readFifo := by rw [next]
    have settled : after.memPhy.settled flat =
        state.request.patch.onto (c.memPhy.settled flat) := by
      unfold MemPhy.settled
      rw [writeFifo, List.foldl_append, ← patch, ← slotIs]
      rfl
    refine ⟨flat, holds.retires frame.spec frame.options frame.responses
      frame.nextControllerSequence waiting (congrArg Controller.pending how.result :)
      (how.bypassDram.trans plain) (congrArg Ticket.identity how.ticket) (by rw [next]; rfl)
      (by rw [next]) ?_ ?_ ?_ buffer whole silent ?_ ?_ ?_ ?_⟩
    · rw [memoryImage, ← returned]
      exact holds.image
    · rw [memoryImage, ← returned]
    · rw [settled]
      exact content _
    · intro read member isRead
      rw [settled]
      exact (spared read member isRead).agree _
    · intro isRead
      exact nomatch isWrite.symm.trans (how.type.symm.trans isRead)
    · intro _
      rw [← finished]
      exact ⟨mergedWrites.block, mergedWrites.sized.dataSize mergedWrites.ready.hasPayload
        mergedWrites.ready.payload setup.spec, fun direct => absurd (direct.symm.trans
          (holds.behavioral.symm.trans isBehavioral)) Bool.false_ne_true⟩
    · refine ⟨readFifo ▸ holds.slots.reads, fun write member => ?_, fun other member => ?_,
        fun read listed write member => ?_⟩
      · rw [writeFifo] at member
        rcases List.mem_append.mp member with old | new
        · exact holds.slots.writes write old
        · rw [List.mem_singleton.mp new, slotIs]
          exact mergedWrites
      · unfold MemPhy.slots at member
        rw [readFifo, writeFifo] at member
        rcases List.mem_append.mp member with reads | writes
        · exact holds.slots.located other (List.mem_append_left _ reads)
        · rcases List.mem_append.mp writes with old | new
          · exact holds.slots.located other (List.mem_append_right _ old)
          · rw [List.mem_singleton.mp new, slotIs]
            exact mergedLocated
      · rw [readFifo] at listed
        rw [writeFifo] at member
        rcases List.mem_append.mp member with old | new
        · exact holds.slots.apart read listed write old
        · rw [List.mem_singleton.mp new, slotIs, address]
          intro same
          obtain ⟨partner, outstanding, identity⟩ :=
            tracks.partner read (List.mem_append_left _ listed)
          have partnerRead : partner.type = .read :=
            (congrArg Identity.type identity).trans (tracks.reads read listed)
          have place : partner.address = read.request.address :=
            congrArg Identity.address identity
          have nothing := spared partner (List.mem_append_right _ outstanding) partnerRead
          have base : lineBase setup.size request.address = request.address :=
            located.block.lineBase_add setup.positive
          have unmasked := holds.whole (holds.behavioral.symm.trans isBehavioral) _ state held
          have given := block.patch_whole unmasked (base.trans here.symm)
          rw [nothing request.address (base.trans (same.symm.trans place.symm))] at given
          cases given

/-! ### Turns -/

/-- The row operation of a command keeps the content. -/
theorem applyStorageCommandEvent_keeps {issued : Command}
    (holds : Holds c.memoryImage setup.storage flat)
    (stores : c.applyStorageCommandEvent request issued = .ok memoryImage) :
    Keeps c.memoryImage memoryImage setup.storage flat := by
  obtain ⟨_, -, stores⟩ := bind_eq_ok.mp stores
  split at stores
  all_goals first
    | exact ⟨(activateRow_holds holds stores).1, (activateRow_holds holds stores).2⟩
    | exact ⟨(prechargeBank_holds holds stores).1, (prechargeBank_holds holds stores).2⟩
    | exact ⟨(prechargeAll_holds holds stores).1, (prechargeAll_holds holds stores).2⟩
    | exact Except.ok.inj stores ▸ ⟨holds, rfl⟩

theorem Coherent.turn {bus : BusClass} {issued : List IssuedCommand}
    (holds : Coherent setup history c flat) (inFlight : InFlight c) (mirrored : Mirrored c)
    (turn : Turn c bus issued after) : ∃ stored, Coherent setup history after stored := by
  cases turn with
  | idle chosen choosing => exact ⟨flat, holds.housekeeping choosing.housekeeping⟩
  | @issue chosen choosing candidate request picks memPhy memoryImage after issuing =>
    have kept := holds.housekeeping choosing.housekeeping
    have places := inFlight.housekeeping choosing.housekeeping
    have buffer := mirrored.housekeeping choosing.housekeeping
    have found := issuing.issuable.found
    have waits : (chosen.issueEffects candidate request memPhy memoryImage).waiting =
        chosen.waiting := issueEffects_waiting found
    have pends : (chosen.issueEffects candidate request memPhy memoryImage).pending =
        chosen.pending := by rw [issueEffects_eq]
    have spec : (chosen.issueEffects candidate request memPhy memoryImage).spec = chosen.spec := by
      rw [issueEffects_eq]
    have phy : (chosen.issueEffects candidate request memPhy memoryImage).memPhy = memPhy := by
      rw [issueEffects_eq]
    have image : (chosen.issueEffects candidate request memPhy memoryImage).memoryImage =
        memoryImage := by rw [issueEffects_eq]
    have accepts := MemPhy.acceptCommand_dataKept issuing.accepts
    have keeps := applyStorageCommandEvent_keeps kept.image issuing.stores
    have effected : Coherent setup history
        (chosen.issueEffects candidate request memPhy memoryImage)
        flat := by
      refine kept.of_same spec (by rw [issueEffects_eq]) (List.Perm.of_eq waits) pends
        (by rw [issueEffects_eq]) (by rw [phy]; exact accepts) (by rw [image]; exact keeps.holds)
        (by rw [image]; exact keeps.config) ?_ (by rw [issueEffects_eq])
      rw [show (chosen.issueEffects candidate request memPhy memoryImage).responses =
        chosen.responses by rw [issueEffects_eq]]
      exact List.Subset.refl _
    have kinds : QueueKinds (chosen.issueEffects candidate request memPhy memoryImage) :=
      places.free.kinds.issueEffects found
    have mirrors : Mirrored (chosen.issueEffects candidate request memPhy memoryImage) := by
      refine ⟨kinds, ?_, ?_⟩
      · rw [issueEffects_eq]
        exact buffer.addrs
      · rw [waits, issueEffects_eq]
        exact buffer.keys
    have distinct : ((chosen.issueEffects candidate request memPhy memoryImage).traffic.map
        Request.controllerSequence).Nodup := by
      rw [traffic_map _ (fun _ => rfl), waits, pends, ← traffic_map _ (fun _ => rfl)]
      exact places.distinct
    have tracks : (chosen.issueEffects candidate request memPhy memoryImage).memPhy.Tracks
        (chosen.issueEffects candidate request memPhy memoryImage).issuedData := by
      rw [issuedData_of_pending pends, phy]
      exact places.tracks.kept accepts
    have flow := issuing.advance.flow issuing.marked kinds
    obtain ⟨unwritten, unread, -, -⟩ := candidateEligible_iff.mp issuing.issuable.eligible
    cases flow with
    | moved waiting same =>
      refine ⟨flat, effected.of_same ?_ ?_ waiting ?_ ?_ ?_ ?_ ?_ ?_ ?_⟩ <;> rw [same]
      · exact MemPhy.DataKept.refl _
      · exact effected.image
      · exact List.Subset.refl _
    | retired data ordinary waiting how =>
      have plain : (issueRequest chosen.spec request candidate.command).bypassDram = false := by
        have listed := waiting.mem_iff.mp List.mem_cons_self
        rw [waits] at listed
        exact (places.plain _ listed :)
      have same := issueRequest_eq chosen.spec request candidate.command
      rcases issuing.issuable.data_kind data (by rw [issueRequest_type] at ordinary; exact ordinary)
        with ⟨isRead, reading⟩ | ⟨isWrite, writing⟩
      · refine ⟨flat, effected.retireRead tracks (by rw [issueRequest_type]; exact isRead)
          data reading plain waiting ?_ how⟩
        rw [phy, accepts.behavioral, pends, spec, same]
        intro behavioral write member writeIs overlap
        refine unwritten ⟨behavioral, isRead, data, ?_⟩
        exact List.any_eq_true.mpr ⟨write, member,
          Bool.and_eq_true_iff.mpr ⟨decide_eq_true writeIs, overlap⟩⟩
      · refine effected.retireWrite tracks mirrors distinct
          (by rw [issueRequest_type]; exact isWrite) data writing plain waiting ?_ how
        rw [waits, pends, spec, same]
        intro read member isRead older
        have passes : chosen.hasUnresolvedOverlappingRead request request.controllerSequence =
            false := Bool.eq_false_iff.mpr fun hit => unread ⟨isWrite, hit⟩
        exact not_overlaps_of_check places.free.kinds passes read member isRead (Or.inr older)

/-! ### Runs -/

/-- A request for a run by blocks, as it is offered to a controller. -/
structure BlockRequest (storage : DramSpec) (size : Nat) (c : Controller β) (request : Request) :
    Prop where
  plain : request.bypassDram = false
  block : request.type ≠ .maintenance → Block storage size request.address
  decoded : request.type ≠ .maintenance →
    c.storageDecodedFor request = decode storage request.address
  slot : request.type ≠ .maintenance → c.memPhy.behavioral = true →
    MemPhy.slotDecoded request = decode storage request.address
  reads : request.type = .read → requestDataSize c.spec request = size
  writes : request.type = .write → (ensureWritePayload c.spec request).Sized size
  unmasked : request.type = .write → c.memPhy.behavioral = true → request.hasByteMask = false

omit [MemoryBackend β] [LawfulMemoryBackend β] in
theorem blockRequest_iff {storage : DramSpec} {size : Nat} :
    BlockRequest storage size c request ↔
      request.bypassDram = false ∧
      (request.type ≠ .maintenance →
        (request.address % size = 0 ∧ request.address + size ≤ storage.capacityOf) ∧
        c.storageDecodedFor request = decode storage request.address ∧
        (c.memPhy.behavioral = true →
          MemPhy.slotDecoded request = decode storage request.address)) ∧
      (request.type = .read → requestDataSize c.spec request = size) ∧
      (request.type = .write →
        ((ensureWritePayload c.spec request).transferBytes = 0 ∨
          (ensureWritePayload c.spec request).transferBytes = size) ∧
        ((ensureWritePayload c.spec request).hasExpectedPayload = true →
          (ensureWritePayload c.spec request).expectedPayload ≠ [] →
          (ensureWritePayload c.spec request).expectedPayload.length = size) ∧
        (ensureWritePayload c.spec request).payload.length = size ∧
        (c.memPhy.behavioral = true → request.hasByteMask = false)) := by
  constructor
  · rintro ⟨plain, block, decoded, slot, reads, writes, unmasked⟩
    exact ⟨plain, fun ordinary => ⟨⟨(block ordinary).aligned, (block ordinary).inside⟩,
      decoded ordinary, slot ordinary⟩, reads, fun isWrite => ⟨(writes isWrite).transfer,
      (writes isWrite).expected, (writes isWrite).payload, unmasked isWrite⟩⟩
  · rintro ⟨plain, ordinary, reads, writes⟩
    exact ⟨plain, fun kind => ⟨(ordinary kind).1.1, (ordinary kind).1.2⟩,
      fun kind => (ordinary kind).2.1, fun kind => (ordinary kind).2.2, reads,
      fun isWrite => ⟨(writes isWrite).1, (writes isWrite).2.1, (writes isWrite).2.2.1⟩,
      fun isWrite => (writes isWrite).2.2.2⟩

instance (storage : DramSpec) (size : Nat) (c : Controller β) (request : Request) :
    Decidable (BlockRequest storage size c request) :=
  decidable_of_iff _ blockRequest_iff.symm

omit [LawfulMemoryBackend β] in
theorem Coherent.byBlock (holds : Coherent setup history c flat)
    (block : BlockRequest setup.storage setup.size c request) : request.ByBlock setup where
  plain := block.plain
  located ordinary := by
    refine ⟨block.block ordinary, ?_, fun behavioral =>
      block.slot ordinary (holds.behavioral.trans behavioral)⟩
    rw [← holds.channel]
    exact block.decoded ordinary
  reads isRead := holds.spec ▸ block.reads isRead
  writes isWrite := holds.spec ▸ block.writes isWrite
  unmasked isWrite behavioral := block.unmasked isWrite (holds.behavioral.trans behavioral)

/-- A response to a read answers it with what it found. -/
def Truthful (setup : BlockSetup) (history : List ControllerEvent) : ControllerEvent → Prop
  | .responded response => response.type = .read → response.Told setup history
  | _ => True

/-- The controller of a run by blocks, and the events so far. -/
structure CoherentRun (setup : BlockSetup) (history : List ControllerEvent) (c : Controller β) :
    Prop where
  inFlight : InFlight c
  mirrored : Mirrored c
  coherent : ∃ flat, Coherent setup history c flat
  truthful : History.Each (Truthful setup) history

omit [MemoryBackend β] [LawfulMemoryBackend β] in
theorem truthful_acceptance (accepted : Bool) (each : History.Each (Truthful setup) history) :
    History.Each (Truthful setup) (history ++ c.acceptance accepted request) := by
  refine each.append fun event member before => ?_
  unfold acceptance at member
  split at member
  · rw [List.mem_singleton.mp member]
    trivial
  · exact absurd member List.not_mem_nil

theorem Coherent.beginTick (holds : Coherent setup history c flat) (inFlight : InFlight c)
    (returns : c.beginTick = .ok after) : ∃ stored, Coherent setup history after stored := by
  unfold Controller.beginTick completePending at returns
  obtain ⟨⟨memPhy, memoryImage⟩, ticks, returns⟩ := bind_eq_ok.mp returns
  obtain ⟨⟨left, completed⟩, each, returns⟩ := bind_eq_ok.mp returns
  cases returns
  obtain ⟨stored, ticked⟩ := holds.phyTick inFlight.tracks ticks
  have tracks := inFlight.tracks.tick ticks
  have direct : memPhy.behavioral = false → memPhy.writeFifo = [] := fun isDirect =>
    (List.append_eq_nil_iff.mp (tracks.direct isDirect).1).2
  have whole : Coherent setup history { ({ c with clk := c.clk + 1, memPhy, memoryImage } :
      Controller β) with pending := [] ++ c.pending } stored := ticked
  exact ⟨stored, whole.completeEach direct each⟩

theorem coherent_kept (setup : BlockSetup) :
    Kept (BlockRequest setup.storage setup.size) (fun _ _ => True)
      fun history (c : Controller β) => CoherentRun setup history c where
  enqueue history c request accepted after holds block returns := by
    obtain ⟨flat, coherent⟩ := holds.coherent
    have prepared := prepareAccept_housekeeping c request
    have entered := Entry.coherent (coherent.housekeeping prepared)
      (holds.inFlight.housekeeping prepared) (holds.mirrored.housekeeping prepared)
      (coherent.byBlock block) (enqueue_cases returns).2
    unfold acceptance at entered
    rw [prepared.nextControllerSequence] at entered
    exact ⟨inFlight_kept.enqueue history c request accepted after holds.inFlight
        block.plain returns,
      mirrored_kept.enqueue history c request accepted after holds.mirrored trivial returns,
      ⟨flat, entered⟩, truthful_acceptance accepted holds.truthful⟩
  beginTick history c begun holds returns := by
    obtain ⟨flat, coherent⟩ := holds.coherent
    exact ⟨inFlight_kept.beginTick history c begun holds.inFlight returns,
      mirrored_kept.beginTick history c begun holds.mirrored returns,
      coherent.beginTick holds.inFlight returns, holds.truthful⟩
  upkeep history c holds free := by
    obtain ⟨flat, coherent⟩ := holds.coherent
    have keeps := upkeep_housekeeping c
    exact ⟨holds.inFlight.housekeeping keeps, holds.mirrored.housekeeping keeps,
      ⟨flat, coherent.housekeeping keeps⟩, holds.truthful⟩
  turn history c bus issued after holds guard returns := by
    obtain ⟨flat, coherent⟩ := holds.coherent
    obtain ⟨stored, turned⟩ := coherent.turn holds.inFlight holds.mirrored (turn_cases returns)
    have silent : ∀ event ∈ issued.map ControllerEvent.issued, ∃ command, event = .issued command :=
      fun event member => by
        obtain ⟨command, -, rfl⟩ := List.mem_map.mp member
        exact ⟨command, rfl⟩
    refine ⟨inFlight_kept.turn history c bus issued after holds.inFlight guard returns,
      mirrored_kept.turn history c bus issued after holds.mirrored guard returns,
      ⟨stored, turned.append fun event member sequence request same => ?_⟩,
      holds.truthful.append fun event member before => ?_⟩
    · obtain ⟨command, issues⟩ := silent event member
      cases issues.symm.trans same
    · obtain ⟨command, rfl⟩ := silent event member
      trivial
  idleLowPower history c holds := by
    obtain ⟨flat, coherent⟩ := holds.coherent
    have keeps := idleLowPower_housekeeping c
    exact ⟨holds.inFlight.housekeeping keeps, holds.mirrored.housekeeping keeps,
      ⟨flat, coherent.housekeeping keeps⟩, holds.truthful⟩
  popResponse history c response after holds returns := by
    obtain ⟨flat, coherent⟩ := holds.coherent
    have inFlight := inFlight_kept.popResponse history c response after holds.inFlight returns
    have mirrored := mirrored_kept.popResponse history c response after holds.mirrored returns
    unfold Controller.popResponse at returns
    split at returns
    · cases returns
    next first rest responses =>
      cases returns
      have fewer : Coherent setup history { c with responses := rest } flat :=
        coherent.of_same rfl rfl (List.Perm.refl _) rfl rfl (MemPhy.DataKept.refl _)
          coherent.image rfl (responses ▸ List.subset_cons_self response rest) rfl
      refine ⟨inFlight, mirrored,
        ⟨flat, fewer.append fun event member sequence request same => ?_⟩,
        History.each_concat.mpr ⟨holds.truthful, fun isRead => ?_⟩⟩
      · cases (List.mem_singleton.mp member).symm.trans same
      · exact coherent.responses response (responses ▸ List.mem_cons_self) isRead
  flushStorage history c after holds returns := by
    obtain ⟨flat, coherent⟩ := holds.coherent
    refine ⟨inFlight_kept.flushStorage history c after holds.inFlight returns,
      mirrored_kept.flushStorage history c after holds.mirrored returns, ?_, holds.truthful⟩
    obtain ⟨image, flushes, returned⟩ := bind_eq_ok.mp returns
    cases returned
    obtain ⟨kept, config⟩ := flushDirtyRowBuffers_holds coherent.image flushes
    exact ⟨flat, coherent.of_same rfl rfl (List.Perm.refl _) rfl rfl (MemPhy.DataKept.refl _)
      kept config (List.Subset.refl _) rfl⟩

section Started

variable {spec storage : DramSpec} {options : ControllerOptions} {image : MemoryImage β}
variable {imageOptions : StorageModelOptions} {defaultValue : UInt8} {size : Nat}
variable {start final : Controller β} {ops : List ControllerOp} {events : List ControllerEvent}

/-- A new controller over a new image is coherent: both hold nothing. -/
theorem Created.coherentRun (created : Created spec options image start) (positive : 0 < size)
    (imaged : MemoryImage.create storage defaultValue imageOptions = .ok image)
    (separating : storage.Separating) (off : imageOptions.eccInjectPeriod ≤ 0) :
    ∃ setup : BlockSetup, setup.spec = spec ∧ setup.storage = storage ∧ setup.size = size ∧
      setup.defaultValue = defaultValue ∧ setup.initial = Patch.empty ∧
      CoherentRun setup [] start := by
  have bounded : storage.capacityOf ≤ uint64Max := by
    unfold MemoryImage.create at imaged
    obtain ⟨_, valid, -⟩ := bind_eq_ok.mp imaged
    exact (validateSpec_capacity valid).2.2
  obtain ⟨defaults, injects⟩ := create_given imaged
  obtain ⟨noReads, noWrites, noCompletions⟩ := MemPhy.create_empty created.memPhy
  have noData : start.issuedData = [] := by
    unfold issuedData
    rw [created.pending_eq]
    rfl
  have noBuffer : start.bufferedWrites = ∅ := by rw [created.result]
  have sameImage : start.memoryImage = image := by rw [created.result]
  have absent : ∀ {α : Type} {meets : α → Prop} {none : List α}, none = [] →
      ∀ other ∈ none, meets other := fun empty other member =>
    absurd (empty ▸ member) List.not_mem_nil
  have unbuffered : ∀ address, start.bufferedWrites.lookup address = none := fun address => by
    rw [noBuffer]
    exact AList.lookup_empty address
  have noTraffic : start.waiting ++ start.issuedData = [] := by
    rw [created.waiting_eq, noData]
    rfl
  have noPending : start.waiting ++ start.pending = [] := by
    rw [created.waiting_eq, created.pending_eq]
    rfl
  have noSlots : start.memPhy.slots = [] := by
    unfold MemPhy.slots
    rw [noReads, noWrites]
    rfl
  exact ⟨⟨spec, storage, size, start.options.globalChannelId, start.memPhy.behavioral,
    defaultValue, Patch.empty, positive, bounded⟩, rfl, rfl, rfl, rfl, rfl, created.inFlight,
    created.mirrored, ⟨Patch.empty, {
      spec := created.spec_eq
      channel := rfl
      behavioral := rfl
      image := sameImage ▸ create_holds imaged separating (Or.inl off)
      defaultValue := sameImage ▸ defaults
      clean := by rw [sameImage, injects]; exact off
      fresh := fun _ _ member => absurd member List.not_mem_nil
      content := by
        funext target
        rw [Patch.onto_apply, bufferPatch_of_none (unbuffered _)]
        unfold MemPhy.settled
        rw [noWrites]
        rfl
      buffer := fun address state held => absurd (held.symm.trans (unbuffered address))
        (Option.some_ne_none state)
      whole := fun _ address state held => absurd (held.symm.trans (unbuffered address))
        (Option.some_ne_none state)
      expects := absent noPending
      awaits := absent noTraffic
      undisturbed := absent noTraffic
      writes := absent created.waiting_eq
      stored := absent noData
      forwarded := absent created.pending_eq
      slots := ⟨absent noReads, absent noWrites, absent noSlots, absent noReads⟩
      completions := absent noCompletions
      responses := absent created.responses_eq }⟩, History.Each.nil⟩

/-- Every response to a read carries the content at the acceptance of the read. -/
def ReadsFind (spec : DramSpec) (defaultValue : UInt8) (size : Nat)
    (events : List ControllerEvent) : Prop :=
  ∀ before response after, events = before ++ .responded response :: after →
    response.type = .read →
    ∃ earlier request later,
      before = earlier ++ .accepted response.controllerSequence request :: later ∧
      request.type = .read ∧ request.id = response.requestId ∧
      request.address = response.localAddress ∧
      response.data =
        contentBytes defaultValue (written spec Patch.empty earlier) request.address size ∧
      response.initializedMask =
        contentMask (written spec Patch.empty earlier) request.address size

/-- In a run of a new controller whose reads and writes are to whole blocks of one size, every read
is answered with the writes accepted before it and with no others, whatever the order of the
commands, and wherever the bytes were when the read was accepted. -/
theorem reads_coherent (positive : 0 < size)
    (imaged : MemoryImage.create storage defaultValue imageOptions = .ok image)
    (separating : storage.Separating) (off : imageOptions.eccInjectPeriod ≤ 0)
    (created : create spec options image = .ok start)
    (blocks : start.RunMeets (BlockRequest storage size) (fun _ _ => True) ops)
    (returns : start.run ops = .ok (events, final)) : ReadsFind spec defaultValue size events := by
  obtain ⟨setup, rfl, rfl, rfl, rfl, initial, started⟩ :=
    (create_created created).coherentRun positive imaged separating off
  have ended := (coherent_kept setup).run started blocks returns
  intro before response after splits isRead
  obtain ⟨request, content, found, type, id, address, carries⟩ :=
    ended.truthful before (.responded response) after splits isRead
  obtain ⟨earlier, later, accepts, reached⟩ := found.splits
  rw [initial] at reached
  refine ⟨earlier, request, later, accepts, type, id, address, ?_, ?_⟩
  · rw [address, ← reached]
    exact carries.data
  · rw [address, ← reached]
    exact carries.initializedMask

/-- A read that a later write to its block overtakes, and a read of that write, which is answered
first. -/
def overtakenRead : List ControllerOp :=
  [.enqueue (writeAt twoBanks 1 0 [1, 2, 3, 4])] ++ List.replicate 24 .tick ++
    [.enqueue (readAt twoBanks 2 0 4), .enqueue (writeAt twoBanks 3 0 [5, 6, 7, 8]),
      .enqueue (readAt twoBanks 4 0 4)] ++ List.replicate 24 .tick ++
    [.popResponse, .popResponse, .popResponse]

/-- The data of the responses to reads. -/
def readData (events : List ControllerEvent) : List ByteVector :=
  events.filterMap fun
    | .responded response => if response.type = .read then some response.data else none
    | _ => none

theorem reads_coherent_overtakenRead : ∃ start events final,
    create twoBanks {} (imageOf twoBanks) = .ok start ∧
      start.run overtakenRead = .ok (events, final) ∧
      readData events = [[5, 6, 7, 8], [1, 2, 3, 4]] ∧ ReadsFind twoBanks 0 4 events := by
  have imaged : MemoryImage.create twoBanks 0 { eccShadowEnabled := false } =
      .ok (imageOf twoBanks) := rfl
  obtain ⟨start, events, final, created, guarded, returns, checks⟩ :=
    guardedRun_of_passes twoBanks {} overtakenRead (BlockRequest twoBanks 4) (fun _ _ => True)
      (fun result => decide (readData result.1 = [[5, 6, 7, 8], [1, 2, 3, 4]]))
      (by decide +kernel) (by decide +kernel)
  exact ⟨start, events, final, created, returns, of_decide_eq_true checks,
    reads_coherent (by decide) imaged (fun family => nomatch family) (le_refl 0) created guarded
      returns⟩

end Started

end Controller

end Drain

end HbmSim
