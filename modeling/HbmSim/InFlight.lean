/-
Where the reads and writes of a controller are. A request waits in a queue until
its data command issues, and is pending from then on.

A behavioral PHY holds a slot or a completion for every data command that is
pending, and for nothing else; a direct PHY holds nothing. Requests that wait
are compared without the marks that commands leave on them.
-/

import HbmSim.ReadBeforeWrite
import HbmSim.PhySlots

namespace HbmSim

/-! ### What the PHY holds -/

namespace MemPhy

/-- The data commands the PHY has not completed. -/
def slots (phy : MemPhy) : List DataSlot := phy.readFifo ++ phy.writeFifo

/-- The sequences of the requests with a slot or a completion. -/
def held (phy : MemPhy) : List Nat :=
  phy.slots.map (·.request.controllerSequence) ++ phy.completions.map (·.controllerSequence)

/-- The PHY holds the same data. -/
structure DataKept (before after : MemPhy) : Prop where
  options : after.options = before.options
  readFifo : after.readFifo = before.readFifo
  writeFifo : after.writeFifo = before.writeFifo
  completions : after.completions = before.completions

/-- The PHY holds the data of exactly the outstanding requests, or is direct and holds none. -/
structure Tracks (phy : MemPhy) (outstanding : List Request) : Prop where
  direct : phy.behavioral = false → phy.slots = [] ∧ phy.completions = []
  held : phy.behavioral = true →
    phy.held.Perm (outstanding.map Request.controllerSequence)
  reads : ∀ slot ∈ phy.readFifo, slot.request.type = .read
  writes : ∀ slot ∈ phy.writeFifo, slot.request.type = .write
  partner : ∀ slot ∈ phy.slots, ∃ request ∈ outstanding,
    request.identity = slot.request.identity

variable {phy next : MemPhy} {outstanding others : List Request} {request : Request}
variable {spec : DramSpec} {command : Command} {cycle : Nat}

theorem DataKept.refl (phy : MemPhy) : DataKept phy phy := ⟨rfl, rfl, rfl, rfl⟩

theorem acceptCommand_dataKept (accepts : phy.acceptCommand spec command cycle = .ok next) :
    DataKept phy next := by
  cases behavioral : phy.behavioral with
  | false =>
    unfold acceptCommand at accepts
    rw [if_pos behavioral] at accepts
    cases accepts
    exact DataKept.refl phy
  | true =>
    obtain ⟨options, reads, writes, completions, -⟩ :=
      @acceptCommand_steps Unit phy next spec command cycle behavioral accepts
    exact ⟨options, reads, writes, completions⟩

theorem DataKept.behavioral (kept : DataKept phy next) : next.behavioral = phy.behavioral := by
  unfold MemPhy.behavioral
  rw [kept.options]

theorem DataKept.slots (kept : DataKept phy next) : next.slots = phy.slots := by
  unfold MemPhy.slots
  rw [kept.readFifo, kept.writeFifo]

theorem DataKept.held (kept : DataKept phy next) : next.held = phy.held := by
  unfold MemPhy.held
  rw [kept.slots, kept.completions]

theorem Tracks.kept (tracks : phy.Tracks outstanding) (kept : DataKept phy next) :
    next.Tracks outstanding where
  direct := by
    rw [kept.behavioral, kept.slots, kept.completions]
    exact tracks.direct
  held := by
    rw [kept.behavioral, kept.held]
    exact tracks.held
  reads := kept.readFifo ▸ tracks.reads
  writes := kept.writeFifo ▸ tracks.writes
  partner := kept.slots ▸ tracks.partner

theorem Tracks.perm (tracks : phy.Tracks outstanding) (same : outstanding.Perm others) :
    phy.Tracks others where
  direct := tracks.direct
  held behavioral := (tracks.held behavioral).trans (same.map _)
  reads := tracks.reads
  writes := tracks.writes
  partner slot member := by
    obtain ⟨request, is, identity⟩ := tracks.partner slot member
    exact ⟨request, same.mem_iff.mp is, identity⟩

/-- A direct PHY holds nothing, whatever is outstanding. -/
theorem Tracks.of_direct (tracks : phy.Tracks outstanding) (direct : phy.behavioral = false)
    (others : List Request) : phy.Tracks others where
  direct := tracks.direct
  held behavioral := nomatch direct.symm.trans behavioral
  reads := tracks.reads
  writes := tracks.writes
  partner slot member := by
    rw [(tracks.direct direct).1] at member
    exact absurd member List.not_mem_nil

/-- A submitted request is outstanding, with its slot at the back of the FIFO of its direction. -/
theorem Tracks.submit (tracks : phy.Tracks outstanding) {ready : Nat} {finished : Request}
    (submits : phy.submitData spec request command cycle = .ok (ready, next))
    (kind : (request.type = .read ∧ isRead command = true) ∨
      (request.type = .write ∧ isRead command = false))
    (identity : finished.identity = request.identity) :
    next.Tracks (outstanding ++ [finished]) := by
  have sequence : finished.controllerSequence = request.controllerSequence :=
    congrArg Identity.controllerSequence identity
  have partner : ∀ slot : DataSlot, slot.request = request → ∃ other ∈ outstanding ++ [finished],
      other.identity = slot.request.identity := fun slot is =>
    ⟨finished, List.mem_append_right _ List.mem_cons_self, is ▸ identity⟩
  have older : ∀ slot ∈ phy.slots, ∃ other ∈ outstanding ++ [finished],
      other.identity = slot.request.identity := by
    intro slot member
    obtain ⟨other, is, same⟩ := tracks.partner slot member
    exact ⟨other, List.mem_append_left _ is, same⟩
  cases behavioral : phy.behavioral with
  | false =>
    unfold submitData at submits
    rw [if_pos behavioral] at submits
    cases submits
    exact ⟨tracks.direct, fun is => (nomatch behavioral.symm.trans is), tracks.reads, tracks.writes,
      older⟩
  | true =>
    obtain ⟨-, -, ⟨reads, -, rfl⟩ | ⟨plain, -, -, rfl⟩⟩ := submitData_enters behavioral submits
    · have isRead : request.type = .read :=
        (kind.resolve_right fun other => nomatch reads.symm.trans other.2).1
      refine ⟨fun is => (nomatch behavioral.symm.trans is), fun _ => ?_, ?_, tracks.writes, ?_⟩
      · have before := tracks.held behavioral
        unfold MemPhy.held MemPhy.slots at before ⊢
        rw [List.perm_iff_count] at before ⊢
        intro value
        have counts := before value
        simp only [List.map_append, List.map_cons, List.map_nil, List.count_append,
          List.count_cons, List.count_nil, sequence] at counts ⊢
        omega
      · intro slot member
        rcases List.mem_append.mp member with old | new
        · exact tracks.reads slot old
        · rw [List.mem_singleton.mp new]
          exact isRead
      · intro slot member
        unfold MemPhy.slots at member
        rcases List.mem_append.mp member with first | second
        · rcases List.mem_append.mp first with old | new
          · exact older slot (List.mem_append_left _ old)
          · exact partner slot (by rw [List.mem_singleton.mp new])
        · exact older slot (List.mem_append_right _ second)
    · have isWrite : request.type = .write :=
        (kind.resolve_left fun other => nomatch plain.symm.trans other.2).1
      refine ⟨fun is => (nomatch behavioral.symm.trans is), fun _ => ?_, tracks.reads, ?_, ?_⟩
      · have before := tracks.held behavioral
        unfold MemPhy.held MemPhy.slots at before ⊢
        rw [List.perm_iff_count] at before ⊢
        intro value
        have counts := before value
        simp only [List.map_append, List.map_cons, List.map_nil, List.count_append,
          List.count_cons, List.count_nil, sequence] at counts ⊢
        omega
      · intro slot member
        rcases List.mem_append.mp member with old | new
        · exact tracks.writes slot old
        · rw [List.mem_singleton.mp new]
          exact isWrite
      · intro slot member
        unfold MemPhy.slots at member
        rcases List.mem_append.mp member with first | second
        · exact older slot (List.mem_append_left _ first)
        · rcases List.mem_append.mp second with old | new
          · exact older slot (List.mem_append_right _ old)
          · exact partner slot (by rw [List.mem_singleton.mp new])

/-- The request whose completion is taken is not outstanding any more. -/
theorem Tracks.take (tracks : phy.Tracks (request :: others)) (behavioral : phy.behavioral = true)
    (distinct : ((request :: others).map Request.controllerSequence).Nodup)
    {completion : MemPhyCompletion}
    (takes : phy.takeCompletion request.id request.controllerSequence = some (completion, next)) :
    next.Tracks others ∧ completion ∈ phy.completions ∧
      completion.controllerSequence = request.controllerSequence := by
  unfold takeCompletion at takes
  obtain ⟨found, finds, is⟩ := Option.map_eq_some_iff.mp takes
  cases is
  have passes := List.find?_some finds
  have mine := of_decide_eq_true passes
  have listed := List.mem_of_find?_eq_some finds
  refine ⟨?_, listed, mine.2⟩
  have taken := (perm_eraseP finds).map MemPhyCompletion.controllerSequence
  have before := tracks.held behavioral
  rw [List.map_cons] at taken before distinct
  rw [mine.2] at taken
  -- The PHY held the sequence of the request once, in the completion.
  have rest := (List.perm_middle.symm.trans
    ((taken.symm.append_left (phy.slots.map _)).trans before)).cons_inv
  refine ⟨fun is => (nomatch behavioral.symm.trans is), fun _ => rest, tracks.reads, tracks.writes,
    fun slot member => ?_⟩
  obtain ⟨other, partner, same⟩ := tracks.partner slot member
  rcases List.mem_cons.mp partner with rfl | later
  · have sequence : other.controllerSequence = slot.request.controllerSequence :=
      congrArg Identity.controllerSequence same
    have again : slot.request.controllerSequence ∈ others.map Request.controllerSequence :=
      rest.subset (List.mem_append_left _ (List.mem_map_of_mem member))
    rw [← sequence] at again
    exact absurd again (List.nodup_cons.mp distinct).1
  · exact ⟨other, later, same⟩

/-- The completions of the slots that leave have their sequences. -/
theorem answers_sequences {leaving : List (DataSlot × Nat)} {done : List MemPhyCompletion}
    (answers : List.Forall₂ Answers leaving done) :
    done.map (·.controllerSequence) = leaving.map (·.1.request.controllerSequence) := by
  induction answers with
  | nil => rfl
  | cons answer _ inductionHypothesis =>
    rw [List.map_cons, List.map_cons, inductionHypothesis, answer.controllerSequence]

theorem step_tick_sequences (fifo : List DataSlot) (cycle : Nat) :
    fifo.map (·.request.controllerSequence) =
      (DelayLine.step DataSlot.readyCycle fifo (.tick cycle)).1.map
          (·.1.request.controllerSequence) ++
        (DelayLine.step DataSlot.readyCycle fifo (.tick cycle)).2.map
          (·.request.controllerSequence) := by
  unfold DelayLine.step
  dsimp only
  rw [List.map_map]
  refine Eq.trans ?_ List.map_append
  exact congrArg _ List.takeWhile_append_dropWhile.symm

/-- A tick turns slots into completions. -/
theorem Tracks.tick {β : Type} [MemoryBackend β] {image after : MemoryImage β}
    (tracks : phy.Tracks outstanding)
    (ticks : phy.tick spec image cycle = .ok (next, after)) : next.Tracks outstanding := by
  obtain ⟨options, -, -, reads, writes, readsDone, writesDone, completions, readAnswers,
    writeAnswers⟩ := tick_takes ticks
  have behavioral : next.behavioral = phy.behavioral := by
    unfold MemPhy.behavioral
    rw [options]
  have stays : ∀ fifo : List DataSlot,
      (DelayLine.step DataSlot.readyCycle fifo (.tick cycle)).2 ⊆ fifo := fun fifo =>
    (List.dropWhile_sublist _).subset
  have remaining : next.slots ⊆ phy.slots := by
    unfold MemPhy.slots
    rw [reads, writes]
    exact List.append_subset.mpr ⟨fun _ member => List.mem_append_left _ (stays _ member),
      fun _ member => List.mem_append_right _ (stays _ member)⟩
  have holds : next.held.Perm phy.held := by
    have readSequences := step_tick_sequences phy.readFifo cycle
    have writeSequences := step_tick_sequences phy.writeFifo cycle
    rw [← answers_sequences readAnswers, ← reads] at readSequences
    rw [← answers_sequences writeAnswers, ← writes] at writeSequences
    unfold MemPhy.held MemPhy.slots
    rw [completions]
    simp only [List.map_append, readSequences, writeSequences]
    rw [List.perm_iff_count]
    intro value
    simp only [List.count_append]
    omega
  refine ⟨fun is => ?_, fun is => ?_, fun slot member => ?_, fun slot member => ?_,
    fun slot member => tracks.partner slot (remaining member)⟩
  · rw [behavioral] at is
    obtain ⟨none, nothing⟩ := tracks.direct is
    have empty : phy.held = [] := by
      unfold MemPhy.held
      rw [none, nothing]
      rfl
    have still := List.append_eq_nil_iff.mp (List.perm_nil.mp (empty ▸ holds))
    exact ⟨List.map_eq_nil_iff.mp still.1, List.map_eq_nil_iff.mp still.2⟩
  · exact holds.trans (tracks.held (behavioral ▸ is))
  · rw [reads] at member
    exact tracks.reads slot (stays _ member)
  · rw [writes] at member
    exact tracks.writes slot (stays _ member)

/-- A new PHY holds nothing. -/
theorem create_empty {options : MemPhyOptions} (creates : create spec options = .ok phy) :
    phy.readFifo = [] ∧ phy.writeFifo = [] ∧ phy.completions = [] := by
  unfold create at creates
  obtain ⟨_, -, creates⟩ := bind_eq_ok.mp creates
  obtain ⟨_, -, creates⟩ := bind_eq_ok.mp creates
  obtain ⟨_, -, creates⟩ := bind_eq_ok.mp creates
  (repeat' split at creates) <;> cases creates <;> exact ⟨rfl, rfl, rfl⟩

theorem create_tracks {options : MemPhyOptions} (creates : create spec options = .ok phy) :
    phy.Tracks [] := by
  obtain ⟨reads, writes, completions⟩ := create_empty creates
  have slots : phy.slots = [] := by
    unfold MemPhy.slots
    rw [reads, writes]
    rfl
  refine ⟨fun _ => ⟨slots, completions⟩, fun _ => ?_, fun slot member => ?_,
    fun slot member => ?_, fun slot member => ?_⟩
  · unfold MemPhy.held
    rw [slots, completions]
    exact List.Perm.refl _
  · exact absurd (reads ▸ member) List.not_mem_nil
  · exact absurd (writes ▸ member) List.not_mem_nil
  · exact absurd (slots ▸ member) List.not_mem_nil

end MemPhy

/-! ### Requests in the queues -/

/-- The request without the marks of its commands. -/
def Request.unmarked (request : Request) : Request :=
  { request with issuedFirstActivate := false, casSyncIssued := false }

namespace Controller

variable {β : Type} {c before after chosen : Controller β} {request : Request}
variable {candidate : Candidate} {bus : BusClass} {issued : List IssuedCommand}

@[simp] theorem issueRequest_unmarked (spec : DramSpec) (request : Request) (command : Command) :
    (issueRequest spec request command).unmarked = request.unmarked := by
  rw [issueRequest_eq]
  rfl

/-- The reads and writes whose data command has not issued. -/
def waiting (c : Controller β) : List Request :=
  (c.requestQueues.queue .read ++ c.requestQueues.queue .write ++
    c.requestQueues.queue .active).map Request.unmarked

theorem traffic_map {α : Type} (f : Request → α) (ignores : ∀ request, f request.unmarked =
    f request) (c : Controller β) :
    c.traffic.map f = c.waiting.map f ++ c.pending.map f := by
  have same : f ∘ Request.unmarked = f := funext ignores
  unfold traffic waiting
  rw [List.map_append, List.map_map, same]

theorem mem_waiting : request ∈ c.waiting ↔ ∃ queued, (queued ∈ c.requestQueues.queue .read ∨
    queued ∈ c.requestQueues.queue .write ∨ queued ∈ c.requestQueues.queue .active) ∧
    queued.unmarked = request := by
  unfold waiting
  simp only [List.mem_map, List.mem_append, or_assoc]

theorem Housekeeping.waiting (keeps : Housekeeping before after) :
    after.waiting = before.waiting := by
  unfold Controller.waiting
  rw [keeps.queue .read nofun, keeps.queue .write nofun, keeps.queue .active nofun]

/-- A request that waits is found in its queue. -/
theorem QueueKinds.waits (kinds : QueueKinds c) {kind : RequestQueueKind}
    (member : request ∈ c.requestQueues.queue kind) (ordinary : request.type ≠ .maintenance) :
    request.unmarked ∈ c.waiting := by
  refine mem_waiting.mpr ⟨request, ?_, rfl⟩
  cases kind with
  | active => exact Or.inr (Or.inr member)
  | priority => exact absurd ((kinds.maintenance_iff member).mpr rfl) ordinary
  | read => exact Or.inl member
  | write => exact Or.inr (Or.inl member)

section Effects

variable {memPhy : MemPhy} {memoryImage : MemoryImage β}

/-- A command marks its request and moves none. -/
theorem issueEffects_waiting
    (found : (c.requestQueues.queue candidate.buffer)[candidate.index]? = some request) :
    (c.issueEffects candidate request memPhy memoryImage).waiting = c.waiting := by
  unfold waiting
  simp only [issueEffects_requestQueues, List.map_append]
  have marked : ∀ kind, ((c.requestQueues.put candidate.buffer
      ((c.requestQueues.queue candidate.buffer).set candidate.index
        (issueRequest c.spec request candidate.command))).queue kind).map Request.unmarked =
      (c.requestQueues.queue kind).map Request.unmarked := by
    intro kind
    by_cases same : kind = candidate.buffer
    · subst same
      rw [put_queue_self]
      exact map_set_of_found found (issueRequest_unmarked ..)
    · rw [put_queue_of_ne same]
  rw [marked .read, marked .write, marked .active]

end Effects

/-! ### Data commands -/

/-- A clock command moves no data. -/
theorem nextClockCommand_plain {next : Command} (isNext : c.nextClockCommand request = some next) :
    (commandMeta next).data = false := by
  unfold nextClockCommand at isNext
  dsimp only at isNext
  (repeat' split at isNext) <;> cases isNext <;> rfl

/-- The data command that is next for a read or write is one of its own direction. -/
theorem nextCommand_data {next : Command} (isNext : c.nextCommand request = some next)
    (data : (commandMeta next).data = true) (ordinary : request.type ≠ .maintenance) :
    (request.type = .read ∧ (next = .rd ∨ next = .rda)) ∨
      (request.type = .write ∧ (next = .wr ∨ next = .wra)) := by
  unfold nextCommand at isNext
  dsimp only at isNext
  rw [if_neg ordinary] at isNext
  split at isNext
  · split at isNext
    · exact nomatch (nextClockCommand_plain isNext).symm.trans data
    · unfold readCommandFor writeCommandFor at isNext
      cases type : request.type with
      | maintenance => exact absurd type ordinary
      | read =>
        rw [type, if_pos rfl] at isNext
        split at isNext <;> cases isNext
        · exact Or.inl ⟨rfl, Or.inr rfl⟩
        · exact Or.inl ⟨rfl, Or.inl rfl⟩
      | write =>
        rw [type, if_neg nofun] at isNext
        split at isNext <;> cases isNext
        · exact Or.inr ⟨rfl, Or.inr rfl⟩
        · exact Or.inr ⟨rfl, Or.inl rfl⟩
  split at isNext
  · cases isNext
    cases data
  split at isNext
  · split at isNext
    · cases isNext
      cases data
    · cases isNext
  split at isNext
  · split at isNext <;> cases isNext <;> cases data
  · cases isNext
    cases data

/-- The data command of a read reads, and that of a write writes. -/
theorem Issuable.data_kind (issuable : Issuable c candidate request)
    (data : (commandMeta candidate.command).data = true) (ordinary : request.type ≠ .maintenance) :
    (request.type = .read ∧ MemPhy.isRead candidate.command = true) ∨
      (request.type = .write ∧ MemPhy.isRead candidate.command = false) := by
  obtain ⟨next, isNext, how⟩ := issuable.next
  have nextData : (commandMeta next).data = true := by
    rcases how with same | ⟨-, ⟨plain, -⟩ | ⟨plain, -⟩⟩
    · exact same ▸ data
    · rw [plain]
      rfl
    · rw [plain]
      rfl
  have kinds := nextCommand_data isNext nextData ordinary
  rcases how with same | ⟨-, ⟨plain, upgrade⟩ | ⟨plain, upgrade⟩⟩
  · rw [same]
    rcases kinds with ⟨isRead, rfl | rfl⟩ | ⟨isWrite, rfl | rfl⟩
    · exact Or.inl ⟨isRead, rfl⟩
    · exact Or.inl ⟨isRead, rfl⟩
    · exact Or.inr ⟨isWrite, rfl⟩
    · exact Or.inr ⟨isWrite, rfl⟩
  · subst plain
    rw [upgrade]
    exact Or.inl ⟨(kinds.resolve_right fun is => by rcases is.2 with is | is <;> cases is).1, rfl⟩
  · subst plain
    rw [upgrade]
    exact Or.inr ⟨(kinds.resolve_left fun is => by rcases is.2 with is | is <;> cases is).1, rfl⟩

section Moving

variable [MemoryBackend β]

/-- After its command a request stays among the waiting ones, or its data command has taken it
out. -/
inductive Flow (c : Controller β) (candidate : Candidate) (request : Request) :
    Controller β → Prop
  | moved {after : Controller β} (waiting : after.waiting.Perm c.waiting)
      (same : after = { c with requestQueues := after.requestQueues, stats := after.stats }) :
      Flow c candidate request after
  | retired {after : Controller β} (data : (commandMeta candidate.command).data = true)
      (ordinary : request.type ≠ .maintenance)
      (waiting : (request.unmarked :: after.waiting).Perm c.waiting)
      (how : Retired c candidate request after) : Flow c candidate request after

theorem Advance.flow
    (found : (c.requestQueues.queue candidate.buffer)[candidate.index]? = some request)
    (kinds : QueueKinds c) (advance : Advance c candidate request after) :
    Flow c candidate request after := by
  have isPriority := kinds.maintenance_iff (List.mem_of_getElem? found)
  cases advance with
  | served requestQueues maintenance own erases =>
    obtain ⟨others, here⟩ := erase_cases found erases
    rw [isPriority.mp maintenance] at others
    refine .moved (List.Perm.of_eq ?_) rfl
    unfold waiting
    dsimp only
    rw [others .read nofun, others .write nofun, others .active nofun]
  | promoted opening ordinary unopened =>
    have notPriority : candidate.buffer ≠ .priority := fun is => ordinary (isPriority.mpr is)
    refine .moved ?_ rfl
    rcases promote_cases unopened found with full | ⟨others, here, active⟩
    · rw [full]
    · have taken := here.symm ▸ eraseIdx_perm found
      exact (promoted_perm notPriority unopened others taken active).map _
  | stayed => exact .moved (List.Perm.refl _) rfl
  | retired after data ordinary how =>
    have notPriority : candidate.buffer ≠ .priority := fun is => ordinary (isPriority.mpr is)
    obtain ⟨others, here⟩ := erase_cases found how.erases
    have taken := here.symm ▸ eraseIdx_perm found
    have moves := (erased_perm notPriority others taken).map Request.unmarked
    rw [List.map_cons] at moves
    refine .retired data ordinary ?_ how
    have queues : after.requestQueues = how.requestQueues :=
      congrArg Controller.requestQueues how.result
    unfold waiting
    rw [queues]
    exact moves

end Moving

/-! ### The invariant -/

/-- The pending requests of data commands. The others were answered from the write buffer, or
merged into it. -/
def issuedData (c : Controller β) : List Request :=
  c.pending.filter fun request => !request.bypassDram

/-- Every request is in one place, and the PHY tracks the outstanding ones. -/
structure InFlight (c : Controller β) : Prop where
  free : WritesFree c
  distinct : (c.traffic.map Request.controllerSequence).Nodup
  plain : ∀ request ∈ c.waiting, request.bypassDram = false
  tracks : c.memPhy.Tracks c.issuedData

theorem outstanding_bypass {pending : List Request} (bypass : request.bypassDram = true) :
    (pending ++ [request]).filter (fun request => !request.bypassDram) =
      pending.filter fun request => !request.bypassDram := by
  rw [List.filter_append, List.filter_cons_of_neg (by rw [bypass]; exact Bool.false_ne_true)]
  exact List.append_nil _

theorem InFlight.housekeeping (keeps : Housekeeping before after) (holds : InFlight before) :
    InFlight after where
  free := holds.free.housekeeping keeps
  distinct := keeps.traffic ▸ holds.distinct
  plain := keeps.waiting ▸ holds.plain
  tracks := by
    unfold issuedData
    rw [show after.memPhy = before.memPhy from congrArg Core.memPhy keeps.core, keeps.pending]
    exact holds.tracks

theorem Entered.distinct {entered : Request} (enters : Entered c request entered after)
    (free : WritesFree c) (distinct : (c.traffic.map Request.controllerSequence).Nodup) :
    (after.traffic.map Request.controllerSequence).Nodup := by
  have sequence : entered.controllerSequence = c.nextControllerSequence :=
    congrArg Identity.controllerSequence enters.identity
  refine (enters.traffic.map _).nodup_iff.mpr ?_
  rw [List.map_cons, sequence, List.nodup_cons]
  refine ⟨fun member => ?_, distinct⟩
  obtain ⟨other, is, same⟩ := List.mem_map.mp member
  exact absurd same (Nat.ne_of_lt (free.fresh other is))

/-- A request behind a queue waits with the others. -/
theorem waiting_pushBack {kind : RequestQueueKind} {queued : Request} (ordinary : kind ≠ .priority)
    (queues : after.requestQueues = c.requestQueues.pushBack kind queued) :
    after.waiting.Perm (queued.unmarked :: c.waiting) := by
  unfold waiting
  rw [queues, ← List.map_cons]
  refine List.Perm.map _ ?_
  rw [List.perm_iff_count]
  intro other
  cases kind with
  | priority => exact absurd rfl ordinary
  | _ =>
    simp only [RequestQueues.pushBack, put_queue_self, ne_eq, reduceCtorEq, not_false_eq_true,
      put_queue_of_ne, List.count_append, List.count_cons, List.count_nil]
    omega

section Steps

variable [MemoryBackend β]

/-- What an entry does to the places: the request waits, or is pending for the write buffer. -/
theorem Entry.places {accepted : Bool} (entry : Entry c request accepted after) :
    after.memPhy = c.memPhy ∧ after.issuedData = c.issuedData ∧
      ∀ other ∈ after.waiting, other ∈ c.waiting ∨ other.bypassDram = request.bypassDram := by
  have kept : ∀ {after : Controller β}, after.requestQueues = c.requestQueues →
      ∀ other ∈ after.waiting, other ∈ c.waiting ∨ other.bypassDram = request.bypassDram := by
    intro after queues other member
    unfold waiting at member ⊢
    rw [queues] at member
    exact Or.inl member
  have joined : ∀ {after : Controller β} (kind : RequestQueueKind) {queued : Request},
      kind ≠ .priority → after.requestQueues = c.requestQueues.pushBack kind queued →
      queued.bypassDram = request.bypassDram →
      ∀ other ∈ after.waiting, other ∈ c.waiting ∨ other.bypassDram = request.bypassDram := by
    intro after kind queued ordinary queues same other member
    rcases List.mem_cons.mp ((waiting_pushBack ordinary queues).mem_iff.mp member) with rfl | old
    · exact Or.inr same
    · exact Or.inl old
  cases entry with
  | refused => exact ⟨rfl, rfl, kept rfl⟩
  | forwarded isRead hits forwards =>
    unfold forwardRead at forwards
    obtain ⟨⟨payload, byteMask, image⟩, -, forwards⟩ := bind_eq_ok.mp forwards
    cases forwards
    exact ⟨rfl, outstanding_bypass rfl, kept rfl⟩
  | queuedRead => exact ⟨rfl, rfl, joined .read nofun rfl rfl⟩
  | coalesced => exact ⟨rfl, outstanding_bypass rfl, kept rfl⟩
  | buffered =>
    refine ⟨rfl, rfl, joined .write nofun rfl ?_⟩
    rw [ensureWritePayload_eq]
  | maintenance =>
    refine ⟨rfl, rfl, fun other member => Or.inl ?_⟩
    have same : ∀ (queued : Request) (kind : RequestQueueKind), kind ≠ .priority →
        (c.requestQueues.pushBack .priority queued).queue kind = c.requestQueues.queue kind :=
      fun _ _ differs => put_queue_of_ne differs
    obtain ⟨found, place, rfl⟩ := mem_waiting.mp member
    dsimp only at place
    rw [same _ .read nofun, same _ .write nofun, same _ .active nofun] at place
    exact mem_waiting.mpr ⟨found, place, rfl⟩

omit [MemoryBackend β] in
/-- A request that completes leaves the outstanding ones, and the PHY if that had its data. -/
theorem readiness_tracks {front rest : List Request} {finished : Request}
    {phyCompletion : Option MemPhyCompletion} {memPhy : MemPhy}
    (ready : c.readiness request = .completes finished phyCompletion memPhy)
    (distinct : ((front ++ request :: rest).map Request.controllerSequence).Nodup)
    (tracks : c.memPhy.Tracks ((front ++ request :: rest).filter fun r => !r.bypassDram)) :
    memPhy.Tracks ((front ++ rest).filter fun r => !r.bypassDram) := by
  cases bypass : request.bypassDram with
  | true =>
    have same : (front ++ request :: rest).filter (fun r => !r.bypassDram) =
        (front ++ rest).filter fun r => !r.bypassDram := by
      rw [List.filter_append, List.filter_append,
        List.filter_cons_of_neg (by rw [bypass]; exact Bool.false_ne_true)]
    rw [same] at tracks
    unfold readiness at ready
    split at ready
    · cases ready
    · rw [if_neg (by rw [bypass]; nofun)] at ready
      cases ready
      exact tracks
  | false =>
    cases behavioral : c.memPhy.behavioral with
    | false =>
      unfold readiness at ready
      split at ready
      · cases ready
      · rw [if_neg (by rw [behavioral]; nofun)] at ready
        cases ready
        exact tracks.of_direct behavioral _
    | true =>
      have moved : ((front ++ request :: rest).filter fun r => !r.bypassDram).Perm
          (request :: (front ++ rest).filter fun r => !r.bypassDram) := by
        rw [← @List.filter_cons_of_pos _ (fun r : Request => !r.bypassDram) request _
          (by rw [bypass]; rfl)]
        exact List.perm_middle.filter _
      have apart : (((front ++ request :: rest).filter fun r => !r.bypassDram).map
          Request.controllerSequence).Nodup :=
        List.Nodup.sublist (List.filter_sublist.map _) distinct
      unfold readiness at ready
      split at ready
      · cases ready
      · rw [if_pos ⟨bypass, behavioral⟩] at ready
        split at ready
        · cases ready
        next takes =>
          cases ready
          exact ((tracks.perm moved).take behavioral ((moved.map _).nodup_iff.mp apart) takes).1

theorem completeEach_tracks {front requests left : List Request}
    (distinct : ((front ++ requests).map Request.controllerSequence).Nodup)
    (tracks : c.memPhy.Tracks ((front ++ requests).filter fun r => !r.bypassDram))
    (returns : completeEach requests c = .ok (left, after)) :
    after.memPhy.Tracks ((front ++ left).filter fun r => !r.bypassDram) := by
  induction requests generalizing front c left with
  | nil =>
    cases returns
    exact tracks
  | cons request rest inductionHypothesis =>
    obtain ⟨⟨stays, middle⟩, one, returns⟩ := bind_eq_ok.mp returns
    obtain ⟨⟨later, final⟩, others, returns⟩ := bind_eq_ok.mp returns
    cases returns
    have shorter : ((front ++ rest).map Request.controllerSequence).Nodup := by
      refine List.Nodup.sublist (List.Sublist.map _ ?_) distinct
      exact (List.sublist_cons_self request rest).append_left front
    cases completeOne_cases one with
    | waits =>
      rw [if_pos rfl]
      have shifted : front ++ request :: rest = (front ++ [request]) ++ rest := by simp
      have again : front ++ request :: later = (front ++ [request]) ++ later := by simp
      rw [shifted] at distinct tracks
      rw [again]
      exact inductionHypothesis distinct tracks others
    | read isRead ready completes =>
      refine inductionHypothesis shorter ?_ others
      have gone := readiness_tracks ready distinct tracks
      unfold countCompleted keepResponse
      dsimp only
      split <;> exact gone
    | write isWrite ready completes =>
      refine inductionHypothesis shorter ?_ others
      have gone := readiness_tracks ready distinct tracks
      unfold countCompleted keepResponse
      dsimp only
      split <;> exact gone
    | maintenance isMaintenance ready =>
      exact inductionHypothesis shorter (readiness_tracks ready distinct tracks) others

/-- What a data command makes pending is outstanding if its request is a plain one. -/
theorem Retired.bypassDram (how : Retired c candidate request after) :
    how.finished.bypassDram = request.bypassDram := by
  rw [(commitIssued_eq how.commits).1]
  unfold retiring
  rw [mergedRequest_eq]

/-- The PHY after a data command. -/
theorem Retired.submitted (how : Retired c candidate request after) :
    (c.memPhy.behavioral = false ∧ after.memPhy = c.memPhy) ∨
      (c.memPhy.behavioral = true ∧ c.memPhy.submitData c.spec how.finished candidate.command
        c.clk = .ok (how.completion, after.memPhy)) := by
  have memPhy : after.memPhy = how.memPhy := congrArg Controller.memPhy how.result
  have submits := how.submits
  rw [leaveBuffer_eq] at submits
  unfold submitIssued at submits
  dsimp only at submits
  rw [memPhy]
  cases behavioral : c.memPhy.behavioral with
  | true =>
    rw [if_pos behavioral] at submits
    exact Or.inr ⟨rfl, submits⟩
  | false =>
    rw [if_neg (by rw [behavioral]; exact Bool.false_ne_true)] at submits
    refine Or.inl ⟨rfl, ?_⟩
    split at submits <;> exact (congrArg Prod.snd (Except.ok.inj submits)).symm

theorem Flow.inFlight (flow : Flow c candidate request after)
    (plain : ∀ other ∈ c.waiting, other.bypassDram = false)
    (kind : (commandMeta candidate.command).data = true → request.type ≠ .maintenance →
      (request.type = .read ∧ MemPhy.isRead candidate.command = true) ∨
        (request.type = .write ∧ MemPhy.isRead candidate.command = false))
    (tracks : c.memPhy.Tracks c.issuedData) :
    (∀ other ∈ after.waiting, other.bypassDram = false) ∧
      after.memPhy.Tracks after.issuedData := by
  cases flow with
  | moved waiting same =>
    refine ⟨fun other member => plain other (waiting.mem_iff.mp member), ?_⟩
    rw [same]
    exact tracks
  | retired data ordinary waiting how =>
    refine ⟨fun other member =>
      plain other (waiting.mem_iff.mp (List.mem_cons_of_mem _ member)), ?_⟩
    have direct : how.finished.bypassDram = false :=
      how.bypassDram.trans (plain request.unmarked (waiting.mem_iff.mp List.mem_cons_self))
    have pending : after.pending = c.pending ++ [{ how.finished with
        completion := c.autoPrechargeCompletion candidate.command how.completion }] :=
      congrArg Controller.pending how.result
    unfold issuedData
    rw [pending, List.filter_append, List.filter_cons_of_pos (by
      show (!how.finished.bypassDram) = true
      rw [direct]
      rfl)]
    rcases how.submitted with ⟨isDirect, same⟩ | ⟨-, submits⟩
    · rw [same]
      exact tracks.of_direct isDirect _
    · refine tracks.submit submits ?_ rfl
      rw [how.type]
      exact kind data ordinary

theorem InFlight.turn (holds : InFlight c) (turn : Turn c bus issued after) :
    InFlight after := by
  obtain ⟨-, perm⟩ := turn.traffic holds.free.kinds
  have frame := turn.turnFrame
  have free := holds.free.turn turn
  have distinct : (after.traffic.map Request.controllerSequence).Nodup := by
    have sequences := perm.map fun ticket : Ticket => ticket.identity.controllerSequence
    unfold tickets at sequences
    rw [List.map_map, List.map_map] at sequences
    exact sequences.nodup_iff.mpr holds.distinct
  cases turn with
  | idle chosen choosing =>
    have kept := holds.housekeeping choosing.housekeeping
    exact ⟨free, distinct, kept.plain, kept.tracks⟩
  | @issue chosen choosing candidate request picks memPhy memoryImage after issuing =>
    have kept := holds.housekeeping choosing.housekeeping
    have found := issuing.issuable.found
    have flow := issuing.advance.flow issuing.marked (kept.free.kinds.issueEffects found)
    obtain ⟨plain, tracks⟩ := flow.inFlight (by
        rw [issueEffects_waiting found]
        exact kept.plain)
      (by
        rw [issueRequest_type]
        exact fun data ordinary => issuing.issuable.data_kind data ordinary)
      (by
        have held := kept.tracks.kept (MemPhy.acceptCommand_dataKept issuing.accepts)
        rw [issueEffects_eq]
        exact held)
    exact ⟨free, distinct, plain, tracks⟩

theorem inFlight_kept : Kept (fun _ request => request.bypassDram = false) (fun _ _ => True)
    fun _ (c : Controller β) => InFlight c where
  enqueue history c request accepted after holds plain returns := by
    have ready := holds.housekeeping (prepareAccept_housekeeping c request)
    obtain ⟨memPhy, outstanding, waits⟩ := (enqueue_cases returns).2.places
    refine ⟨writesFree_kept.enqueue history c request accepted after holds.free trivial returns,
      ?_, fun other member => ?_, ?_⟩
    · cases enqueue_outcome returns with
      | refused => exact ready.distinct
      | entered ordinary enters => exact enters.distinct ready.free ready.distinct
      | maintenance => exact ready.distinct
    · rcases waits other member with old | new
      · exact ready.plain other old
      · exact new.trans plain
    · rw [memPhy, outstanding]
      exact ready.tracks
  beginTick history c begun holds returns := by
    refine ⟨writesFree_kept.beginTick history c begun holds.free returns, ?_, ?_, ?_⟩
    · obtain ⟨sublist, frame⟩ := beginTick_eq returns
      refine List.Nodup.sublist (List.Sublist.map _ ?_) holds.distinct
      have queues : begun.requestQueues = c.requestQueues := by rw [frame]
      unfold traffic
      rw [queues]
      exact sublist.append_left _
    · have queues : begun.requestQueues = c.requestQueues := by rw [(beginTick_eq returns).2]
      unfold waiting
      rw [queues]
      exact holds.plain
    · unfold Controller.beginTick completePending at returns
      obtain ⟨⟨memPhy, memoryImage⟩, ticks, returns⟩ := bind_eq_ok.mp returns
      obtain ⟨⟨left, completed⟩, each, returns⟩ := bind_eq_ok.mp returns
      cases returns
      have apart : (([] ++ c.pending).map Request.controllerSequence).Nodup := by
        refine List.Nodup.sublist (List.Sublist.map _ ?_) holds.distinct
        exact List.sublist_append_right _ _
      exact @completeEach_tracks β { c with clk := c.clk + 1, memPhy, memoryImage } completed _
        [] c.pending left apart (holds.tracks.tick ticks) each
  upkeep _ c holds _ := holds.housekeeping (upkeep_housekeeping c)
  turn _ _ _ _ _ holds _ returns := holds.turn (turn_cases returns)
  idleLowPower _ c holds := holds.housekeeping (idleLowPower_housekeeping c)
  popResponse history c response after holds returns := by
    have free := writesFree_kept.popResponse history c response after holds.free returns
    unfold Controller.popResponse at returns
    split at returns
    · cases returns
    · cases returns
      exact ⟨free, holds.distinct, holds.plain, holds.tracks⟩
  flushStorage history c after holds returns := by
    have free := writesFree_kept.flushStorage history c after holds.free returns
    obtain ⟨image, -, returned⟩ := bind_eq_ok.mp returns
    cases returned
    exact ⟨free, holds.distinct, holds.plain, holds.tracks⟩

end Steps

/-! ### The write buffer -/

/-- The addresses of the writes among some requests. -/
def writeAddresses (requests : List Request) : List Nat :=
  (requests.filter fun request => decide (request.type = .write)).map (·.address)

theorem writeAddresses_perm {requests others : List Request} (same : requests.Perm others) :
    (writeAddresses requests).Perm (writeAddresses others) := (same.filter _).map _

theorem writeAddresses_cons {requests : List Request} (isWrite : request.type = .write) :
    writeAddresses (request :: requests) = request.address :: writeAddresses requests := by
  unfold writeAddresses
  rw [@List.filter_cons_of_pos _ (fun request : Request => decide (request.type = .write)) _ _
    (decide_eq_true isWrite)]
  rfl

theorem writeAddresses_cons_of_ne {requests : List Request} (other : request.type ≠ .write) :
    writeAddresses (request :: requests) = writeAddresses requests := by
  unfold writeAddresses
  rw [@List.filter_cons_of_neg _ (fun request : Request => decide (request.type = .write)) _ _
    (by rwa [decide_eq_true_eq])]

/-- The write buffer has one entry for the address of each write that waits, and no other. -/
structure Mirrored (c : Controller β) : Prop where
  kinds : QueueKinds c
  addrs : ∀ address, address ∈ c.bufferedWriteAddrs ↔ address ∈ c.bufferedWrites
  keys : c.bufferedWrites.keys.Perm (writeAddresses c.waiting)

theorem Mirrored.housekeeping (keeps : Housekeeping before after) (holds : Mirrored before) :
    Mirrored after where
  kinds := keeps.kinds holds.kinds
  addrs := by
    rw [show after.bufferedWriteAddrs = before.bufferedWriteAddrs from
        congrArg Core.bufferedWriteAddrs keeps.core,
      show after.bufferedWrites = before.bufferedWrites from
        congrArg Core.bufferedWrites keeps.core]
    exact holds.addrs
  keys := by
    rw [show after.bufferedWrites = before.bufferedWrites from
        congrArg Core.bufferedWrites keeps.core, keeps.waiting]
    exact holds.keys

/-- A write that waits has its entry. -/
theorem Mirrored.lookup (holds : Mirrored c) (member : request ∈ c.waiting)
    (isWrite : request.type = .write) :
    ∃ state, c.bufferedWrites.lookup request.address = some state := by
  have listed : request.address ∈ writeAddresses c.waiting :=
    List.mem_map_of_mem (List.mem_filter.mpr ⟨member, decide_eq_true isWrite⟩)
  exact Option.isSome_iff_exists.mp
    (AList.lookup_isSome.mpr (AList.mem_keys.mpr (holds.keys.mem_iff.mpr listed)))

/-- No two writes that wait have the same address. -/
theorem Mirrored.nodup (holds : Mirrored c) : (writeAddresses c.waiting).Nodup :=
  holds.keys.nodup_iff.mp c.bufferedWrites.keys_nodup

section MirrorSteps

variable [MemoryBackend β]

theorem Entry.mirrored {accepted : Bool} (holds : Mirrored c)
    (entry : Entry c request accepted after) (kinds : QueueKinds after) : Mirrored after := by
  cases entry with
  | refused => exact holds
  | forwarded isRead hits forwards =>
    unfold forwardRead at forwards
    obtain ⟨⟨payload, byteMask, image⟩, -, forwards⟩ := bind_eq_ok.mp forwards
    cases forwards
    exact ⟨kinds, holds.addrs, holds.keys⟩
  | @queuedRead isRead =>
    refine ⟨kinds, holds.addrs, holds.keys.trans ?_⟩
    have behind := @waiting_pushBack β c { c.acceptSequence.countInjected with
      requestQueues := c.requestQueues.pushBack .read
        { request with controllerSequence := c.nextControllerSequence } } .read _ nofun rfl
    refine List.Perm.trans (List.Perm.of_eq ?_) (writeAddresses_perm behind.symm)
    refine (writeAddresses_cons_of_ne ?_).symm
    show request.type ≠ .write
    rw [isRead]
    nofun
  | coalesced isWrite buffered =>
    rw [← ensureWritePayload_address c.spec request] at buffered
    have entered := (holds.addrs _).mp buffered
    refine ⟨kinds, fun address => ?_, ?_⟩
    · refine (holds.addrs address).trans (Iff.trans ?_ (AList.mem_insert _).symm)
      exact ⟨Or.inr, fun either => either.elim (fun is => is ▸ entered) id⟩
    · refine List.Perm.trans ?_ holds.keys
      show (AList.insert _ _ c.bufferedWrites).keys.Perm _
      rw [AList.keys_insert]
      exact (List.perm_cons_erase (AList.mem_keys.mp entered)).symm
  | buffered isWrite unbuffered =>
    rw [← ensureWritePayload_address c.spec request] at unbuffered
    have absent : (ensureWritePayload c.spec request).address ∉ c.bufferedWrites :=
      fun entered => unbuffered ((holds.addrs _).mpr entered)
    refine ⟨kinds, fun address => ?_, ?_⟩
    · refine Iff.trans Finset.mem_insert (Iff.trans ?_ (AList.mem_insert _).symm)
      exact or_congr_right (holds.addrs address)
    · have behind := @waiting_pushBack β c (c.bufferWrite (ensureWritePayload c.spec request))
        .write _ nofun rfl
      have type : (ensureWritePayload c.spec request).type = .write := by
        rw [ensureWritePayload_eq]
        exact isWrite
      refine List.Perm.trans ?_ (writeAddresses_perm behind.symm)
      rw [writeAddresses_cons (by exact type)]
      show (AList.insert _ _ c.bufferedWrites).keys.Perm _
      rw [AList.keys_insert, List.erase_of_not_mem fun member => absent (AList.mem_keys.mpr member)]
      exact holds.keys.cons _
  | @maintenance isMaintenance =>
    refine ⟨kinds, holds.addrs, holds.keys.trans (List.Perm.of_eq ?_)⟩
    have same : ∀ (queued : Request) (kind : RequestQueueKind), kind ≠ .priority →
        (c.requestQueues.pushBack .priority queued).queue kind = c.requestQueues.queue kind :=
      fun _ _ differs => put_queue_of_ne differs
    unfold waiting
    dsimp only
    rw [same _ .read nofun, same _ .write nofun, same _ .active nofun]

/-- The data command of a write takes its entry out of the buffer. -/
theorem Flow.mirrored (flow : Flow c candidate request after) (holds : Mirrored c)
    (kinds : QueueKinds after) : Mirrored after := by
  cases flow with
  | moved waiting same =>
    have keys : after.bufferedWrites = c.bufferedWrites := by rw [same]
    have addrs : after.bufferedWriteAddrs = c.bufferedWriteAddrs := by rw [same]
    refine ⟨kinds, ?_, ?_⟩
    · rw [keys, addrs]
      exact holds.addrs
    · rw [keys]
      exact holds.keys.trans (writeAddresses_perm waiting).symm
  | retired data ordinary waiting how =>
    have writes : after.bufferedWrites =
        (c.leaveBuffer (c.retiring candidate.command request)).bufferedWrites :=
      (congrArg Controller.bufferedWrites how.result :)
    have addrs : after.bufferedWriteAddrs =
        (c.leaveBuffer (c.retiring candidate.command request)).bufferedWriteAddrs :=
      (congrArg Controller.bufferedWriteAddrs how.result :)
    have frame := mergedRequest_eq c
      { request with issuedDataCommand := candidate.command, issuedCycle := c.clk }
    have type : (c.retiring candidate.command request).type = request.type := by
      unfold retiring
      rw [frame]
    have address : (c.retiring candidate.command request).address = request.address := by
      unfold retiring
      rw [frame]
    unfold leaveBuffer at writes addrs
    rw [type, address] at writes addrs
    by_cases isWrite : request.type = .write
    · rw [if_pos isWrite] at writes addrs
      refine ⟨kinds, fun other => ?_, ?_⟩
      · rw [writes, addrs, Finset.mem_erase]
        dsimp only
        rw [AList.mem_erase]
        exact and_congr_right fun _ => holds.addrs other
      · rw [writes]
        dsimp only
        rw [AList.keys_erase]
        have listed := holds.keys.trans (writeAddresses_perm waiting).symm
        rw [writeAddresses_cons (by exact isWrite)] at listed
        have erased := listed.erase request.address
        rwa [show request.unmarked.address = request.address from rfl,
          List.erase_cons_head] at erased
    · rw [if_neg isWrite] at writes addrs
      refine ⟨kinds, ?_, ?_⟩
      · rw [writes, addrs]
        exact holds.addrs
      · rw [writes]
        have listed := holds.keys.trans (writeAddresses_perm waiting).symm
        rwa [writeAddresses_cons_of_ne (by exact isWrite)] at listed

theorem mirrored_kept :
    Kept (fun _ _ => True) (fun _ _ => True) fun _ (c : Controller β) => Mirrored c where
  enqueue history c request accepted after holds _ returns := by
    have ready := holds.housekeeping (prepareAccept_housekeeping c request)
    refine (enqueue_cases returns).2.mirrored ready ?_
    cases enqueue_outcome returns with
    | refused => exact ready.kinds
    | entered ordinary enters => exact enters.kinds ordinary ready.kinds
    | maintenance isMaintenance =>
      refine ⟨ready.kinds.read, ready.kinds.write, ready.kinds.active, ready.kinds.pending,
        fun other member => ?_⟩
      dsimp only [RequestQueues.pushBack] at member
      rw [put_queue_self] at member
      rcases List.mem_append.mp member with priority | waiting
      · rcases List.mem_append.mp priority with old | new
        · exact ready.kinds.maintenance other (List.mem_append_left _ old)
        · rw [List.mem_singleton.mp new]
          exact isMaintenance
      · exact ready.kinds.maintenance other (List.mem_append_right _ waiting)
  beginTick history c begun holds returns := by
    obtain ⟨sublist, frame⟩ := beginTick_eq returns
    have kinds := holds.kinds.of_pending (show begun.requestQueues = c.requestQueues by rw [frame])
      sublist (show begun.pendingMaintenance = c.pendingMaintenance by rw [frame])
    rw [frame] at kinds ⊢
    exact ⟨kinds, holds.addrs, holds.keys⟩
  upkeep _ c holds _ := holds.housekeeping (upkeep_housekeeping c)
  turn history c bus issued after holds _ returns := by
    have turn := turn_cases returns
    obtain ⟨kinds, -⟩ := turn.traffic holds.kinds
    cases turn with
    | idle chosen choosing => exact holds.housekeeping choosing.housekeeping
    | @issue chosen choosing candidate request picks memPhy memoryImage after issuing =>
      have kept := holds.housekeeping choosing.housekeeping
      have found := issuing.issuable.found
      have effected : QueueKinds (chosen.issueEffects candidate request memPhy memoryImage) :=
        kept.kinds.issueEffects found
      refine (issuing.advance.flow issuing.marked effected).mirrored ⟨effected, ?_, ?_⟩ kinds
      · rw [issueEffects_eq]
        exact kept.addrs
      · rw [issueEffects_waiting found, issueEffects_eq]
        exact kept.keys
  idleLowPower _ c holds := holds.housekeeping (idleLowPower_housekeeping c)
  popResponse history c response after holds returns := by
    unfold Controller.popResponse at returns
    split at returns
    · cases returns
    · cases returns
      exact ⟨⟨holds.kinds.read, holds.kinds.write, holds.kinds.active, holds.kinds.pending,
        holds.kinds.maintenance⟩, holds.addrs, holds.keys⟩
  flushStorage history c after holds returns := by
    obtain ⟨image, -, returned⟩ := bind_eq_ok.mp returns
    cases returned
    exact ⟨⟨holds.kinds.read, holds.kinds.write, holds.kinds.active, holds.kinds.pending,
      holds.kinds.maintenance⟩, holds.addrs, holds.keys⟩

end MirrorSteps

/-! ### Runs -/

section Runs

variable {spec : DramSpec} {options : ControllerOptions} {image : MemoryImage β}
variable {start final : Controller β} {ops : List ControllerOp} {events : List ControllerEvent}

theorem Created.traffic_eq (created : Created spec options image start) : start.traffic = [] := by
  unfold traffic
  rw [created.queues, created.queues, created.queues, created.pending_eq]
  rfl

theorem Created.waiting_eq (created : Created spec options image start) : start.waiting = [] := by
  unfold waiting
  rw [created.queues, created.queues, created.queues]
  rfl

theorem Created.inFlight (created : Created spec options image start) : InFlight start := by
  have absent : ∀ {meets : Request → Prop}, ∀ request ∈ ([] : List Request), meets request :=
    fun _ member => absurd member List.not_mem_nil
  have outstanding : start.issuedData = [] := by
    unfold issuedData
    rw [created.pending_eq]
    rfl
  have free : WritesFree start := by
    refine ⟨created.conserved.kinds, ?_, ?_, ?_, ?_⟩
    · rw [created.result]
      exact Nat.one_pos
    · rw [created.traffic_eq]
      exact absent
    · rw [created.traffic_eq]
      exact absent
    · rw [created.queues]
      exact absent
  refine ⟨free, ?_, ?_, ?_⟩
  · rw [created.traffic_eq]
    exact List.nodup_nil
  · rw [created.waiting_eq]
    exact absent
  · rw [outstanding]
    exact MemPhy.create_tracks created.memPhy

theorem Created.mirrored (created : Created spec options image start) : Mirrored start := by
  refine ⟨created.conserved.kinds, fun address => ?_, ?_⟩
  · rw [created.result]
    exact ⟨fun member => absurd member (Finset.notMem_empty _),
      fun member => absurd member (AList.notMem_empty _)⟩
  · rw [created.waiting_eq, created.result]
    exact List.Perm.refl _

variable [MemoryBackend β]

/-- In every state of a run whose requests come without a bypass mark, each accepted read or
write is in one place only. A behavioral PHY holds one slot or completion for each data command
that is outstanding, and nothing else; a direct PHY holds nothing. -/
theorem phy_tracks_outstanding (created : create spec options image = .ok start)
    (plain : start.RunMeets (fun _ request => request.bypassDram = false) (fun _ _ => True) ops)
    (returns : start.run ops = .ok (events, final)) :
    (final.traffic.map Request.controllerSequence).Nodup ∧
      final.memPhy.Tracks final.issuedData := by
  have holds := inFlight_kept.run (create_created created).inFlight plain returns
  exact ⟨holds.distinct, holds.tracks⟩

/-- A read whose data is with the PHY, and a write behind it. -/
def readInPhy : List ControllerOp :=
  [.enqueue (readAt twoBanks 1 0 4)] ++ List.replicate 22 .tick ++
    [.enqueue (writeAt twoBanks 2 4 [1, 2, 3, 4]), .tick]

theorem phy_tracks_outstanding_readInPhy : ∃ start events final,
    create twoBanks { phy := { mode := .behavioral } } (imageOf twoBanks) = .ok start ∧
      start.run readInPhy = .ok (events, final) ∧
      final.issuedData.map Request.id = [1] ∧
      final.memPhy.held.Perm (final.issuedData.map Request.controllerSequence) := by
  obtain ⟨start, events, final, created, guarded, returns, checks⟩ :=
    guardedRun_of_passes twoBanks { phy := { mode := .behavioral } } readInPhy
      (fun _ request => request.bypassDram = false) (fun _ _ => True)
      (fun result => decide (result.2.issuedData.map Request.id = [1] ∧
        result.2.memPhy.behavioral = true)) (by decide +kernel) (by decide +kernel)
  obtain ⟨one, behavioral⟩ := of_decide_eq_true checks
  exact ⟨start, events, final, created, returns, one,
    (phy_tracks_outstanding created guarded returns).2.held behavioral⟩

/-- In every state of a run the write buffer has an entry for the address of each write that
waits for its data command, and no other; and no two such writes have one address. -/
theorem buffer_mirrors_writes (created : create spec options image = .ok start)
    (returns : start.run ops = .ok (events, final)) :
    (∀ address, address ∈ final.bufferedWriteAddrs ↔ address ∈ final.bufferedWrites) ∧
      final.bufferedWrites.keys.Perm (writeAddresses final.waiting) ∧
      (writeAddresses final.waiting).Nodup := by
  have guarded : start.RunMeets (fun _ _ => True) (fun _ _ => True) ops :=
    runMeets_of_forall (fun _ _ => trivial) (fun _ _ => trivial) start ops
  have holds := mirrored_kept.run (create_created created).mirrored guarded returns
  exact ⟨holds.addrs, holds.keys, holds.nodup⟩

/-- Two writes to one line, which are one entry, and a write to another line. -/
def writesToLines : List ControllerOp :=
  [.enqueue (writeAt twoBanks 1 4 [1, 2, 3, 4]), .enqueue (writeAt twoBanks 2 4 [5, 6, 7, 8]),
    .enqueue (writeAt twoBanks 3 8 [1, 2, 3, 4]), .tick]

theorem buffer_mirrors_writes_writesToLines : ∃ start events final,
    create twoBanks {} (imageOf twoBanks) = .ok start ∧
      start.run writesToLines = .ok (events, final) ∧ final.bufferedWrites.keys.length = 2 ∧
      final.bufferedWrites.keys.Perm (writeAddresses final.waiting) := by
  obtain ⟨start, events, final, created, returns, checks⟩ :=
    freshRun_of_passes twoBanks {} writesToLines
      (fun result => decide (result.2.bufferedWrites.keys.length = 2)) (by decide +kernel)
  exact ⟨start, events, final, created, returns, of_decide_eq_true checks,
    (buffer_mirrors_writes created returns).2.1⟩

end Runs

end Controller

end HbmSim
