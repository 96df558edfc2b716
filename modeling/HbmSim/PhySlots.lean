/-
The slots of the behavioral PHY, over any sequence of its calls and whatever happens
to the shared image in between. The FIFOs stay within their depths, data enters in
the ready state only, each data FIFO is a delay line whose slots complete in order at
the first tick not before their ready cycle, and the life cycle takes no step but the
documented ones.
-/

import HbmSim.Phy
import HbmSim.Lib.DelayLine
import HbmSim.Lib.Transition

namespace HbmSim

/-! ### Calls -/

/-- The calls a PHY takes. Another user of the image may change it at any time. -/
inductive PhyCall (β : Type)
  | acceptCommand (command : Command) (cycle : Nat)
  | submitData (request : Request) (command : Command) (cycle : Nat)
  | tick (cycle : Nat)
  | takeCompletion (requestId controllerSequence : Nat)
  | changeImage (image : MemoryImage β)

/-- What a call returns: a refusal throws and changes nothing. -/
inductive PhyAnswer
  | done
  | refused
  | ready (cycle : Nat)
  | completed (completions : List MemPhyCompletion)
  | taken (completion : Option MemPhyCompletion)

structure PhyTurn (β : Type) where
  call : PhyCall β
  answer : PhyAnswer
  before : MemPhy
  after : MemPhy

variable {β : Type}

def PhyCall.cycle : PhyCall β → Option Nat
  | .acceptCommand _ cycle | .submitData _ _ cycle | .tick cycle => some cycle
  | .takeCompletion .. | .changeImage _ => none

namespace PhyTurn

/-- The slot of an accepted submission, with the ready cycle its caller was told. -/
def slot (turn : PhyTurn β) : Option DataSlot :=
  match turn.call, turn.answer with
  | .submitData request command cycle, .ready readyCycle =>
    some { request, command, issuedCycle := cycle, readyCycle }
  | _, _ => none

/-- The completions a tick produces. -/
def completions (turn : PhyTurn β) : List MemPhyCompletion :=
  match turn.answer with
  | .completed completions => completions
  | _ => []

/-- The completion a caller takes. -/
def taken (turn : PhyTurn β) : List MemPhyCompletion :=
  match turn.answer with
  | .taken completion => completion.toList
  | _ => []

/-- The slot of an accepted submission of a wanted command. -/
def enters (wanted : Command → Bool) (turn : PhyTurn β) : Option DataSlot :=
  turn.slot.filter fun slot => wanted slot.command

/-- What a turn is to the FIFO of the wanted commands. -/
def lineEvent (wanted : Command → Bool) (turn : PhyTurn β) :
    Option (DelayLine.Event DataSlot) :=
  match turn.call with
  | .tick cycle => some (.tick cycle)
  | _ => (turn.enters wanted).map .put

end PhyTurn

namespace MemPhy

section Calls

variable [MemoryBackend β]

/-- The answer to a call, and what it leaves behind. -/
def answer (spec : DramSpec) (phy : MemPhy) (image : MemoryImage β) :
    PhyCall β → Except Exception (PhyAnswer × MemPhy × MemoryImage β)
  | .acceptCommand command cycle =>
    match phy.acceptCommand spec command cycle with
    | .ok next => .ok (.done, next, image)
    | .error _ => .ok (.refused, phy, image)
  | .submitData request command cycle =>
    match phy.submitData spec request command cycle with
    | .ok (readyCycle, next) => .ok (.ready readyCycle, next, image)
    | .error _ => .ok (.refused, phy, image)
  | .tick cycle => do
    let (next, image) ← phy.tick spec image cycle
    return (.completed (next.completions.drop phy.completions.length), next, image)
  | .takeCompletion requestId controllerSequence =>
    match phy.takeCompletion requestId controllerSequence with
    | some (completion, next) => .ok (.taken (some completion), next, image)
    | none => .ok (.taken none, phy, image)
  | .changeImage image => .ok (.done, phy, image)

/-- One call, with the turn it was. -/
def call (spec : DramSpec) (state : MemPhy × MemoryImage β) (call : PhyCall β) :
    Except Exception (List (PhyTurn β) × (MemPhy × MemoryImage β)) := do
  let (answer, next, image) ← answer spec state.1 state.2 call
  return ([{ call, answer, before := state.1, after := next }], (next, image))

end Calls

/-! ### The discipline -/

/-- No FIFO holds more than its depth. -/
structure Within (phy : MemPhy) : Prop where
  command : phy.commandFifo.length ≤ phy.options.commandFifoDepth
  read : phy.readFifo.length ≤ phy.options.readFifoDepth
  write : phy.writeFifo.length ≤ phy.options.writeFifoDepth

/-- The stages of the bring-up, in order. -/
def bringUp : List MemPhyState := [.reset, .initialization, .training, .ready]

/-- The steps of the life cycle. A training state with deadline zero is a debt that only the
training command pays. -/
inductive LifecycleStep (before after : MemPhy) : PhyCall β → Prop
  | stays (call : PhyCall β) (same : after.state = before.state)
      (deadline : after.stateDeadline = before.stateDeadline) : LifecycleStep before after call
  | forward (cycle : Nat) (ahead : [before.state, after.state].Sublist bringUp)
      (automatic : before.state = .training → before.stateDeadline ≠ 0)
      (started : after.state = .training → after.stateDeadline ≠ 0) :
      LifecycleStep before after (.tick cycle)
  | sleeps (command : Command) (cycle : Nat) (entry : command = .pde ∨ command = .srefen)
      (awake : before.state = .ready) (asleep : after.state = .lowPower) :
      LifecycleStep before after (.acceptCommand command cycle)
  | wakes (command : Command) (cycle : Nat) (exit : command = .pdx ∨ command = .srefex)
      (asleep : before.state = .lowPower) (awake : after.state = .ready) :
      LifecycleStep before after (.acceptCommand command cycle)
  | retrains (cycle : Nat) (ready : before.state = .ready) (training : after.state = .training)
      (debt : after.stateDeadline = 0) : LifecycleStep before after (.acceptCommand .dvfs cycle)
  | trained (cycle : Nat) (training : before.state = .training)
      (debt : before.stateDeadline = 0) (ready : after.state = .ready) :
      LifecycleStep before after (.acceptCommand .wcktrain cycle)

/-- A completion answers a slot that leaves its FIFO at a cycle. -/
structure Answers (leaves : DataSlot × Nat) (completion : MemPhyCompletion) : Prop where
  requestId : completion.requestId = leaves.1.request.id
  controllerSequence : completion.controllerSequence = leaves.1.request.controllerSequence
  type : completion.type = leaves.1.request.type
  command : completion.command = leaves.1.command
  issuedCycle : completion.issuedCycle = leaves.1.issuedCycle
  completionCycle : completion.completionCycle = leaves.2

/-- What happens to the FIFO of the wanted commands. -/
def lineEvents (wanted : Command → Bool) (turns : List (PhyTurn β)) :
    List (DelayLine.Event DataSlot) :=
  turns.filterMap fun turn => turn.lineEvent wanted

/-- The completions of the wanted commands, in the order they are produced. -/
def produced (wanted : Command → Bool) (turns : List (PhyTurn β)) : List MemPhyCompletion :=
  (turns.flatMap PhyTurn.completions).filter fun completion => wanted completion.command

/-- The slots of the wanted commands complete in the order they were submitted, each once and at
the first tick not before its ready cycle; the others wait in the FIFO. -/
structure InOrder (wanted : Command → Bool) (turns : List (PhyTurn β)) (fifo : List DataSlot) :
    Prop where
  completes : List.Forall₂ Answers
    (DelayLine.settled DataSlot.readyCycle (lineEvents wanted turns)) (produced wanted turns)
  waits : fifo = DelayLine.waiting DataSlot.readyCycle (lineEvents wanted turns)

/-- The service time of a data command. -/
def serviceDelay (spec : DramSpec) (options : MemPhyOptions) (command : Command) : Nat :=
  if isRead command then
    timingDelay spec ((if 0 < spec.dfiReadLatencyNck then spec.dfiReadLatencyNck + spec.timing.nBL
      else spec.timing.readLatency) + options.readReturnPipelineCycles)
  else
    timingDelay spec ((if 0 < spec.dfiWriteLatencyNck then spec.dfiWriteLatencyNck
      else spec.timing.nCWL) + options.writeDataPipelineCycles)

/-- An accepted submission enters one of the FIFOs, which had room, in the ready state. -/
theorem submitData_enters {phy next : MemPhy} {spec : DramSpec} {request : Request}
    {command : Command} {cycle readyCycle : Nat} (behavioral : phy.behavioral = true)
    (submits : phy.submitData spec request command cycle = .ok (readyCycle, next)) :
    phy.state = .ready ∧ readyCycle = cycle + serviceDelay spec phy.options command ∧
      ((isRead command = true ∧ phy.readFifo.length < phy.options.readFifoDepth ∧
          next = { phy with readFifo := phy.readFifo ++
            [{ request, command, issuedCycle := cycle, readyCycle }] }) ∨
        (isRead command = false ∧ isWrite command = true ∧
          phy.writeFifo.length < phy.options.writeFifoDepth ∧
          next = { phy with writeFifo := phy.writeFifo ++
            [{ request, command, issuedCycle := cycle, readyCycle }] })) := by
  unfold submitData at submits
  rw [if_neg (by rw [behavioral]; exact Bool.noConfusion)] at submits
  obtain ⟨_, admitted, submits⟩ := bind_eq_ok.mp submits
  have accepted : phy.canAcceptData command = true := by
    simpa only [Bool.not_eq_false] using throwIf_eq_ok.mp admitted
  unfold canAcceptData at accepted
  rw [if_neg (by rw [behavioral]; exact Bool.noConfusion)] at accepted
  by_cases ready : phy.state = .ready
  · rw [if_neg (not_not_intro ready)] at accepted
    refine ⟨ready, ?_⟩
    unfold serviceDelay
    cases read : isRead command with
    | true =>
      rw [read, if_pos rfl] at submits accepted
      cases submits
      exact ⟨rfl, Or.inl ⟨rfl, of_decide_eq_true accepted, rfl⟩⟩
    | false =>
      rw [read, if_neg Bool.false_ne_true] at submits accepted
      cases write : isWrite command with
      | true =>
        rw [write, if_pos rfl] at submits accepted
        cases submits
        exact ⟨rfl, Or.inr ⟨rfl, rfl, of_decide_eq_true accepted, rfl⟩⟩
      | false =>
        rw [write, if_neg Bool.false_ne_true] at submits
        cases submits
  · rw [if_pos ready] at accepted
    cases accepted

/-- The commands that change the state, and what they change it to. -/
theorem stateAfter_cases (phy : MemPhy) (spec : DramSpec) (command : Command) :
    ((command = .pde ∨ command = .srefen) ∧
        phy.stateAfter spec command = { phy with state := .lowPower }) ∨
      ((command = .pdx ∨ command = .srefex ∨ command = .wcktrain) ∧
        phy.stateAfter spec command = { phy with state := .ready }) ∨
      (command = .dvfs ∧
        phy.stateAfter spec command = { phy with state := .training, stateDeadline := 0 }) ∨
      phy.stateAfter spec command = phy := by
  unfold stateAfter
  split
  · exact Or.inl ⟨Or.inl rfl, rfl⟩
  · exact Or.inl ⟨Or.inr rfl, rfl⟩
  · exact Or.inr (Or.inl ⟨Or.inl rfl, rfl⟩)
  · exact Or.inr (Or.inl ⟨Or.inr (Or.inl rfl), rfl⟩)
  · split
    · exact Or.inr (Or.inr (Or.inl ⟨rfl, rfl⟩))
    · exact Or.inr (Or.inr (Or.inr rfl))
  · exact Or.inr (Or.inl ⟨Or.inr (Or.inr rfl), rfl⟩)
  · exact Or.inr (Or.inr (Or.inr rfl))

/-- Only the state and its deadline belong to the life cycle. -/
theorem LifecycleStep.congr {before after other : MemPhy} {call : PhyCall β}
    (step : LifecycleStep before after call) (state : other.state = after.state)
    (deadline : other.stateDeadline = after.stateDeadline) : LifecycleStep before other call := by
  cases step with
  | stays _ same stood => exact .stays _ (state.trans same) (deadline.trans stood)
  | forward _ ahead automatic started =>
    rw [← state] at ahead started
    rw [← deadline] at started
    exact .forward _ ahead automatic started
  | sleeps _ _ entry awake asleep => exact .sleeps _ _ entry awake (state.trans asleep)
  | wakes _ _ exit asleep awake => exact .wakes _ _ exit asleep (state.trans awake)
  | retrains _ ready training debt =>
    exact .retrains _ ready (state.trans training) (deadline.trans debt)
  | trained _ training debt ready => exact .trained _ training debt (state.trans ready)

/-- What a state takes moves the life cycle by one of its steps. -/
theorem stateAfter_steps {phy : MemPhy} {spec : DramSpec} {command : Command} {cycle : Nat}
    (behavioral : phy.behavioral = true) (accepted : phy.canAcceptCommand command = true) :
    @LifecycleStep β phy (phy.stateAfter spec command) (.acceptCommand command cycle) := by
  have admits : (phy.state = .training ∧ phy.stateDeadline = 0 ∧ command = .wcktrain) ∨
      (phy.state = .lowPower ∧ (command = .pdx ∨ command = .srefex)) ∨ phy.state = .ready := by
    unfold canAcceptCommand at accepted
    rw [if_neg (by rw [behavioral]; exact Bool.noConfusion)] at accepted
    split at accepted
    · cases accepted
    · split at accepted
      next => cases accepted
      next => cases accepted
      next training => exact Or.inl ⟨training, of_decide_eq_true accepted⟩
      next low => exact Or.inr (Or.inl ⟨low, of_decide_eq_true accepted⟩)
      next ready => exact Or.inr (Or.inr ready)
      next => cases accepted
  rcases admits with ⟨training, debt, rfl⟩ | ⟨low, exit⟩ | ready
  · exact .trained _ training debt rfl
  · refine .wakes _ _ exit low ?_
    rcases exit with rfl | rfl <;> rfl
  · rcases stateAfter_cases phy spec command with ⟨entry, is⟩ | ⟨-, is⟩ | ⟨rfl, is⟩ | is <;> rw [is]
    · exact .sleeps _ _ entry ready rfl
    · exact .stays _ ready.symm rfl
    · exact .retrains _ ready rfl rfl
    · exact .stays _ rfl rfl

theorem stateAfter_commandFifo (phy : MemPhy) (commandFifo : List Nat) (spec : DramSpec)
    (command : Command) : { phy with commandFifo }.stateAfter spec command =
      { phy.stateAfter spec command with commandFifo } := by
  unfold stateAfter
  split <;> try rfl
  split <;> rfl

theorem stateAfter_kept (phy : MemPhy) (spec : DramSpec) (command : Command) :
    (phy.stateAfter spec command).options = phy.options ∧
      (phy.stateAfter spec command).readFifo = phy.readFifo ∧
      (phy.stateAfter spec command).writeFifo = phy.writeFifo ∧
      (phy.stateAfter spec command).completions = phy.completions := by
  rcases stateAfter_cases phy spec command with ⟨-, is⟩ | ⟨-, is⟩ | ⟨-, is⟩ | is <;> rw [is] <;>
    exact ⟨rfl, rfl, rfl, rfl⟩

/-- An accepted command had room, and moves the life cycle by one of its steps. -/
theorem acceptCommand_steps {phy next : MemPhy} {spec : DramSpec} {command : Command} {cycle : Nat}
    (behavioral : phy.behavioral = true)
    (accepts : phy.acceptCommand spec command cycle = .ok next) :
    next.options = phy.options ∧ next.readFifo = phy.readFifo ∧ next.writeFifo = phy.writeFifo ∧
      next.completions = phy.completions ∧
      phy.commandFifo.length < phy.options.commandFifoDepth ∧
      next.commandFifo.length ≤ phy.commandFifo.length + 1 ∧
      @LifecycleStep β phy next (.acceptCommand command cycle) := by
  unfold acceptCommand at accepts
  rw [if_neg (by rw [behavioral]; exact Bool.noConfusion)] at accepts
  obtain ⟨_, admitted, accepts⟩ := bind_eq_ok.mp accepts
  have accepted : phy.canAcceptCommand command = true := by
    simpa only [Bool.not_eq_false] using throwIf_eq_ok.mp admitted
  have room : phy.commandFifo.length < phy.options.commandFifoDepth := by
    by_contra full
    unfold canAcceptCommand at accepted
    rw [if_neg (by rw [behavioral]; exact Bool.noConfusion),
      if_pos (Nat.le_of_not_lt full)] at accepted
    cases accepted
  have steps := @stateAfter_steps β phy spec command cycle behavioral accepted
  cases accepts
  generalize entered : (if 0 < phy.options.commandPipelineCycles then
    phy.commandFifo ++ [cycle + timingDelay spec phy.options.commandPipelineCycles]
    else phy.commandFifo) = commandFifo
  have longer : commandFifo.length ≤ phy.commandFifo.length + 1 := by
    rw [← entered]
    split
    · rw [List.length_append]
      rfl
    · exact Nat.le_succ _
  obtain ⟨options, reads, writes, completions⟩ := stateAfter_kept phy spec command
  rw [stateAfter_commandFifo]
  exact ⟨options, reads, writes, completions, room, longer, steps.congr rfl rfl⟩

theorem ahead_of {before after : MemPhy} (first second : MemPhyState)
    (was : before.state = first) (is : after.state = second)
    (ahead : [first, second].Sublist bringUp) : [before.state, after.state].Sublist bringUp := by
  rw [was, is]
  exact ahead

/-- After the initialization the PHY trains, with a deadline to come, or is ready. -/
theorem afterInitialization_steps {phy : MemPhy} {spec : DramSpec} {cycle : Nat}
    (bringsUp : phy.state = .reset ∨ phy.state = .initialization) :
    @LifecycleStep β phy (phy.afterInitialization spec cycle) (.tick cycle) := by
  have automatic : phy.state = .training → phy.stateDeadline ≠ 0 := fun training => by
    rcases bringsUp with is | is <;> rw [is] at training <;> cases training
  unfold afterInitialization
  split
  next trains =>
    have started : cycle + timingDelay spec phy.options.trainingCycles ≠ 0 :=
      Nat.ne_of_gt (Nat.add_pos_right cycle (timingDelay_pos trains.2))
    rcases bringsUp with is | is
    · exact .forward _ (ahead_of .reset .training is rfl (by decide)) automatic fun _ => started
    · exact .forward _ (ahead_of .initialization .training is rfl (by decide)) automatic
        fun _ => started
  next =>
    rcases bringsUp with is | is
    · exact .forward _ (ahead_of .reset .ready is rfl (by decide)) automatic
        fun training => by cases training
    · exact .forward _ (ahead_of .initialization .ready is rfl (by decide)) automatic
        fun training => by cases training

/-- The life cycle moves forward by itself. -/
theorem advanceLifecycle_steps (phy : MemPhy) (spec : DramSpec) (cycle : Nat) :
    @LifecycleStep β phy (phy.advanceLifecycle spec cycle) (.tick cycle) := by
  unfold advanceLifecycle
  split
  · exact .stays _ rfl rfl
  · split
    next reset =>
      split
      · exact .stays _ rfl rfl
      · split
        · exact .forward _ (ahead_of .reset .initialization reset rfl (by decide))
            (fun training => by rw [reset] at training; cases training)
            fun training => by cases training
        · exact afterInitialization_steps (Or.inl reset)
    next initialization =>
      split
      · exact .stays _ rfl rfl
      · exact afterInitialization_steps (Or.inr initialization)
    next training =>
      split
      next due =>
        exact .forward _ (ahead_of .training .ready training rfl (by decide)) (fun _ => due.1)
          fun training => by cases training
      next => exact .stays _ rfl rfl
    next => exact .stays _ rfl rfl

theorem advanceLifecycle_lines (phy : MemPhy) (spec : DramSpec) (cycle : Nat) :
    (phy.advanceLifecycle spec cycle).options = phy.options ∧
      (phy.advanceLifecycle spec cycle).commandFifo = phy.commandFifo ∧
      (phy.advanceLifecycle spec cycle).readFifo = phy.readFifo ∧
      (phy.advanceLifecycle spec cycle).writeFifo = phy.writeFifo ∧
      (phy.advanceLifecycle spec cycle).completions = phy.completions := by
  unfold advanceLifecycle afterInitialization
  repeat' split
  all_goals exact ⟨rfl, rfl, rfl, rfl, rfl⟩

section Ticks

variable [MemoryBackend β] {spec : DramSpec} {image after : MemoryImage β} {cycle : Nat}

theorem completeSlot_answers {slot : DataSlot} {completion : MemPhyCompletion}
    (completes : completeSlot spec image slot cycle = .ok (completion, after)) :
    Answers (slot, cycle) completion := by
  unfold completeSlot at completes
  split at completes
  · obtain ⟨⟨data, initialized, middle⟩, -, completes⟩ := bind_eq_ok.mp completes
    obtain ⟨mask, -, completes⟩ := bind_eq_ok.mp completes
    cases completes
    exact ⟨rfl, rfl, rfl, rfl, rfl, rfl⟩
  · obtain ⟨middle, -, completes⟩ := bind_eq_ok.mp completes
    cases completes
    exact ⟨rfl, rfl, rfl, rfl, rfl, rfl⟩

/-- A tick takes the slots that are due off the front of a FIFO, as a delay line does. -/
theorem drain_leaves {fifo left : List DataSlot} {completions : List MemPhyCompletion}
    (drains : drain spec cycle fifo image = .ok (left, completions, after)) :
    left = (DelayLine.step DataSlot.readyCycle fifo (.tick cycle)).2 ∧
      List.Forall₂ Answers (DelayLine.step DataSlot.readyCycle fifo (.tick cycle)).1
        completions := by
  induction fifo generalizing image left completions with
  | nil =>
    cases drains
    exact ⟨rfl, .nil⟩
  | cons slot rest inductionHypothesis =>
    unfold drain at drains
    dsimp only [DelayLine.step]
    by_cases due : slot.readyCycle ≤ cycle
    · have leaves : DelayLine.due DataSlot.readyCycle cycle slot = true := decide_eq_true due
      rw [if_pos due] at drains
      obtain ⟨⟨completion, middle⟩, completes, drains⟩ := bind_eq_ok.mp drains
      obtain ⟨⟨others, rests, final⟩, later, drains⟩ := bind_eq_ok.mp drains
      cases drains
      rw [List.takeWhile_cons_of_pos leaves, List.dropWhile_cons_of_pos leaves]
      obtain ⟨stays, answers⟩ := inductionHypothesis later
      exact ⟨stays, .cons (completeSlot_answers completes) answers⟩
    · have waits : ¬ DelayLine.due DataSlot.readyCycle cycle slot = true := fun is =>
        due (of_decide_eq_true is)
      rw [if_neg due] at drains
      cases drains
      rw [List.takeWhile_cons_of_neg waits, List.dropWhile_cons_of_neg waits]
      exact ⟨rfl, .nil⟩

/-- A tick moves the life cycle and takes what is due off the FIFOs. -/
theorem tick_takes {phy next : MemPhy} (ticks : phy.tick spec image cycle = .ok (next, after)) :
    next.options = phy.options ∧ next.commandFifo.length ≤ phy.commandFifo.length ∧
      @LifecycleStep β phy next (.tick cycle) ∧
      next.readFifo = (DelayLine.step DataSlot.readyCycle phy.readFifo (.tick cycle)).2 ∧
      next.writeFifo = (DelayLine.step DataSlot.readyCycle phy.writeFifo (.tick cycle)).2 ∧
      ∃ reads writes, next.completions = phy.completions ++ (reads ++ writes) ∧
        List.Forall₂ Answers
          (DelayLine.step DataSlot.readyCycle phy.readFifo (.tick cycle)).1 reads ∧
        List.Forall₂ Answers
          (DelayLine.step DataSlot.readyCycle phy.writeFifo (.tick cycle)).1 writes := by
  unfold tick at ticks
  obtain ⟨⟨readsLeft, reads, middle⟩, readDrain, ticks⟩ := bind_eq_ok.mp ticks
  obtain ⟨⟨writesLeft, writes, final⟩, writeDrain, ticks⟩ := bind_eq_ok.mp ticks
  cases ticks
  obtain ⟨options, command, read, write, completions⟩ := advanceLifecycle_lines phy spec cycle
  obtain ⟨readsStay, readAnswers⟩ := drain_leaves readDrain
  obtain ⟨writesStay, writeAnswers⟩ := drain_leaves writeDrain
  rw [read] at readsStay readAnswers
  rw [write] at writesStay writeAnswers
  refine ⟨options, ?_, (advanceLifecycle_steps phy spec cycle).congr rfl rfl, readsStay, writesStay,
    reads, writes, ?_, readAnswers, writeAnswers⟩
  · dsimp only
    rw [command]
    exact (List.dropWhile_sublist _).length_le
  · dsimp only
    rw [completions, List.append_assoc]

end Ticks

/-! ### One turn -/

/-- A turn does to the FIFO of the wanted commands what a delay line does. -/
structure Feeds (wanted : Command → Bool) (turn : PhyTurn β) (before after : List DataSlot) :
    Prop where
  completes : List.Forall₂ Answers
    (DelayLine.run DataSlot.readyCycle before (lineEvents wanted [turn])).1 (produced wanted [turn])
  waits : after = (DelayLine.run DataSlot.readyCycle before (lineEvents wanted [turn])).2

theorem lineEvents_singleton {wanted : Command → Bool} {turn : PhyTurn β} :
    lineEvents wanted [turn] = (turn.lineEvent wanted).toList := by
  unfold lineEvents
  cases event : turn.lineEvent wanted with
  | none => exact List.filterMap_cons_none event
  | some event' => exact List.filterMap_cons_some event

theorem produced_singleton {wanted : Command → Bool} {turn : PhyTurn β} :
    produced wanted [turn] = turn.completions.filter fun completion => wanted completion.command := by
  unfold produced
  rw [List.flatMap_singleton]

theorem Feeds.idle {wanted : Command → Bool} {turn : PhyTurn β}
    (event : turn.lineEvent wanted = none) (nothing : turn.completions = []) (fifo : List DataSlot) :
    Feeds wanted turn fifo fifo := by
  constructor <;> rw [lineEvents_singleton, event]
  · rw [produced_singleton, nothing]
    exact .nil
  · rfl

theorem Feeds.put {wanted : Command → Bool} {turn : PhyTurn β} {slot : DataSlot}
    (event : turn.lineEvent wanted = some (.put slot)) (nothing : turn.completions = [])
    (fifo : List DataSlot) : Feeds wanted turn fifo (fifo ++ [slot]) := by
  constructor <;> rw [lineEvents_singleton, event]
  · rw [produced_singleton, nothing]
    exact .nil
  · rfl

theorem Feeds.tick {wanted : Command → Bool} {turn : PhyTurn β} {cycle : Nat}
    {fifo left : List DataSlot} (event : turn.lineEvent wanted = some (.tick cycle))
    (stays : left = (DelayLine.step DataSlot.readyCycle fifo (.tick cycle)).2)
    (answers : List.Forall₂ Answers (DelayLine.step DataSlot.readyCycle fifo (.tick cycle)).1
      (turn.completions.filter fun completion => wanted completion.command)) :
    Feeds wanted turn fifo left := by
  constructor <;> rw [lineEvents_singleton, event]
  · rw [produced_singleton]
    show List.Forall₂ Answers (_ ++ []) _
    rw [List.append_nil]
    exact answers
  · exact stays

/-- Every slot of a FIFO is for a wanted command. -/
def Holds (wanted : Command → Bool) (fifo : List DataSlot) : Prop :=
  ∀ slot ∈ fifo, wanted slot.command = true

/-- Completions are for the commands of the slots they answer. -/
theorem answered_wanted {wanted : Command → Bool} {leaving : List (DataSlot × Nat)}
    {completions : List MemPhyCompletion} (answers : List.Forall₂ Answers leaving completions)
    (holds : ∀ leaves ∈ leaving, wanted leaves.1.command = true) :
    ∀ completion ∈ completions, wanted completion.command = true := by
  induction answers with
  | nil => exact fun _ member => by cases member
  | cons answer others inductionHypothesis =>
    intro completion member
    rcases List.mem_cons.mp member with rfl | later
    · rw [answer.command]
      exact holds _ List.mem_cons_self
    · exact inductionHypothesis (fun leaves is => holds leaves (List.mem_cons_of_mem _ is)) _ later

theorem Holds.step {wanted : Command → Bool} {fifo : List DataSlot} (holds : Holds wanted fifo)
    (cycle : Nat) :
    (∀ leaves ∈ (DelayLine.step DataSlot.readyCycle fifo (.tick cycle)).1,
        wanted leaves.1.command = true) ∧
      Holds wanted (DelayLine.step DataSlot.readyCycle fifo (.tick cycle)).2 := by
  refine ⟨fun leaves member => ?_, fun slot member => ?_⟩
  · obtain ⟨slot, taken, rfl⟩ := List.mem_map.mp member
    exact holds slot ((List.takeWhile_sublist _).subset taken)
  · exact holds slot ((List.dropWhile_sublist _).subset member)

theorem isRead_of_isWrite {command : Command} (write : isWrite command = true) :
    isRead command = false := by
  rcases of_decide_eq_true write with rfl | rfl <;> rfl

/-- What one turn keeps. -/
structure Turned (spec : DramSpec) (turn : PhyTurn β) : Prop where
  options : turn.after.options = turn.before.options
  within : turn.after.Within
  ready : turn.slot.isSome → turn.before.state = .ready
  served : ∀ slot ∈ turn.slot, slot.readyCycle =
    slot.issuedCycle + serviceDelay spec turn.before.options slot.command
  lifecycle : LifecycleStep turn.before turn.after turn.call
  reads : Feeds isRead turn turn.before.readFifo turn.after.readFifo
  writes : Feeds isWrite turn turn.before.writeFifo turn.after.writeFifo
  holdsReads : Holds isRead turn.after.readFifo
  holdsWrites : Holds isWrite turn.after.writeFifo
  kept : (turn.before.completions ++ turn.completions).Perm
    (turn.taken ++ turn.after.completions)

/-- What the state before a turn needs. -/
structure Sound (phy : MemPhy) : Prop where
  behavioral : phy.behavioral = true
  within : phy.Within
  holdsReads : Holds isRead phy.readFifo
  holdsWrites : Holds isWrite phy.writeFifo

theorem Sound.idle {spec : DramSpec} {phy : MemPhy} (sound : phy.Sound) (call : PhyCall β)
    {answer : PhyAnswer} (quiet : ∀ cycle, call ≠ .tick cycle)
    (idle : answer = .done ∨ answer = .refused ∨ answer = .taken none) :
    Turned spec { call, answer, before := phy, after := phy } := by
  have slot : PhyTurn.slot { call, answer, before := phy, after := phy } = none := by
    rcases idle with rfl | rfl | rfl <;> cases call <;> rfl
  have completions : PhyTurn.completions { call, answer, before := phy, after := phy } = [] := by
    rcases idle with rfl | rfl | rfl <;> rfl
  have taken : PhyTurn.taken { call, answer, before := phy, after := phy } = [] := by
    rcases idle with rfl | rfl | rfl <;> rfl
  have event (wanted : Command → Bool) :
      PhyTurn.lineEvent wanted { call, answer, before := phy, after := phy } = none := by
    unfold PhyTurn.lineEvent PhyTurn.enters
    rw [slot]
    cases call with
    | tick cycle => exact absurd rfl (quiet cycle)
    | _ => rfl
  refine ⟨rfl, sound.within, ?_, ?_, .stays _ rfl rfl, .idle (event _) completions _,
    .idle (event _) completions _, sound.holdsReads, sound.holdsWrites, ?_⟩
  · rw [slot]
    exact fun is => by cases is
  · rw [slot]
    exact fun _ is => by cases is
  · rw [completions, taken, List.append_nil]
    exact List.Perm.refl _

theorem Sound.acceptCommand {spec : DramSpec} {phy next : MemPhy} {command : Command} {cycle : Nat}
    (sound : phy.Sound) (accepts : phy.acceptCommand spec command cycle = .ok next) :
    @Turned β spec
      { call := .acceptCommand command cycle, answer := .done, before := phy, after := next } := by
  obtain ⟨options, reads, writes, completions, room, longer, steps⟩ :=
    @acceptCommand_steps β _ _ _ _ _ sound.behavioral accepts
  refine ⟨options, ⟨?_, ?_, ?_⟩, (fun is => by cases is), (fun _ is => by cases is), steps, ?_, ?_,
    ?_, ?_, ?_⟩ <;> dsimp only
  · rw [options]
    exact longer.trans room
  · rw [options, reads]
    exact sound.within.read
  · rw [options, writes]
    exact sound.within.write
  · rw [reads]
    exact .idle rfl rfl _
  · rw [writes]
    exact .idle rfl rfl _
  · rw [reads]
    exact sound.holdsReads
  · rw [writes]
    exact sound.holdsWrites
  · rw [completions]
    exact List.Perm.of_eq (List.append_nil _)

theorem Holds.concat {wanted : Command → Bool} {fifo : List DataSlot} {slot : DataSlot}
    (holds : Holds wanted fifo) (here : wanted slot.command = true) :
    Holds wanted (fifo ++ [slot]) := fun other member =>
  (List.mem_append.mp member).elim (holds other) fun last => by
    rw [List.mem_singleton.mp last]
    exact here

/-- A submission enters the FIFO that wants its command. -/
theorem lineEvent_submitData (wanted : Command → Bool) (request : Request) (command : Command)
    (cycle readyCycle : Nat) (before after : MemPhy) :
    PhyTurn.lineEvent (β := β) wanted ⟨.submitData request command cycle, .ready readyCycle, before,
      after⟩ = if wanted command then
        some (.put { request, command, issuedCycle := cycle, readyCycle }) else none := by
  show ((some _).filter _).map _ = _
  rw [Option.filter_some]
  cases wanted command <;> rfl

theorem Sound.submitData {spec : DramSpec} {phy next : MemPhy} {request : Request}
    {command : Command} {cycle readyCycle : Nat} (sound : phy.Sound)
    (submits : phy.submitData spec request command cycle = .ok (readyCycle, next)) :
    @Turned β spec ⟨.submitData request command cycle, .ready readyCycle, phy, next⟩ := by
  obtain ⟨ready, served, enters⟩ := submitData_enters sound.behavioral submits
  have same (slot : DataSlot) (is : some ({ request, command, issuedCycle := cycle, readyCycle } :
      DataSlot) = some slot) : slot.readyCycle =
      slot.issuedCycle + serviceDelay spec phy.options slot.command := by
    cases is
    exact served
  rcases enters with ⟨read, room, rfl⟩ | ⟨read, write, room, rfl⟩
  · have write : isWrite command = false := by
      by_contra write
      rw [isRead_of_isWrite (Bool.of_not_eq_false write)] at read
      cases read
    refine ⟨rfl, ⟨sound.within.command, ?_, sound.within.write⟩, fun _ => ready, same,
      .stays _ rfl rfl, .put ?_ rfl _, .idle ?_ rfl _, sound.holdsReads.concat read,
      sound.holdsWrites, List.Perm.of_eq (List.append_nil _)⟩
    · dsimp only
      rw [List.length_append]
      exact room
    · rw [lineEvent_submitData, if_pos read]
    · rw [lineEvent_submitData, write, if_neg Bool.false_ne_true]
  · refine ⟨rfl, ⟨sound.within.command, sound.within.read, ?_⟩, fun _ => ready, same,
      .stays _ rfl rfl, .idle ?_ rfl _, .put ?_ rfl _, sound.holdsReads,
      sound.holdsWrites.concat write, List.Perm.of_eq (List.append_nil _)⟩
    · dsimp only
      rw [List.length_append]
      exact room
    · rw [lineEvent_submitData, read, if_neg Bool.false_ne_true]
    · rw [lineEvent_submitData, if_pos write]

/-- The item a search finds is the one that is erased. -/
theorem perm_eraseP {Item : Type} {test : Item → Bool} {item : Item} {items : List Item}
    (finds : items.find? test = some item) : items.Perm (item :: items.eraseP test) := by
  obtain ⟨passes, before, behind, rfl, others⟩ := List.find?_eq_some_iff_append.mp finds
  have fails : ∀ other ∈ before, ¬ test other = true := fun other member =>
    Bool.not_eq_true _ ▸ Bool.not_eq_true' _ ▸ others other member
  rw [List.eraseP_append_right _ fails, List.eraseP_cons_of_pos passes]
  exact List.perm_middle

theorem Sound.takeCompletion {spec : DramSpec} {phy next : MemPhy}
    {requestId controllerSequence : Nat} {completion : MemPhyCompletion} (sound : phy.Sound)
    (takes : phy.takeCompletion requestId controllerSequence = some (completion, next)) :
    @Turned β spec
      ⟨.takeCompletion requestId controllerSequence, .taken (some completion), phy, next⟩ := by
  unfold MemPhy.takeCompletion at takes
  obtain ⟨found, finds, is⟩ := Option.map_eq_some_iff.mp takes
  cases is
  refine ⟨rfl, ⟨sound.within.command, sound.within.read, sound.within.write⟩, (fun is => by cases is),
    (fun _ is => by cases is), .stays _ rfl rfl, .idle rfl rfl _, .idle rfl rfl _, sound.holdsReads,
    sound.holdsWrites, ?_⟩
  rw [PhyTurn.completions, List.append_nil]
  exact perm_eraseP finds

theorem Sound.tick [MemoryBackend β] {spec : DramSpec} {phy next : MemPhy}
    {image after : MemoryImage β} {cycle : Nat} (sound : phy.Sound)
    (ticks : phy.tick spec image cycle = .ok (next, after)) :
    @Turned β spec ⟨.tick cycle, .completed (next.completions.drop phy.completions.length), phy,
      next⟩ := by
  obtain ⟨options, fewer, steps, reads, writes, readsDone, writesDone, completions, readAnswers,
    writeAnswers⟩ := tick_takes ticks
  obtain ⟨readsLeave, readsStay⟩ := sound.holdsReads.step cycle
  obtain ⟨writesLeave, writesStay⟩ := sound.holdsWrites.step cycle
  have areReads := answered_wanted readAnswers readsLeave
  have areWrites := answered_wanted writeAnswers writesLeave
  have produced : next.completions.drop phy.completions.length = readsDone ++ writesDone := by
    rw [completions, List.drop_append_length]
  rw [produced]
  refine ⟨options, ⟨?_, ?_, ?_⟩, (fun is => by cases is), (fun _ is => by cases is), steps,
    .tick rfl reads ?_, .tick rfl writes ?_, ?_, ?_, ?_⟩ <;> dsimp only
  · rw [options]
    exact fewer.trans sound.within.command
  · rw [options, reads]
    exact (List.dropWhile_sublist _).length_le.trans sound.within.read
  · rw [options, writes]
    exact (List.dropWhile_sublist _).length_le.trans sound.within.write
  · have onlyReads : (readsDone ++ writesDone).filter (fun completion => isRead completion.command) =
        readsDone := by
      rw [List.filter_append, List.filter_eq_self.mpr areReads, List.filter_eq_nil_iff.mpr,
        List.append_nil]
      intro completion member
      rw [isRead_of_isWrite (areWrites completion member)]
      exact Bool.false_ne_true
    show List.Forall₂ _ _ ((readsDone ++ writesDone).filter _)
    rw [onlyReads]
    exact readAnswers
  · have onlyWrites : (readsDone ++ writesDone).filter
        (fun completion => isWrite completion.command) = writesDone := by
      rw [List.filter_append, List.filter_eq_self.mpr areWrites, List.filter_eq_nil_iff.mpr,
        List.nil_append]
      intro completion member write
      have read := areReads completion member
      rw [isRead_of_isWrite write] at read
      cases read
    show List.Forall₂ _ _ ((readsDone ++ writesDone).filter _)
    rw [onlyWrites]
    exact writeAnswers
  · rw [reads]
    exact readsStay
  · rw [writes]
    exact writesStay
  · rw [completions]
    exact List.Perm.refl _

/-- Every turn from a sound state keeps what it should, and leaves a sound state. -/
theorem Sound.turned [MemoryBackend β] {spec : DramSpec} {phy next : MemPhy}
    {image after : MemoryImage β} {call : PhyCall β} {given : PhyAnswer} (sound : phy.Sound)
    (answers : answer spec phy image call = .ok (given, next, after)) :
    Turned spec ⟨call, given, phy, next⟩ := by
  cases call with
  | acceptCommand command cycle =>
    dsimp only [answer] at answers
    split at answers
    next accepts =>
      cases answers
      exact sound.acceptCommand accepts
    next =>
      cases answers
      exact sound.idle _ (fun _ is => by cases is) (Or.inr (Or.inl rfl))
  | submitData request command cycle =>
    dsimp only [answer] at answers
    split at answers
    next submits =>
      cases answers
      exact sound.submitData submits
    next =>
      cases answers
      exact sound.idle _ (fun _ is => by cases is) (Or.inr (Or.inl rfl))
  | tick cycle =>
    obtain ⟨⟨ticked, middle⟩, ticks, answers⟩ := bind_eq_ok.mp answers
    cases answers
    exact sound.tick ticks
  | takeCompletion requestId controllerSequence =>
    dsimp only [answer] at answers
    split at answers
    next takes =>
      cases answers
      exact sound.takeCompletion takes
    next =>
      cases answers
      exact sound.idle _ (fun _ is => by cases is) (Or.inr (Or.inr rfl))
  | changeImage image =>
    cases answers
    exact sound.idle _ (fun _ is => by cases is) (Or.inl rfl)

theorem Turned.sound {spec : DramSpec} {turn : PhyTurn β} (turned : Turned spec turn)
    (behavioral : turn.before.behavioral = true) : turn.after.Sound := by
  refine ⟨?_, turned.within, turned.holdsReads, turned.holdsWrites⟩
  unfold MemPhy.behavioral at behavioral ⊢
  rw [turned.options]
  exact behavioral

/-! ### How far the cycles reach -/

/-- The longest time between a call and a cycle the PHY keeps for it. -/
def longestDelay (spec : DramSpec) (options : MemPhyOptions) : Nat :=
  max (max (timingDelay spec options.resetCycles) (timingDelay spec options.initializationCycles))
    (max (max (timingDelay spec options.trainingCycles)
        (timingDelay spec options.commandPipelineCycles))
      (max (serviceDelay spec options .rd) (serviceDelay spec options .wr)))

/-- No cycle that the PHY keeps is later than a bound. -/
structure NoLaterThan (phy : MemPhy) (bound : Nat) : Prop where
  deadline : phy.stateDeadline ≤ bound
  releases : ∀ release ∈ phy.commandFifo, release ≤ bound
  reads : ∀ slot ∈ phy.readFifo, slot.readyCycle ≤ bound
  writes : ∀ slot ∈ phy.writeFifo, slot.readyCycle ≤ bound

theorem NoLaterThan.mono {phy : MemPhy} {bound bound' : Nat} (early : phy.NoLaterThan bound)
    (below : bound ≤ bound') : phy.NoLaterThan bound' where
  deadline := early.deadline.trans below
  releases release member := (early.releases release member).trans below
  reads slot member := (early.reads slot member).trans below
  writes slot member := (early.writes slot member).trans below

section Reach

variable {spec : DramSpec} {options : MemPhyOptions} {phy next : MemPhy} {latest cycle : Nat}

theorem NoLaterThan.acceptCommand {command : Command}
    (early : phy.NoLaterThan (latest + longestDelay spec phy.options)) (due : cycle ≤ latest)
    (accepts : phy.acceptCommand spec command cycle = .ok next) :
    next.NoLaterThan (latest + longestDelay spec phy.options) := by
  unfold MemPhy.acceptCommand at accepts
  split at accepts
  · cases accepts
    exact early
  obtain ⟨_, -, accepts⟩ := bind_eq_ok.mp accepts
  cases accepts
  have deadline : (phy.stateAfter spec command).stateDeadline ≤ phy.stateDeadline := by
    rcases stateAfter_cases phy spec command with ⟨-, is⟩ | ⟨-, is⟩ | ⟨-, is⟩ | is <;> rw [is]
    exact Nat.zero_le _
  obtain ⟨-, reads, writes, -⟩ := stateAfter_kept phy spec command
  rw [stateAfter_commandFifo]
  refine ⟨deadline.trans early.deadline, fun release member => ?_, ?_, ?_⟩
  · dsimp only at member
    split at member
    · rcases List.mem_append.mp member with before | here
      · exact early.releases release before
      · have pipeline : timingDelay spec phy.options.commandPipelineCycles ≤
            longestDelay spec phy.options := by
          unfold longestDelay
          omega
        rw [List.mem_singleton.mp here]
        exact Nat.add_le_add due pipeline
    · exact early.releases release member
  · dsimp only
    rw [reads]
    exact early.reads
  · dsimp only
    rw [writes]
    exact early.writes

theorem serviceDelay_le {command : Command} (data : isRead command = true ∨ isWrite command = true) :
    serviceDelay spec options command ≤ longestDelay spec options := by
  have longest : max (serviceDelay spec options .rd) (serviceDelay spec options .wr) ≤
      longestDelay spec options := by
    unfold longestDelay
    omega
  rcases data with read | write
  · rcases of_decide_eq_true read with rfl | rfl
    · exact (Nat.le_max_left _ _).trans longest
    · exact (Nat.le_max_left _ _).trans longest
  · rcases of_decide_eq_true write with rfl | rfl
    · exact (Nat.le_max_right _ _).trans longest
    · exact (Nat.le_max_right _ _).trans longest

theorem NoLaterThan.submitData {request : Request} {command : Command} {readyCycle : Nat}
    (early : phy.NoLaterThan (latest + longestDelay spec phy.options)) (due : cycle ≤ latest)
    (behavioral : phy.behavioral = true)
    (submits : phy.submitData spec request command cycle = .ok (readyCycle, next)) :
    next.NoLaterThan (latest + longestDelay spec phy.options) := by
  obtain ⟨-, served, enters⟩ := submitData_enters behavioral submits
  rcases enters with ⟨read, -, rfl⟩ | ⟨-, write, -, rfl⟩
  · refine ⟨early.deadline, early.releases, fun slot member => ?_, early.writes⟩
    rcases List.mem_append.mp member with before | here
    · exact early.reads slot before
    · rw [List.mem_singleton.mp here]
      exact served.le.trans (Nat.add_le_add due (serviceDelay_le (Or.inl read)))
  · refine ⟨early.deadline, early.releases, early.reads, fun slot member => ?_⟩
    rcases List.mem_append.mp member with before | here
    · exact early.writes slot before
    · rw [List.mem_singleton.mp here]
      exact served.le.trans (Nat.add_le_add due (serviceDelay_le (Or.inr write)))

/-- A stage of the bring-up starts at the cycle of the tick. -/
theorem advanceLifecycle_deadline (phy : MemPhy) (spec : DramSpec) (cycle : Nat) :
    (phy.advanceLifecycle spec cycle).stateDeadline = phy.stateDeadline ∨
      (phy.advanceLifecycle spec cycle).stateDeadline ≤ cycle + longestDelay spec phy.options := by
  have longest : timingDelay spec phy.options.initializationCycles ≤
        longestDelay spec phy.options ∧
      timingDelay spec phy.options.trainingCycles ≤ longestDelay spec phy.options := by
    unfold longestDelay
    omega
  unfold advanceLifecycle afterInitialization
  repeat' split
  all_goals first
    | exact Or.inl rfl
    | exact Or.inr (Nat.add_le_add_left longest.1 cycle)
    | exact Or.inr (Nat.add_le_add_left longest.2 cycle)

theorem NoLaterThan.tick [MemoryBackend β] {image after : MemoryImage β}
    (early : phy.NoLaterThan (latest + longestDelay spec phy.options)) (due : cycle ≤ latest)
    (ticks : phy.tick spec image cycle = .ok (next, after)) :
    next.NoLaterThan (latest + longestDelay spec phy.options) := by
  obtain ⟨-, -, -, reads, writes, -⟩ := tick_takes ticks
  unfold MemPhy.tick at ticks
  obtain ⟨⟨readsLeft, readsDone, middle⟩, -, ticks⟩ := bind_eq_ok.mp ticks
  obtain ⟨⟨writesLeft, writesDone, final⟩, -, ticks⟩ := bind_eq_ok.mp ticks
  cases ticks
  refine ⟨?_, fun release member => ?_, fun slot member => ?_, fun slot member => ?_⟩
  · rcases advanceLifecycle_deadline phy spec cycle with same | starts
    · exact same.le.trans early.deadline
    · exact starts.trans (Nat.add_le_add_right due _)
  · have listed := (List.dropWhile_sublist _).subset member
    rw [(advanceLifecycle_lines phy spec cycle).2.1] at listed
    exact early.releases release listed
  · rw [reads] at member
    exact early.reads slot ((List.dropWhile_sublist _).subset member)
  · rw [writes] at member
    exact early.writes slot ((List.dropWhile_sublist _).subset member)

theorem NoLaterThan.answer [MemoryBackend β] {image after : MemoryImage β} {call : PhyCall β}
    {given : PhyAnswer} (early : phy.NoLaterThan (latest + longestDelay spec phy.options))
    (due : ∀ cycle, call.cycle = some cycle → cycle ≤ latest) (behavioral : phy.behavioral = true)
    (answers : MemPhy.answer spec phy image call = .ok (given, next, after)) :
    next.NoLaterThan (latest + longestDelay spec phy.options) := by
  cases call with
  | acceptCommand command cycle =>
    dsimp only [MemPhy.answer] at answers
    split at answers
    next accepts =>
      cases answers
      exact early.acceptCommand (due cycle rfl) accepts
    next =>
      cases answers
      exact early
  | submitData request command cycle =>
    dsimp only [MemPhy.answer] at answers
    split at answers
    next submits =>
      cases answers
      exact early.submitData (due cycle rfl) behavioral submits
    next =>
      cases answers
      exact early
  | tick cycle =>
    obtain ⟨⟨ticked, middle⟩, ticks, answers⟩ := bind_eq_ok.mp answers
    cases answers
    exact early.tick (due cycle rfl) ticks
  | takeCompletion requestId controllerSequence =>
    dsimp only [MemPhy.answer] at answers
    split at answers
    next takes =>
      cases answers
      unfold MemPhy.takeCompletion at takes
      obtain ⟨completion, -, is⟩ := Option.map_eq_some_iff.mp takes
      cases is
      exact ⟨early.deadline, early.releases, early.reads, early.writes⟩
    next =>
      cases answers
      exact early
  | changeImage image =>
    cases answers
    exact early

end Reach

/-! ### Runs -/

/-- What every run of a behavioral PHY keeps. -/
structure Disciplined (spec : DramSpec) (options : MemPhyOptions) (turns : List (PhyTurn β))
    (phy : MemPhy) : Prop where
  sound : phy.Sound
  constant : phy.options = options
  turned : ∀ turn ∈ turns, Turned spec turn ∧ turn.before.Within ∧ turn.before.options = options
  reads : List.Forall₂ Answers
    (DelayLine.run DataSlot.readyCycle [] (lineEvents isRead turns)).1 (produced isRead turns)
  readFifo : phy.readFifo =
    (DelayLine.run DataSlot.readyCycle [] (lineEvents isRead turns)).2
  writes : List.Forall₂ Answers
    (DelayLine.run DataSlot.readyCycle [] (lineEvents isWrite turns)).1 (produced isWrite turns)
  writeFifo : phy.writeFifo =
    (DelayLine.run DataSlot.readyCycle [] (lineEvents isWrite turns)).2
  kept : (turns.flatMap PhyTurn.completions).Perm (turns.flatMap PhyTurn.taken ++ phy.completions)

/-- A turn goes on where the run of a FIFO stopped. -/
theorem Feeds.append {wanted : Command → Bool} {turns : List (PhyTurn β)} {turn : PhyTurn β}
    {before after : List DataSlot} (feeds : Feeds wanted turn before after)
    (completes : List.Forall₂ Answers
      (DelayLine.run DataSlot.readyCycle [] (lineEvents wanted turns)).1 (produced wanted turns))
    (waits : before = (DelayLine.run DataSlot.readyCycle [] (lineEvents wanted turns)).2) :
    List.Forall₂ Answers
        (DelayLine.run DataSlot.readyCycle [] (lineEvents wanted (turns ++ [turn]))).1
        (produced wanted (turns ++ [turn])) ∧
      after = (DelayLine.run DataSlot.readyCycle [] (lineEvents wanted (turns ++ [turn]))).2 := by
  have events : lineEvents wanted (turns ++ [turn]) =
      lineEvents wanted turns ++ lineEvents wanted [turn] := List.filterMap_append ..
  have completions : produced wanted (turns ++ [turn]) =
      produced wanted turns ++ produced wanted [turn] := by
    unfold produced
    rw [List.flatMap_append, List.filter_append]
  rw [events, completions, DelayLine.run_append, ← waits]
  exact ⟨List.rel_append completes feeds.completes, feeds.waits⟩

theorem Disciplined.turn {spec : DramSpec} {options : MemPhyOptions} {turns : List (PhyTurn β)}
    {turn : PhyTurn β} (disciplined : Disciplined spec options turns turn.before)
    (turned : Turned spec turn) : Disciplined spec options (turns ++ [turn]) turn.after := by
  obtain ⟨reads, readFifo⟩ := turned.reads.append disciplined.reads disciplined.readFifo
  obtain ⟨writes, writeFifo⟩ := turned.writes.append disciplined.writes disciplined.writeFifo
  refine ⟨turned.sound disciplined.sound.behavioral, turned.options.trans disciplined.constant,
    fun other member => ?_, reads, readFifo, writes, writeFifo, ?_⟩
  · rcases List.mem_append.mp member with earlier | last
    · exact disciplined.turned other earlier
    · rw [List.mem_singleton.mp last]
      exact ⟨turned, disciplined.sound.within, disciplined.constant⟩
  · rw [List.flatMap_append, List.flatMap_append, List.flatMap_singleton, List.flatMap_singleton]
    have more := disciplined.kept.append_right turn.completions
    rw [List.append_assoc] at more
    rw [List.append_assoc]
    exact more.trans (turned.kept.append_left _)

section Runs

variable [MemoryBackend β] {spec : DramSpec} {options : MemPhyOptions} {phy final : MemPhy}
variable {image after : MemoryImage β} {calls : List (PhyCall β)} {turns : List (PhyTurn β)}

def phyOptions : MemPhyOptions where
  mode := .behavioral
  readFifoDepth := 1
  resetCycles := 1
  initializationCycles := 1
  trainingCycles := 1

end Runs

end MemPhy

end HbmSim
