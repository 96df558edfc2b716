/-
The behavioral PHY between the controller and the memory image: its life cycle,
the command FIFO, and the read and write data FIFOs whose slots reach the image
when their pipeline time is over.

In direct mode the PHY accepts everything and holds nothing. The counters and
the command encoding, which only statistics read, are left out.
-/

import HbmSim.Queues
import HbmSim.Timing
import HbmSim.Image

namespace HbmSim

inductive MemPhyMode
  | direct
  | behavioral
  deriving DecidableEq, Repr

inductive MemPhyState
  | reset
  | initialization
  | training
  | ready
  | lowPower
  | error
  deriving DecidableEq, Repr

structure MemPhyOptions where
  mode : MemPhyMode := .direct
  commandFifoDepth : Nat := 16
  readFifoDepth : Nat := 16
  writeFifoDepth : Nat := 16
  commandPipelineCycles : Int := 1
  readReturnPipelineCycles : Int := 1
  writeDataPipelineCycles : Int := 1
  resetCycles : Int := 0
  initializationCycles : Int := 0
  trainingCycles : Int := 0
  autoTrain : Bool := true
  deriving DecidableEq, Repr

structure DataSlot where
  request : Request
  command : Command := .nop
  issuedCycle : Nat := 0
  readyCycle : Nat := 0
  deriving DecidableEq, Repr

structure MemPhyCompletion where
  requestId : Nat := 0
  controllerSequence : Nat := 0
  type : RequestType := .read
  command : Command := .nop
  issuedCycle : Nat := 0
  completionCycle : Nat := 0
  data : ByteVector := []
  initializedMask : ByteVector := []
  initialized : Bool := true
  eccCorrected : Bool := false
  eccUncorrectable : Bool := false
  deriving DecidableEq, Repr

/-- `commandFifo` holds the release cycles of the commands on their way. A training state with
deadline zero waits for an explicit training command. -/
structure MemPhy where
  options : MemPhyOptions
  state : MemPhyState := .ready
  stateDeadline : Nat := 0
  commandFifo : List Nat := []
  readFifo : List DataSlot := []
  writeFifo : List DataSlot := []
  completions : List MemPhyCompletion := []
  deriving DecidableEq, Repr

namespace MemPhy

def behavioral (phy : MemPhy) : Bool := decide (phy.options.mode = .behavioral)

/-! ### Life cycle -/

/-- The constructor. -/
def create (spec : DramSpec) (options : MemPhyOptions) : Except Exception MemPhy := do
  validateSpec spec
  throwIf (options.commandFifoDepth = 0 ∨ options.readFifoDepth = 0 ∨ options.writeFifoDepth = 0)
    (invalidArgument "MemPhy FIFO depths must be positive")
  throwIf (options.commandPipelineCycles < 0 ∨ options.readReturnPipelineCycles < 0 ∨
      options.writeDataPipelineCycles < 0 ∨ options.resetCycles < 0 ∨
      options.initializationCycles < 0 ∨ options.trainingCycles < 0)
    (invalidArgument "MemPhy lifecycle and pipeline cycles must be non-negative")
  if options.mode = .direct then return { options }
  else if 0 < options.resetCycles then
    return { options, state := .reset, stateDeadline := timingDelay spec options.resetCycles }
  else if 0 < options.initializationCycles then
    return { options, state := .initialization,
             stateDeadline := timingDelay spec options.initializationCycles }
  else if options.autoTrain = true ∧ 0 < options.trainingCycles then
    return { options, state := .training,
             stateDeadline := timingDelay spec options.trainingCycles }
  else return { options }

/-- What follows the initialization: the automatic training, if there is one. -/
def afterInitialization (phy : MemPhy) (spec : DramSpec) (cycle : Nat) : MemPhy :=
  if phy.options.autoTrain = true ∧ 0 < phy.options.trainingCycles then
    { phy with state := .training
               stateDeadline := cycle + timingDelay spec phy.options.trainingCycles }
  else { phy with state := .ready }

def advanceLifecycle (phy : MemPhy) (spec : DramSpec) (cycle : Nat) : MemPhy :=
  if phy.behavioral = false then phy
  else
    match phy.state with
    | .reset =>
      if cycle < phy.stateDeadline then phy
      else if 0 < phy.options.initializationCycles then
        { phy with state := .initialization
                   stateDeadline := cycle + timingDelay spec phy.options.initializationCycles }
      else phy.afterInitialization spec cycle
    | .initialization =>
      if cycle < phy.stateDeadline then phy else phy.afterInitialization spec cycle
    | .training =>
      if phy.stateDeadline ≠ 0 ∧ phy.stateDeadline ≤ cycle then { phy with state := .ready }
      else phy
    | _ => phy

/-! ### Admission -/

def idle (phy : MemPhy) : Bool :=
  decide (phy.commandFifo = [] ∧ phy.readFifo = [] ∧ phy.writeFifo = [] ∧ phy.completions = [])

def canAcceptCommand (phy : MemPhy) (command : Command) : Bool :=
  if phy.behavioral = false then true
  else if phy.options.commandFifoDepth ≤ phy.commandFifo.length then false
  else
    match phy.state with
    | .reset => false
    | .initialization => false
    | .training => decide (phy.stateDeadline = 0 ∧ command = .wcktrain)
    | .lowPower => decide (command = .pdx ∨ command = .srefex)
    | .ready => true
    | .error => false

def isRead (command : Command) : Bool := decide (command = .rd ∨ command = .rda)
def isWrite (command : Command) : Bool := decide (command = .wr ∨ command = .wra)

def canAcceptData (phy : MemPhy) (command : Command) : Bool :=
  if phy.behavioral = false then true
  else if phy.state ≠ .ready then false
  else if isRead command then decide (phy.readFifo.length < phy.options.readFifoDepth)
  else if isWrite command then decide (phy.writeFifo.length < phy.options.writeFifoDepth)
  else true

/-- The state a command leaves the PHY in. -/
def stateAfter (phy : MemPhy) (spec : DramSpec) (command : Command) : MemPhy :=
  match command with
  | .pde | .srefen => { phy with state := .lowPower }
  | .pdx | .srefex => { phy with state := .ready }
  | .dvfs =>
    if spec.lpddrFamily = true ∧ spec.lpddrRequiresWckRetrainAfterDvfs = true then
      { phy with state := .training, stateDeadline := 0 }
    else phy
  | .wcktrain => { phy with state := .ready }
  | _ => phy

def acceptCommand (phy : MemPhy) (spec : DramSpec) (command : Command) (cycle : Nat) :
    Except Exception MemPhy :=
  if phy.behavioral = false then .ok phy
  else do
    throwIf (phy.canAcceptCommand command = false)
      (runtimeError "MemPhy command rejected by state/FIFO")
    -- A command path of zero cycles is combinational and takes no place in the FIFO.
    let commandFifo :=
      if 0 < phy.options.commandPipelineCycles then
        phy.commandFifo ++ [cycle + timingDelay spec phy.options.commandPipelineCycles]
      else phy.commandFifo
    return { phy with commandFifo }.stateAfter spec command

/-- `submit_data`: put a data command into its FIFO and predict its completion. -/
def submitData (phy : MemPhy) (spec : DramSpec) (request : Request) (command : Command)
    (cycle : Nat) : Except Exception (Nat × MemPhy) :=
  if phy.behavioral = false then .ok (cycle, phy)
  else do
    throwIf (phy.canAcceptData command = false)
      (runtimeError "MemPhy data FIFO overflow or PHY not trained")
    if isRead command then
      let latency :=
        if 0 < spec.dfiReadLatencyNck then spec.dfiReadLatencyNck + spec.timing.nBL
        else spec.timing.readLatency
      let readyCycle := cycle + timingDelay spec (latency + phy.options.readReturnPipelineCycles)
      return (readyCycle, { phy with
        readFifo := phy.readFifo ++ [{ request, command, issuedCycle := cycle, readyCycle }] })
    else if isWrite command then
      let latency :=
        if 0 < spec.dfiWriteLatencyNck then spec.dfiWriteLatencyNck else spec.timing.nCWL
      let readyCycle := cycle + timingDelay spec (latency + phy.options.writeDataPipelineCycles)
      return (readyCycle, { phy with
        writeFifo := phy.writeFifo ++ [{ request, command, issuedCycle := cycle, readyCycle }] })
    else .error (invalidArgument "MemPhy submit_data requires RD/RDA/WR/WRA")

/-! ### Completion -/

/-- The coordinates a slot reaches the image with. -/
def slotDecoded (request : Request) : DecodedAddress :=
  if request.hasStorageDecoded then request.storageDecoded else request.decoded

section Completion

variable {β : Type} [MemoryBackend β]

def completeRead (spec : DramSpec) (image : MemoryImage β) (slot : DataSlot) (cycle : Nat) :
    Except Exception (MemPhyCompletion × MemoryImage β) := do
  let decoded := slotDecoded slot.request
  let (data, initialized, after) ←
    image.read slot.request.address (requestDataSize spec slot.request) (some decoded)
  let initializedMask ←
    after.readInitializedMask slot.request.address data.length (some decoded)
  return ({
    requestId := slot.request.id
    controllerSequence := slot.request.controllerSequence
    type := slot.request.type
    command := slot.command
    issuedCycle := slot.issuedCycle
    completionCycle := cycle
    data, initialized, initializedMask
    eccCorrected := decide (image.counters.correctedErrors < after.counters.correctedErrors)
    eccUncorrectable :=
      decide (image.counters.uncorrectableErrors < after.counters.uncorrectableErrors) }, after)

def completeWrite (image : MemoryImage β) (slot : DataSlot) (cycle : Nat) :
    Except Exception (MemPhyCompletion × MemoryImage β) := do
  let image ← image.write slot.request.address slot.request.payload slot.request.writeMask
    (some (slotDecoded slot.request)) { requestId := slot.request.id, cycle }
  return ({
    requestId := slot.request.id
    controllerSequence := slot.request.controllerSequence
    type := slot.request.type
    command := slot.command
    issuedCycle := slot.issuedCycle
    completionCycle := cycle }, image)

/-- `complete_slot`. -/
def completeSlot (spec : DramSpec) (image : MemoryImage β) (slot : DataSlot) (cycle : Nat) :
    Except Exception (MemPhyCompletion × MemoryImage β) :=
  if slot.request.type = .read then completeRead spec image slot cycle
  else completeWrite image slot cycle

/-- Complete the slots at the front of a FIFO that are due. -/
def drain (spec : DramSpec) (cycle : Nat) :
    List DataSlot → MemoryImage β →
      Except Exception (List DataSlot × List MemPhyCompletion × MemoryImage β)
  | [], image => .ok ([], [], image)
  | slot :: rest, image =>
    if slot.readyCycle ≤ cycle then do
      let (completion, image) ← completeSlot spec image slot cycle
      let (left, completions, image) ← drain spec cycle rest image
      return (left, completion :: completions, image)
    else .ok (slot :: rest, [], image)

/-- `tick`: the life cycle, the commands that arrive, then the reads and the writes that are
due. -/
def tick (phy : MemPhy) (spec : DramSpec) (image : MemoryImage β) (cycle : Nat) :
    Except Exception (MemPhy × MemoryImage β) := do
  let phy := phy.advanceLifecycle spec cycle
  let commandFifo := phy.commandFifo.dropWhile (decide <| · ≤ cycle)
  let (readFifo, reads, image) ← drain spec cycle phy.readFifo image
  let (writeFifo, writes, image) ← drain spec cycle phy.writeFifo image
  return ({ phy with
    commandFifo, readFifo, writeFifo
    completions := phy.completions ++ reads ++ writes }, image)

end Completion

/-- `take_completion`: the first completion of a request leaves the PHY. -/
def takeCompletion (phy : MemPhy) (requestId controllerSequence : Nat) :
    Option (MemPhyCompletion × MemPhy) :=
  let isMine (completion : MemPhyCompletion) : Bool :=
    decide (completion.requestId = requestId ∧
      completion.controllerSequence = controllerSequence)
  (phy.completions.find? isMine).map fun completion =>
    (completion, { phy with completions := phy.completions.eraseP isMine })

end MemPhy

end HbmSim
