/-
The trace at the boundary of controller and PHY. Each issued command becomes a
command event, and a data command also one event for each beat of its data; a
check reads such a trace next to the commands it is said to come from.

The generator and the check compute latencies, addresses, payloads and masks
separately. The counts of performed checks and the CSV output are left out.
-/

import HbmSim.Lib.Grouping
import HbmSim.Lib.Numerals
import HbmSim.ValidatorSound

namespace HbmSim.Dfi

open Validator (failures)

/-! ### Records -/

/-- An issued command with the data the trace shows of it. -/
structure TraceCommand extends IssuedCommand where
  dataCycle : Nat := 0
  payload : ByteVector := []
  expectedPayload : ByteVector := []
  byteMask : ByteVector := []
  initializedMask : ByteVector := []
  hasPayload : Bool := false
  hasExpectedPayload : Bool := false
  hasByteMask : Bool := false
  payloadInitialized : Bool := true
  deriving DecidableEq, Repr

inductive DfiEventKind
  | command
  | readData
  | writeData
  deriving DecidableEq, Repr

@[ext]
structure DfiEvent where
  cycle : Nat := 0
  issuedCycle : Nat := 0
  requestId : Nat := 0
  kind : DfiEventKind := .command
  command : Command := .nop
  bus : BusClass := .unified
  phase : Int := 0
  beat : Int := 0
  beatCount : Int := 0
  beatBytes : Nat := 0
  address : Nat := 0
  systemAddress : Nat := 0
  stackId : Int := 0
  dfiResetN : Bool := true
  dfiCsN : Bool := true
  dfiCke : Bool := true
  dfiOdt : Bool := false
  dfiRddataEn : Bool := false
  dfiWrdataEn : Bool := false
  dfiRddataValid : Bool := false
  dfiAddress : UInt64 := 0
  dfiBank : UInt64 := 0
  dfiWrdata : String := ""
  dfiRddata : String := ""
  dfiWrdataMask : String := ""
  payloadSource : String := "none"
  payloadInitMask : String := ""
  payloadInitialized : Bool := true
  decoded : DecodedAddress := {}
  deriving DecidableEq, Repr

/-- Stack, channel, request, command and cycle of issue. -/
abbrev EventKey := Int × Nat × Nat × Command × Nat

def TraceCommand.key (issued : TraceCommand) : EventKey :=
  (issued.stackId, issued.decoded.channel, issued.requestId, issued.command, issued.cycle)

/-- The key of a command event has the cycle of the event in it. -/
def DfiEvent.commandKey (event : DfiEvent) : EventKey :=
  (event.stackId, event.decoded.channel, event.requestId, event.command, event.cycle)

/-- The key of a data event has the cycle of issue in it. -/
def DfiEvent.dataKey (event : DfiEvent) : EventKey :=
  (event.stackId, event.decoded.channel, event.requestId, event.command, event.issuedCycle)

/-! ### Encodings -/

def ceilDiv (value divisor : Nat) : Nat :=
  if divisor = 0 then value else (value + divisor - 1) / divisor

/-- `pack_field`, for fields narrower than a word. -/
def packField (value : Nat) (shift bits : UInt64) : UInt64 :=
  (value.toUInt64 &&& (((1 : UInt64) <<< bits) - 1)) <<< shift

def encodeDfiAddress (issued : IssuedCommand) : UInt64 :=
  packField issued.decoded.column 0 10 |||
    packField issued.decoded.row 10 20 |||
    packField issued.decoded.bank 30 5 |||
    packField issued.decoded.bankGroup 35 4 |||
    packField issued.decoded.rank 39 2 |||
    packField issued.decoded.sid 41 4 |||
    packField issued.decoded.pseudoChannel 45 3 |||
    packField issued.decoded.channel 48 8 |||
    packField issued.command.ctorIdx 56 8

def encodeDfiBank (decoded : DecodedAddress) : UInt64 :=
  (decoded.sid.toUInt64 <<< 8) ||| (decoded.bankGroup.toUInt64 <<< 4) ||| decoded.bank.toUInt64

def dfiPhaseCount (spec : DramSpec) : Nat :=
  max 1 (if 0 < spec.dfiPhaseCount then spec.dfiPhaseCount.toNat else spec.tickMultiplier)

def dfiPayloadBeatBytes (spec : DramSpec) : Nat :=
  if 0 < spec.dfiDataLaneBytes then spec.dfiDataLaneBytes.toNat
  else max 1 (ceilDiv (max 1 spec.transactionBytes) (max 1 spec.timing.nBL).toNat)

def readLatency (spec : DramSpec) : Int :=
  if 0 < spec.dfiReadLatencyNck then spec.dfiReadLatencyNck else spec.timing.nCL

def writeLatency (spec : DramSpec) : Int :=
  if 0 < spec.dfiWriteLatencyNck then spec.dfiWriteLatencyNck else spec.timing.nCWL

/-! ### Texts of bytes -/

/-- Bytes as two digits each. -/
def hexText (bytes : ByteVector) : String := String.ofList (Numerals.hexDigits bytes)

@[simp] theorem hexText_length (bytes : ByteVector) :
    (hexText bytes).length = bytes.length * 2 := by
  unfold hexText
  rw [String.length_ofList, Numerals.hexDigits_length]

/-- `bytes_hex_slice`: the bytes from an offset on, with zeros behind their end. -/
def bytesHexSlice (bytes : ByteVector) (offset count : Nat) : String :=
  hexText ((List.range count).map fun index => bytes.getD (offset + index) 0)

def zeroMaskHex (bytes : Nat) : String := String.ofList (List.replicate (bytes * 2) '0')

def syntheticDataHex (issued : IssuedCommand) (beat bytes : Nat) : String :=
  hexText (payloadFrom
    (encodeDfiAddress issued ^^^ (issued.requestId.toUInt64 * (0x9e3779b97f4a7c15 : UInt64)) ^^^
      (beat.toUInt64 <<< (32 : UInt64)) ^^^ issued.command.ctorIdx.toUInt64) bytes)

/-- `dfi_write_mask_hex`: a byte is masked when its enable is not set. -/
def dfiWriteMaskHex (issued : TraceCommand) (offset count : Nat) : String :=
  if issued.hasByteMask = false ∨ issued.byteMask = [] then zeroMaskHex count
  else hexText ((List.range count).map fun index =>
    if issued.byteMask.getD (offset + index) 0 ≠ 0 then 0x00 else 0xff)

def payloadInitMaskHex (issued : TraceCommand) (offset count : Nat) : String :=
  if issued.initializedMask ≠ [] then bytesHexSlice issued.initializedMask offset count
  else if issued.hasPayload then
    String.ofList (List.replicate (count * 2) (if issued.payloadInitialized then 'f' else '0'))
  else ""

@[simp] theorem bytesHexSlice_length (bytes : ByteVector) (offset count : Nat) :
    (bytesHexSlice bytes offset count).length = count * 2 := by
  unfold bytesHexSlice
  rw [hexText_length, List.length_map, List.length_range]

@[simp] theorem syntheticDataHex_length (issued : IssuedCommand) (beat bytes : Nat) :
    (syntheticDataHex issued beat bytes).length = bytes * 2 := by
  unfold syntheticDataHex
  rw [hexText_length, payloadFrom_length]

@[simp] theorem dfiWriteMaskHex_length (issued : TraceCommand) (offset count : Nat) :
    (dfiWriteMaskHex issued offset count).length = count * 2 := by
  unfold dfiWriteMaskHex zeroMaskHex
  split
  · rw [String.length_ofList, List.length_replicate]
  · rw [hexText_length, List.length_map, List.length_range]

theorem payloadInitMaskHex_length {issued : TraceCommand} (given : issued.hasPayload = true)
    (offset count : Nat) : (payloadInitMaskHex issued offset count).length = count * 2 := by
  unfold payloadInitMaskHex
  by_cases written : issued.initializedMask ≠ []
  · rw [if_pos written, bytesHexSlice_length]
  · rw [if_neg written, if_pos given, String.length_ofList, List.length_replicate]

/-! ### The generator -/

/-- `command_payload_bytes`: the length of the data, a whole transaction when none are given. -/
def commandPayloadBytes (spec : DramSpec) (issued : TraceCommand) : Nat :=
  if issued.hasPayload = true ∧ issued.payload ≠ [] then issued.payload.length
  else max 1 spec.transactionBytes

def isReadDataCommand (command : Command) : Bool :=
  decide (command = .rd ∨ command = .rda)

def isWriteDataCommand (command : Command) : Bool :=
  decide (command = .wr ∨ command = .wra)

def beatCount (spec : DramSpec) (issued : TraceCommand) : Nat :=
  ceilDiv (commandPayloadBytes spec issued) (dfiPayloadBeatBytes spec)

/-- The cycle of the first beat: what the PHY reported, or the latency of the command. -/
def firstDataCycle (spec : DramSpec) (issued : TraceCommand) : Nat :=
  if 0 < issued.dataCycle then issued.dataCycle
  else issued.cycle + timingDelay spec
    (if isReadDataCommand issued.command then readLatency spec else writeLatency spec)

def commandEvent (spec : DramSpec) (issued : TraceCommand) : DfiEvent :=
  { cycle := issued.cycle
    issuedCycle := issued.cycle
    requestId := issued.requestId
    kind := .command
    command := issued.command
    bus := issued.bus
    phase := (issued.cycle % dfiPhaseCount spec : Nat)
    address := issued.address
    systemAddress := issued.systemAddress
    stackId := issued.stackId
    dfiResetN := true
    dfiCsN := false
    dfiCke := true
    dfiOdt := isWriteDataCommand issued.command
    dfiRddataEn := isReadDataCommand issued.command
    dfiAddress := encodeDfiAddress issued.toIssuedCommand
    dfiBank := encodeDfiBank issued.decoded
    decoded := issued.decoded }

/-- The event of one beat, as `build_dfi_trace` fills it in. -/
def dataEvent (spec : DramSpec) (issued : TraceCommand) (beat : Nat) : DfiEvent :=
  let read := isReadDataCommand issued.command
  let payloadBytes := commandPayloadBytes spec issued
  let cycle := firstDataCycle spec issued + timingDelay spec beat
  let bytesBefore := beat * dfiPayloadBeatBytes spec
  let bytesLeft := if bytesBefore < payloadBytes then payloadBytes - bytesBefore else 0
  let beatBytes := min (dfiPayloadBeatBytes spec) bytesLeft
  let data :=
    if issued.hasPayload then bytesHexSlice issued.payload bytesBefore beatBytes
    else syntheticDataHex issued.toIssuedCommand beat beatBytes
  { cycle := cycle
    issuedCycle := issued.cycle
    requestId := issued.requestId
    kind := if read then .readData else .writeData
    command := issued.command
    bus := issued.bus
    phase := (cycle % dfiPhaseCount spec : Nat)
    beat := beat
    beatCount := beatCount spec issued
    beatBytes := beatBytes
    address := issued.address + bytesBefore
    systemAddress := issued.systemAddress + bytesBefore
    stackId := issued.stackId
    dfiResetN := true
    dfiCsN := true
    dfiCke := true
    dfiOdt := !read
    dfiRddataEn := false
    dfiWrdataEn := !read
    dfiRddataValid := read
    dfiAddress := encodeDfiAddress issued.toIssuedCommand
    dfiBank := encodeDfiBank issued.decoded
    dfiWrdata := if read then "" else data
    dfiRddata := if read then data else ""
    dfiWrdataMask := if read then "" else dfiWriteMaskHex issued bytesBefore beatBytes
    payloadSource :=
      if issued.hasPayload then (if read then "memory_image" else "request_payload")
      else "synthetic_fallback"
    payloadInitMask := payloadInitMaskHex issued bytesBefore beatBytes
    payloadInitialized := if issued.hasPayload then issued.payloadInitialized else true
    decoded := issued.decoded }

def dataEvents (spec : DramSpec) (issued : TraceCommand) : List DfiEvent :=
  if (commandMeta issued.command).data then
    (List.range (beatCount spec issued)).map (dataEvent spec issued)
  else []

/-- The order of the trace: by cycle, phase, stack, request and beat. -/
def DfiEvent.before (lhs rhs : DfiEvent) : Bool :=
  if lhs.cycle ≠ rhs.cycle then decide (lhs.cycle < rhs.cycle)
  else if lhs.phase ≠ rhs.phase then decide (lhs.phase < rhs.phase)
  else if lhs.stackId ≠ rhs.stackId then decide (lhs.stackId < rhs.stackId)
  else if lhs.requestId ≠ rhs.requestId then decide (lhs.requestId < rhs.requestId)
  else decide (lhs.beat < rhs.beat)

/-- `build_dfi_trace`: the events of all commands, in a stable sort. -/
def buildDfiTrace (spec : DramSpec) (commands : List TraceCommand) : List DfiEvent :=
  (commands.flatMap fun issued => commandEvent spec issued :: dataEvents spec issued).insertionSort
    fun lhs rhs => rhs.before lhs = false

/-! ### The check -/

/-- `to_string(DfiEventKind)`. -/
def DfiEventKind.text : DfiEventKind → String
  | .command => "COMMAND"
  | .readData => "READ_DATA"
  | .writeData => "WRITE_DATA"

/-- `event_label`. -/
def DfiEvent.label (event : DfiEvent) : String :=
  s!"stack {event.stackId} cycle {event.cycle} request {event.requestId} " ++
    s!"{event.command.text} {event.kind.text}" ++
    (if event.kind ≠ .command then s!" beat {event.beat}" else "")

/-- What is wrong with the signals of a command event. -/
def commandSignalErrors (event : DfiEvent) : List String :=
  failures
    [(!event.dfiCsN, event.label ++ " must assert chip select"),
      (!(event.dfiWrdataEn || event.dfiRddataValid), event.label ++ " drives a data-valid signal"),
      (decide (event.dfiRddataEn = isReadDataCommand event.command ∧
          event.dfiOdt = isWriteDataCommand event.command),
        event.label ++ " has inconsistent command enables")]

/-- What is wrong with the data a read beat shows. -/
def readSignalErrors (event : DfiEvent) : List String :=
  failures
    [(decide (event.dfiRddataValid = true ∧ event.dfiWrdataEn = false ∧
          event.dfiRddata.length = event.beatBytes * 2 ∧ event.dfiWrdata = "" ∧
          event.dfiWrdataMask = ""),
        event.label ++ " has inconsistent read-data signals"),
      (decide (event.payloadSource = "memory_image" ∨ event.payloadSource = "synthetic_fallback"),
        event.label ++ " has an unknown read payload source")]

/-- What is wrong with the data a write beat shows. -/
def writeSignalErrors (event : DfiEvent) : List String :=
  failures
    [(decide (event.dfiWrdataEn = true ∧ event.dfiRddataValid = false ∧
          event.dfiWrdata.length = event.beatBytes * 2 ∧
          event.dfiWrdataMask.length = event.beatBytes * 2 ∧ event.dfiRddata = ""),
        event.label ++ " has inconsistent write-data signals"),
      (decide (event.payloadSource = "request_payload" ∨
          event.payloadSource = "synthetic_fallback"),
        event.label ++ " has an unknown write payload source")]

/-- What is wrong with a data event by itself. -/
def dataSignalErrors (spec : DramSpec) (event : DfiEvent) : List String :=
  failures
      [(event.dfiCsN, event.label ++ " must not assert command chip select"),
        (decide (event.dfiRddataEn = false ∧ event.dfiOdt = !decide (event.kind = .readData)),
          event.label ++ " has inconsistent data-window enables"),
        (decide (0 ≤ event.beat ∧ 0 < event.beatCount ∧ event.beat < event.beatCount ∧
            event.beatBytes ≠ 0 ∧ event.beatBytes ≤ dfiPayloadBeatBytes spec),
          event.label ++ " has invalid beat metadata"),
        (decide (event.payloadSource = "synthetic_fallback" ∨
            event.payloadInitMask.length = event.beatBytes * 2),
          event.label ++ " has an invalid initialized-mask width")] ++
    if event.kind = .readData then readSignalErrors event else writeSignalErrors event

/-- What is wrong with an event by itself. -/
def eventErrors (spec : DramSpec) (event : DfiEvent) : List String :=
  failures
      [(decide (event.kind = .command → event.issuedCycle = event.cycle),
          event.label ++ " has an inconsistent issued cycle"),
        (decide (0 ≤ event.phase ∧ event.phase < dfiPhaseCount spec ∧
            event.phase = (event.cycle % dfiPhaseCount spec : Nat)),
          event.label ++ " has an invalid DFI phase"),
        (event.dfiResetN && event.dfiCke,
          event.label ++ " unexpectedly deasserts reset_n/cke")] ++
    if event.kind = .command then commandSignalErrors event else dataSignalErrors spec event

def isCommandEvent (event : DfiEvent) : Bool := decide (event.kind = .command)

/-- The command events of a key. -/
def commandEventsAt (events : List DfiEvent) (key : EventKey) : List DfiEvent :=
  Grouping.named DfiEvent.commandKey (events.filter isCommandEvent) key

/-- The data events of a key, in the order of their beats. -/
def dataEventsAt (events : List DfiEvent) (key : EventKey) : List DfiEvent :=
  let found := Grouping.named DfiEvent.dataKey (events.filter fun event => !isCommandEvent event) key
  found.insertionSort fun lhs rhs => lhs.beat ≤ rhs.beat

def issuedDataKeys (commands : List TraceCommand) : List EventKey :=
  (commands.filter fun issued =>
    isReadDataCommand issued.command || isWriteDataCommand issued.command).map TraceCommand.key

/-- One message for each key of events that no command of the given keys explains. -/
def orphanErrors (found issued : List EventKey) (message : String) : List String :=
  (found.dedup.filter fun key => decide (key ∉ issued)).map fun _ => message

/-- What is wrong with the command event of a command. -/
def snapshotErrors (events : List DfiEvent) (issued : TraceCommand) : List String :=
  match commandEventsAt events issued.key with
  | [event] =>
    failures
      [(decide (event.bus = issued.bus ∧ event.issuedCycle = issued.cycle ∧
          event.address = issued.address ∧ event.systemAddress = issued.systemAddress ∧
          event.stackId = issued.stackId ∧
          event.dfiAddress = encodeDfiAddress issued.toIssuedCommand ∧
          event.dfiBank = encodeDfiBank issued.decoded ∧ event.decoded = issued.decoded),
        event.label ++ " does not match the issued command snapshot")]
  | _ =>
    [s!"cycle {issued.cycle} request {issued.requestId} {issued.command.text} " ++
      "does not have exactly one command event"]

/-- What is wrong with one beat of a command, next to what the command says. -/
def beatErrors (spec : DramSpec) (issued : TraceCommand) (event : DfiEvent) (beat : Nat) :
    List String :=
  let read := isReadDataCommand issued.command
  let write := isWriteDataCommand issued.command
  let payloadBytes := commandPayloadBytes spec issued
  let bytesBefore := beat * dfiPayloadBeatBytes spec
  let expectedBytes := min (dfiPayloadBeatBytes spec) (payloadBytes - bytesBefore)
  let expectedPayload :=
    if issued.hasPayload then bytesHexSlice issued.payload bytesBefore expectedBytes
    else syntheticDataHex issued.toIssuedCommand beat expectedBytes
  let expectedSource :=
    if issued.hasPayload then (if read then "memory_image" else "request_payload")
    else "synthetic_fallback"
  let actualPayload := if read then event.dfiRddata else event.dfiWrdata
  failures
    [(decide (event.beat = beat ∧ event.beatCount = beatCount spec issued ∧
        event.issuedCycle = issued.cycle ∧
        event.cycle = firstDataCycle spec issued + timingDelay spec beat ∧
        event.beatBytes = expectedBytes ∧ event.address = issued.address + bytesBefore ∧
        event.systemAddress = issued.systemAddress + bytesBefore ∧
        event.stackId = issued.stackId ∧ event.bus = issued.bus ∧
        event.dfiAddress = encodeDfiAddress issued.toIssuedCommand ∧
        event.dfiBank = encodeDfiBank issued.decoded ∧ event.decoded = issued.decoded),
      event.label ++ " violates beat ordering/latency/address"),
      (decide (actualPayload = expectedPayload ∧ event.payloadSource = expectedSource ∧
        event.payloadInitialized =
          (if issued.hasPayload then issued.payloadInitialized else true) ∧
        event.payloadInitMask = payloadInitMaskHex issued bytesBefore expectedBytes ∧
        event.dfiWrdataMask =
          if write then dfiWriteMaskHex issued bytesBefore expectedBytes else ""),
      event.label ++ " does not match the issued payload/mask snapshot"),
      (decide (read = true → issued.hasExpectedPayload = true →
        issued.expectedPayload.length = payloadBytes ∧
          actualPayload = bytesHexSlice issued.expectedPayload bytesBefore expectedBytes),
      event.label ++ " does not match the request expected payload")]

/-- What is wrong with the data events of a command. -/
def beatsErrors (spec : DramSpec) (events : List DfiEvent) (issued : TraceCommand) :
    List String :=
  if isReadDataCommand issued.command || isWriteDataCommand issued.command then
    let indexed := dataEventsAt events issued.key
    if indexed.length ≠ beatCount spec issued then
      [s!"request {issued.requestId} {issued.command.text} expected {beatCount spec issued} " ++
        s!"data beats, got {indexed.length}"]
    else indexed.zipIdx.flatMap fun placed => beatErrors spec issued placed.1 placed.2
  else []

/-- `kMaxDfiValidationErrors`. -/
def maxDfiValidationErrors : Nat := 64

/-- The errors of `validate_dfi_trace`. -/
def validateDfiTrace (spec : DramSpec) (commands : List TraceCommand) (events : List DfiEvent) :
    List String :=
  (events.flatMap (eventErrors spec) ++
    orphanErrors ((events.filter isCommandEvent).map DfiEvent.commandKey)
      (commands.map TraceCommand.key) "DFI trace contains an orphan command event" ++
    orphanErrors ((events.filter fun event => !isCommandEvent event).map DfiEvent.dataKey)
      (issuedDataKeys commands) "DFI trace contains orphan data events" ++
    commands.flatMap fun issued =>
      snapshotErrors events issued ++ beatsErrors spec events issued).take maxDfiValidationErrors

/-! ### Events by themselves -/

variable {spec : DramSpec} {issued : TraceCommand} {commands : List TraceCommand}
variable {event : DfiEvent} {events : List DfiEvent} {beat : Nat}

/-- An event as the check sees it: of a command event it does not look at the data. -/
def DfiEvent.checked (event : DfiEvent) : DfiEvent :=
  if event.kind = .command then
    { event with
      beat := 0
      beatCount := 0
      beatBytes := 0
      dfiWrdata := ""
      dfiRddata := ""
      dfiWrdataMask := ""
      payloadSource := "none"
      payloadInitMask := ""
      payloadInitialized := true }
  else event

theorem checked_of_data (data : event.kind ≠ .command) : event.checked = event := if_neg data

theorem eventErrors_checked (spec : DramSpec) (event : DfiEvent) :
    eventErrors spec event.checked = eventErrors spec event := by
  unfold DfiEvent.checked
  by_cases kind : event.kind = .command
  · rw [if_pos kind]
    unfold eventErrors commandSignalErrors DfiEvent.label
    dsimp only
    rw [if_pos kind, if_pos kind, if_neg (not_not.mpr kind), if_neg (not_not.mpr kind)]
  · rw [if_neg kind]

theorem dfiPhaseCount_pos (spec : DramSpec) : 0 < dfiPhaseCount spec :=
  Nat.lt_of_lt_of_le Nat.one_pos (Nat.le_max_left _ _)

theorem dfiPayloadBeatBytes_pos (spec : DramSpec) : 0 < dfiPayloadBeatBytes spec := by
  unfold dfiPayloadBeatBytes
  split
  · omega
  · exact Nat.lt_of_lt_of_le Nat.one_pos (Nat.le_max_left _ _)

/-- A phase passes the check when it is the one of the cycle. -/
theorem phase_iff (spec : DramSpec) (cycle : Nat) (phase : Int) :
    (0 ≤ phase ∧ phase < dfiPhaseCount spec ∧ phase = (cycle % dfiPhaseCount spec : Nat)) ↔
      phase = (cycle % dfiPhaseCount spec : Nat) := by
  constructor
  · exact fun checked => checked.2.2
  · rintro rfl
    exact ⟨Int.natCast_nonneg _, Int.ofNat_lt.mpr (Nat.mod_lt _ (dfiPhaseCount_pos spec)), rfl⟩

/-- A command moves data exactly when it reads or writes them. -/
theorem data_eq (command : Command) :
    (commandMeta command).data = (isReadDataCommand command || isWriteDataCommand command) := by
  cases command <;> rfl

/-- The command event of a command is what passes the check of a command event. -/
theorem checked_eq_commandEvent_iff (kind : event.kind = .command) :
    event.checked = commandEvent spec issued ↔
      eventErrors spec event = [] ∧ event.commandKey = issued.key ∧
        event.bus = issued.bus ∧ event.issuedCycle = issued.cycle ∧
          event.address = issued.address ∧ event.systemAddress = issued.systemAddress ∧
          event.stackId = issued.stackId ∧
          event.dfiAddress = encodeDfiAddress issued.toIssuedCommand ∧
          event.dfiBank = encodeDfiBank issued.decoded ∧ event.decoded = issued.decoded := by
  unfold DfiEvent.checked eventErrors commandSignalErrors commandEvent DfiEvent.commandKey
    TraceCommand.key
  rw [if_pos kind, if_pos kind, List.append_eq_nil_iff, Validator.failures_eq_nil,
    Validator.failures_eq_nil, DfiEvent.mk.injEq]
  simp only [List.forall_mem_cons, List.not_mem_nil, false_imp_iff, implies_true, and_true,
    true_and, decide_eq_true_eq, phase_iff, Bool.and_eq_true, Bool.not_eq_true',
    Bool.or_eq_false_iff, Prod.mk.injEq]
  constructor
  · rintro ⟨cycle, issuedCycle, requestId, -, command, bus, phase, address, systemAddress, stackId,
      resetN, csN, cke, odt, rddataEn, wrdataEn, rddataValid, dfiAddress, dfiBank, decoded⟩
    rw [cycle, issuedCycle, requestId, command, bus, phase, address, systemAddress, stackId,
      resetN, csN, cke, odt, rddataEn, wrdataEn, rddataValid, dfiAddress, dfiBank, decoded]
    simp
  · rintro ⟨⟨⟨-, phase, resetN, cke⟩, csN, ⟨wrdataEn, rddataValid⟩, rddataEn, odt⟩,
      ⟨-, -, requestId, command, cycle⟩, bus, issuedCycle, address, systemAddress, stackId,
      dfiAddress, dfiBank, decoded⟩
    rw [cycle] at phase
    rw [command] at rddataEn odt
    exact ⟨cycle, issuedCycle, requestId, kind, command, bus, phase, address, systemAddress,
      stackId, resetN, csN, cke, odt, rddataEn, wrdataEn, rddataValid, dfiAddress, dfiBank,
      decoded⟩

/-! ### The beats of a command -/

/-- A beat of a command starts before the end of its data. -/
theorem beat_lt (inside : beat < beatCount spec issued) :
    beat * dfiPayloadBeatBytes spec < commandPayloadBytes spec issued := by
  unfold beatCount ceilDiv at inside
  have positive := dfiPayloadBeatBytes_pos spec
  rw [if_neg (Nat.ne_of_gt positive)] at inside
  have below := (Nat.le_div_iff_mul_le positive).mp (Nat.succ_le_of_lt inside)
  rw [Nat.succ_mul] at below
  omega

/-- The length of a beat: the last one may be shorter than the lanes. -/
def beatWidth (spec : DramSpec) (issued : TraceCommand) (beat : Nat) : Nat :=
  min (dfiPayloadBeatBytes spec)
    (commandPayloadBytes spec issued - beat * dfiPayloadBeatBytes spec)

/-- The data a beat shows. -/
def beatText (spec : DramSpec) (issued : TraceCommand) (beat : Nat) : String :=
  if issued.hasPayload then
    bytesHexSlice issued.payload (beat * dfiPayloadBeatBytes spec) (beatWidth spec issued beat)
  else syntheticDataHex issued.toIssuedCommand beat (beatWidth spec issued beat)

theorem beatText_length (spec : DramSpec) (issued : TraceCommand) (beat : Nat) :
    (beatText spec issued beat).length = beatWidth spec issued beat * 2 := by
  unfold beatText
  split
  · exact bytesHexSlice_length _ _ _
  · exact syntheticDataHex_length _ _ _

theorem beatWidth_pos (inside : beat < beatCount spec issued) : 0 < beatWidth spec issued beat :=
  Nat.lt_min.mpr ⟨dfiPayloadBeatBytes_pos spec, Nat.sub_pos_of_lt (beat_lt inside)⟩

/-- A beat shows some data. -/
theorem beatText_ne (inside : beat < beatCount spec issued) : beatText spec issued beat ≠ "" := by
  intro empty
  have length := beatText_length spec issued beat
  rw [empty] at length
  have positive := beatWidth_pos inside
  have none : "".length = 0 := rfl
  omega

/-- The initialized mask of a beat is as long as its data, unless the data are synthetic. -/
theorem initMask_length (spec : DramSpec) (issued : TraceCommand) (beat : Nat) (source : String) :
    (if issued.hasPayload then source else "synthetic_fallback") = "synthetic_fallback" ∨
      (payloadInitMaskHex issued (beat * dfiPayloadBeatBytes spec)
        (beatWidth spec issued beat)).length = beatWidth spec issued beat * 2 := by
  by_cases given : issued.hasPayload = true
  · exact Or.inr (payloadInitMaskHex_length given _ _)
  · exact Or.inl (if_neg given)

/-- What the generator makes of a beat, in a read and in a write. -/
theorem dataEvent_eq (spec : DramSpec) (issued : TraceCommand) (beat : Nat) :
    dataEvent spec issued beat =
      { cycle := firstDataCycle spec issued + timingDelay spec beat
        issuedCycle := issued.cycle
        requestId := issued.requestId
        kind := if isReadDataCommand issued.command then .readData else .writeData
        command := issued.command
        bus := issued.bus
        phase :=
          ((firstDataCycle spec issued + timingDelay spec beat) % dfiPhaseCount spec : Nat)
        beat := beat
        beatCount := beatCount spec issued
        beatBytes := beatWidth spec issued beat
        address := issued.address + beat * dfiPayloadBeatBytes spec
        systemAddress := issued.systemAddress + beat * dfiPayloadBeatBytes spec
        stackId := issued.stackId
        dfiResetN := true
        dfiCsN := true
        dfiCke := true
        dfiOdt := !isReadDataCommand issued.command
        dfiRddataEn := false
        dfiWrdataEn := !isReadDataCommand issued.command
        dfiRddataValid := isReadDataCommand issued.command
        dfiAddress := encodeDfiAddress issued.toIssuedCommand
        dfiBank := encodeDfiBank issued.decoded
        dfiWrdata := if isReadDataCommand issued.command then "" else beatText spec issued beat
        dfiRddata := if isReadDataCommand issued.command then beatText spec issued beat else ""
        dfiWrdataMask :=
          if isReadDataCommand issued.command then ""
          else dfiWriteMaskHex issued (beat * dfiPayloadBeatBytes spec)
            (beatWidth spec issued beat)
        payloadSource :=
          if issued.hasPayload then
            (if isReadDataCommand issued.command then "memory_image" else "request_payload")
          else "synthetic_fallback"
        payloadInitMask :=
          payloadInitMaskHex issued (beat * dfiPayloadBeatBytes spec) (beatWidth spec issued beat)
        payloadInitialized := if issued.hasPayload then issued.payloadInitialized else true
        decoded := issued.decoded } := by
  have left : (if beat * dfiPayloadBeatBytes spec < commandPayloadBytes spec issued then
      commandPayloadBytes spec issued - beat * dfiPayloadBeatBytes spec else 0) =
        commandPayloadBytes spec issued - beat * dfiPayloadBeatBytes spec := by
    split <;> omega
  unfold dataEvent beatText beatWidth
  dsimp only
  rw [left]

/-- A read beat passes the check of an event when its signals are those of a read. -/
theorem eventErrors_readData_iff (kind : event.kind = .readData) :
    eventErrors spec event = [] ↔
      event.phase = (event.cycle % dfiPhaseCount spec : Nat) ∧
        (event.dfiResetN = true ∧ event.dfiCke = true ∧ event.dfiCsN = true ∧
          event.dfiRddataEn = false ∧ event.dfiOdt = false ∧ event.dfiRddataValid = true ∧
          event.dfiWrdataEn = false) ∧
        (0 ≤ event.beat ∧ 0 < event.beatCount ∧ event.beat < event.beatCount ∧
          event.beatBytes ≠ 0 ∧ event.beatBytes ≤ dfiPayloadBeatBytes spec) ∧
        (event.payloadSource = "synthetic_fallback" ∨
          event.payloadInitMask.length = event.beatBytes * 2) ∧
        (event.dfiRddata.length = event.beatBytes * 2 ∧ event.dfiWrdata = "" ∧
          event.dfiWrdataMask = "") ∧
        (event.payloadSource = "memory_image" ∨ event.payloadSource = "synthetic_fallback") := by
  have data : event.kind ≠ .command := by
    rw [kind]
    exact DfiEventKind.noConfusion
  unfold eventErrors dataSignalErrors readSignalErrors
  rw [if_neg data, if_pos kind, List.append_eq_nil_iff, List.append_eq_nil_iff,
    Validator.failures_eq_nil, Validator.failures_eq_nil, Validator.failures_eq_nil]
  simp only [List.forall_mem_cons, List.not_mem_nil, false_imp_iff, implies_true, and_true,
    true_and, decide_eq_true_eq, phase_iff, Bool.and_eq_true, kind, decide_true, Bool.not_true,
    reduceCtorEq]
  tauto

/-- A write beat passes the check of an event when its signals are those of a write. -/
theorem eventErrors_writeData_iff (kind : event.kind = .writeData) :
    eventErrors spec event = [] ↔
      event.phase = (event.cycle % dfiPhaseCount spec : Nat) ∧
        (event.dfiResetN = true ∧ event.dfiCke = true ∧ event.dfiCsN = true ∧
          event.dfiRddataEn = false ∧ event.dfiOdt = true ∧ event.dfiRddataValid = false ∧
          event.dfiWrdataEn = true) ∧
        (0 ≤ event.beat ∧ 0 < event.beatCount ∧ event.beat < event.beatCount ∧
          event.beatBytes ≠ 0 ∧ event.beatBytes ≤ dfiPayloadBeatBytes spec) ∧
        (event.payloadSource = "synthetic_fallback" ∨
          event.payloadInitMask.length = event.beatBytes * 2) ∧
        (event.dfiWrdata.length = event.beatBytes * 2 ∧
          event.dfiWrdataMask.length = event.beatBytes * 2 ∧ event.dfiRddata = "") ∧
        (event.payloadSource = "request_payload" ∨
          event.payloadSource = "synthetic_fallback") := by
  have data : event.kind ≠ .command := by
    rw [kind]
    exact DfiEventKind.noConfusion
  have write : event.kind ≠ .readData := by
    rw [kind]
    exact DfiEventKind.noConfusion
  unfold eventErrors dataSignalErrors writeSignalErrors
  rw [if_neg data, if_neg write, List.append_eq_nil_iff, List.append_eq_nil_iff,
    Validator.failures_eq_nil, Validator.failures_eq_nil, Validator.failures_eq_nil]
  simp only [List.forall_mem_cons, List.not_mem_nil, false_imp_iff, implies_true, and_true,
    true_and, decide_eq_true_eq, phase_iff, Bool.and_eq_true, kind, decide_false, Bool.not_false,
    reduceCtorEq]
  tauto

/-- Every beat the generator makes passes the check of an event. -/
theorem eventErrors_dataEvent (inside : beat < beatCount spec issued) :
    eventErrors spec (dataEvent spec issued beat) = [] := by
  have width := beatWidth_pos inside
  have place : (0 : Int) ≤ beat ∧ (0 : Int) < beatCount spec issued ∧
      (beat : Int) < beatCount spec issued := by omega
  have lanes : beatWidth spec issued beat ≤ dfiPayloadBeatBytes spec := Nat.min_le_left _ _
  rw [dataEvent_eq]
  by_cases read : isReadDataCommand issued.command = true
  · rw [eventErrors_readData_iff (if_pos read)]
    simp only [read, if_true, Bool.not_true, and_self, true_and, and_true]
    refine ⟨⟨place.1, place.2.1, place.2.2, Nat.ne_of_gt width, lanes⟩,
      initMask_length spec issued beat _, beatText_length spec issued beat, ?_⟩
    split
    · exact Or.inl rfl
    · exact Or.inr rfl
  · rw [eventErrors_writeData_iff (if_neg read)]
    simp only [read, Bool.false_eq_true, if_false, Bool.not_false, and_self, true_and, and_true]
    refine ⟨⟨place.1, place.2.1, place.2.2, Nat.ne_of_gt width, lanes⟩,
      initMask_length spec issued beat _, ⟨beatText_length spec issued beat,
        dfiWriteMaskHex_length _ _ _⟩, ?_⟩
    split
    · exact Or.inl rfl
    · exact Or.inr rfl

/-- The commands of the check: an expected payload comes with an equal one, which is not empty. -/
def TraceCommand.Expects (issued : TraceCommand) : Prop :=
  issued.hasExpectedPayload = true →
    issued.hasPayload = true ∧ issued.payload = issued.expectedPayload ∧ issued.payload ≠ []

instance (issued : TraceCommand) : Decidable issued.Expects := by
  unfold TraceCommand.Expects
  infer_instance

/-- A beat passes the check against its command when place, addresses and data are the command's. -/
theorem beatErrors_eq_nil_iff (spec : DramSpec) (issued : TraceCommand) (event : DfiEvent)
    (beat : Nat) :
    beatErrors spec issued event beat = [] ↔
      (event.beat = beat ∧ event.beatCount = beatCount spec issued ∧
        event.issuedCycle = issued.cycle ∧
        event.cycle = firstDataCycle spec issued + timingDelay spec beat ∧
        event.beatBytes = beatWidth spec issued beat ∧
        event.address = issued.address + beat * dfiPayloadBeatBytes spec ∧
        event.systemAddress = issued.systemAddress + beat * dfiPayloadBeatBytes spec ∧
        event.stackId = issued.stackId ∧ event.bus = issued.bus ∧
        event.dfiAddress = encodeDfiAddress issued.toIssuedCommand ∧
        event.dfiBank = encodeDfiBank issued.decoded ∧ event.decoded = issued.decoded) ∧
      ((if isReadDataCommand issued.command then event.dfiRddata else event.dfiWrdata) =
          beatText spec issued beat ∧
        event.payloadSource =
          (if issued.hasPayload then
            (if isReadDataCommand issued.command then "memory_image" else "request_payload")
          else "synthetic_fallback") ∧
        event.payloadInitialized =
          (if issued.hasPayload then issued.payloadInitialized else true) ∧
        event.payloadInitMask = payloadInitMaskHex issued (beat * dfiPayloadBeatBytes spec)
          (beatWidth spec issued beat) ∧
        event.dfiWrdataMask =
          if isWriteDataCommand issued.command then
            dfiWriteMaskHex issued (beat * dfiPayloadBeatBytes spec) (beatWidth spec issued beat)
          else "") ∧
      (isReadDataCommand issued.command = true → issued.hasExpectedPayload = true →
        issued.expectedPayload.length = commandPayloadBytes spec issued ∧
          (if isReadDataCommand issued.command then event.dfiRddata else event.dfiWrdata) =
            bytesHexSlice issued.expectedPayload (beat * dfiPayloadBeatBytes spec)
              (beatWidth spec issued beat)) := by
  unfold beatErrors
  rw [Validator.failures_eq_nil]
  simp only [List.forall_mem_cons, List.not_mem_nil, false_imp_iff, implies_true, and_true,
    decide_eq_true_eq]
  rfl

theorem isWriteDataCommand_eq {command : Command}
    (moves : (isReadDataCommand command || isWriteDataCommand command) = true) :
    isWriteDataCommand command = !isReadDataCommand command := by
  cases command <;> first | rfl | exact absurd moves Bool.false_ne_true

/-- The beat the generator makes passes the check against its command. -/
theorem beatErrors_dataEvent
    (moves : (isReadDataCommand issued.command || isWriteDataCommand issued.command) = true)
    (expects : issued.Expects) (beat : Nat) :
    beatErrors spec issued (dataEvent spec issued beat) beat = [] := by
  rw [beatErrors_eq_nil_iff, dataEvent_eq, isWriteDataCommand_eq moves]
  refine ⟨⟨rfl, rfl, rfl, rfl, rfl, rfl, rfl, rfl, rfl, rfl, rfl, rfl⟩, ⟨?_, rfl, rfl, rfl, ?_⟩,
    fun read carried => ?_⟩
  · dsimp only
    split <;> rfl
  · dsimp only
    cases isReadDataCommand issued.command <;> rfl
  · obtain ⟨given, same, some⟩ := expects carried
    have length : commandPayloadBytes spec issued = issued.payload.length :=
      if_pos ⟨given, some⟩
    refine ⟨by rw [length, same], ?_⟩
    dsimp only
    rw [if_pos read, if_pos read, ← same]
    exact if_pos given

/-- What passes both checks is the beat the generator makes. -/
theorem eq_dataEvent_of_accepted
    (moves : (isReadDataCommand issued.command || isWriteDataCommand issued.command) = true)
    (data : event.kind ≠ .command) (key : event.dataKey = issued.key)
    (inside : beat < beatCount spec issued) (clean : eventErrors spec event = [])
    (accepted : beatErrors spec issued event beat = []) :
    event = dataEvent spec issued beat := by
  obtain ⟨⟨place, count, issuedCycle, cycle, bytes, address, systemAddress, stackId, bus,
    dfiAddress, dfiBank, decoded⟩, ⟨text, source, initialized, initMask, mask⟩, -⟩ :=
      (beatErrors_eq_nil_iff spec issued event beat).mp accepted
  have some := beatText_ne inside
  simp only [DfiEvent.dataKey, TraceCommand.key, Prod.mk.injEq] at key
  obtain ⟨-, -, requestId, command, -⟩ := key
  rw [isWriteDataCommand_eq moves] at mask
  rw [dataEvent_eq]
  by_cases read : isReadDataCommand issued.command = true
  · rw [if_pos read] at text
    simp only [read, if_true, Bool.not_true] at source mask ⊢
    have kind : event.kind = .readData := by
      rcases kind : event.kind with _ | _ | _
      · exact absurd kind data
      · rfl
      · obtain ⟨-, -, -, -, ⟨-, -, empty⟩, -⟩ := (eventErrors_writeData_iff kind).mp clean
        exact absurd (text.symm.trans empty) some
    obtain ⟨phase, ⟨resetN, cke, csN, rddataEn, odt, rddataValid, wrdataEn⟩, -, -,
      ⟨-, wrdata, -⟩, -⟩ := (eventErrors_readData_iff kind).mp clean
    rw [cycle] at phase
    exact DfiEvent.ext cycle issuedCycle requestId kind command bus phase place count bytes address
      systemAddress stackId resetN csN cke odt rddataEn wrdataEn rddataValid dfiAddress dfiBank
      wrdata text mask source initMask initialized decoded
  · rw [if_neg read] at text
    simp only [read, Bool.false_eq_true, if_false, Bool.not_false, if_true] at source mask ⊢
    have kind : event.kind = .writeData := by
      rcases kind : event.kind with _ | _ | _
      · exact absurd kind data
      · obtain ⟨-, -, -, -, ⟨-, empty, -⟩, -⟩ := (eventErrors_readData_iff kind).mp clean
        exact absurd (text.symm.trans empty) some
      · rfl
    obtain ⟨phase, ⟨resetN, cke, csN, rddataEn, odt, rddataValid, wrdataEn⟩, -, -,
      ⟨-, -, rddata⟩, -⟩ := (eventErrors_writeData_iff kind).mp clean
    rw [cycle] at phase
    exact DfiEvent.ext cycle issuedCycle requestId kind command bus phase place count bytes address
      systemAddress stackId resetN csN cke odt rddataEn wrdataEn rddataValid dfiAddress dfiBank
      text rddata mask source initMask initialized decoded

/-! ### The trace as a whole -/

/-- The check reports nothing when none of its parts does. -/
theorem validateDfiTrace_eq_nil_iff :
    validateDfiTrace spec commands events = [] ↔
      (∀ event ∈ events, eventErrors spec event = []) ∧
        ((∀ event ∈ events.filter isCommandEvent,
            event.commandKey ∈ commands.map TraceCommand.key) ∧
          ∀ issued ∈ commands, snapshotErrors events issued = []) ∧
        (∀ event ∈ events.filter fun event => !isCommandEvent event,
            event.dataKey ∈ issuedDataKeys commands) ∧
          ∀ issued ∈ commands, beatsErrors spec events issued = [] := by
  have orphans : ∀ (found known : List EventKey) (message : String),
      orphanErrors found known message = [] ↔ ∀ key ∈ found, key ∈ known := by
    intro found known message
    unfold orphanErrors
    rw [List.map_eq_nil_iff, List.filter_eq_nil_iff]
    simp only [List.mem_dedup, decide_eq_true_eq, not_not]
  unfold validateDfiTrace
  rw [List.take_eq_nil_iff, List.append_eq_nil_iff, List.append_eq_nil_iff,
    List.append_eq_nil_iff, orphans, orphans, List.flatMap_eq_nil_iff, List.flatMap_eq_nil_iff]
  simp only [List.forall_mem_map, List.append_eq_nil_iff]
  constructor
  · rintro (none | ⟨⟨⟨clean, commandKeys⟩, dataKeys⟩, byCommand⟩)
    · exact absurd none (by decide)
    · exact ⟨clean, ⟨commandKeys, fun issued member => (byCommand issued member).1⟩, dataKeys,
        fun issued member => (byCommand issued member).2⟩
  · rintro ⟨clean, ⟨commandKeys, snapshots⟩, dataKeys, beats⟩
    exact Or.inr ⟨⟨⟨clean, commandKeys⟩, dataKeys⟩, fun issued member =>
      ⟨snapshots issued member, beats issued member⟩⟩

theorem commandKey_checked (event : DfiEvent) : event.checked.commandKey = event.commandKey := by
  unfold DfiEvent.checked
  split <;> rfl

theorem isCommandEvent_checked (event : DfiEvent) :
    isCommandEvent event.checked = isCommandEvent event := by
  unfold DfiEvent.checked
  split <;> rfl

theorem mem_commandEventsAt {key : EventKey} (member : event ∈ commandEventsAt events key) :
    event ∈ events ∧ event.kind = .command ∧ event.commandKey = key := by
  obtain ⟨member, carried⟩ := Grouping.mem_named.mp member
  obtain ⟨member, command⟩ := List.mem_filter.mp member
  exact ⟨member, of_decide_eq_true command, carried⟩

/-- The command event of a command passes when it is there once and is what is generated. -/
theorem snapshotErrors_eq_nil_iff (clean : ∀ event ∈ events, eventErrors spec event = []) :
    snapshotErrors events issued = [] ↔
      (commandEventsAt events issued.key).map DfiEvent.checked = [commandEvent spec issued] := by
  have belongs : ∀ event ∈ commandEventsAt events issued.key,
      event ∈ events ∧ event.kind = .command ∧ event.commandKey = issued.key :=
    fun _ => mem_commandEventsAt
  unfold snapshotErrors
  generalize commandEventsAt events issued.key = found at belongs ⊢
  rcases found with _ | ⟨event, _ | ⟨other, rest⟩⟩
  · exact iff_of_false (List.cons_ne_nil _ _) (List.cons_ne_nil _ _).symm
  · obtain ⟨member, kind, key⟩ := belongs event List.mem_cons_self
    show Validator.failures _ = [] ↔ [event.checked] = [commandEvent spec issued]
    rw [List.cons.injEq, checked_eq_commandEvent_iff kind, Validator.failures_eq_nil,
      List.forall_mem_singleton, decide_eq_true_eq]
    constructor
    · exact fun same => ⟨⟨clean event member, key, same⟩, rfl⟩
    · exact fun same => same.1.2.2
  · refine iff_of_false (List.cons_ne_nil _ _) fun same => ?_
    have length := congrArg List.length same
    simp at length

/-- The command events pass when they are those of the commands. -/
theorem commandEvents_perm_iff (distinct : (commands.map TraceCommand.key).Nodup)
    (clean : ∀ event ∈ events, eventErrors spec event = []) :
    ((events.filter isCommandEvent).map DfiEvent.checked).Perm
        (commands.flatMap fun issued => [commandEvent spec issued]) ↔
      (∀ event ∈ events.filter isCommandEvent, event.commandKey ∈ commands.map TraceCommand.key) ∧
        ∀ issued ∈ commands, snapshotErrors events issued = [] := by
  rw [@Grouping.perm_flatMap_iff _ _ _ _ DfiEvent.commandKey TraceCommand.key _ _ _ distinct
    (fun issued _ event member => by rw [List.mem_singleton.mp member]; rfl)]
  rw [List.forall_mem_map]
  refine and_congr ?_ (forall₂_congr fun issued _ => ?_)
  · simp only [commandKey_checked]
  · rw [snapshotErrors_eq_nil_iff clean, List.perm_singleton]
    have same : Grouping.named DfiEvent.commandKey
        ((events.filter isCommandEvent).map DfiEvent.checked) issued.key =
          (commandEventsAt events issued.key).map DfiEvent.checked := by
      unfold commandEventsAt Grouping.named
      rw [List.filter_map]
      refine congrArg (List.map _) (List.filter_congr fun event _ => ?_)
      show decide (event.checked.commandKey = issued.key) = _
      rw [commandKey_checked]
    rw [same]

theorem kind_of_not_command (data : (!isCommandEvent event) = true) : event.kind ≠ .command := by
  intro kind
  unfold isCommandEvent at data
  rw [decide_eq_true kind] at data
  exact absurd data Bool.false_ne_true

theorem mem_dataEventsAt {key : EventKey} (member : event ∈ dataEventsAt events key) :
    event ∈ events ∧ event.kind ≠ .command ∧ event.dataKey = key := by
  obtain ⟨member, carried⟩ := Grouping.mem_named.mp ((List.mem_insertionSort _).mp member)
  obtain ⟨member, data⟩ := List.mem_filter.mp member
  exact ⟨member, kind_of_not_command data, carried⟩

/-- The generated beats of a command, in the order of their numbers. -/
theorem pairwise_beats (spec : DramSpec) (issued : TraceCommand) :
    ((List.range (beatCount spec issued)).map (dataEvent spec issued)).Pairwise
      fun lhs rhs => lhs.beat < rhs.beat := by
  refine List.pairwise_map.mpr (List.pairwise_lt_range.imp fun {first second} below => ?_)
  show (first : Int) < second
  exact Int.ofNat_lt.mpr below

/-- The data events of a command pass when they are its beats. -/
theorem beatsErrors_eq_nil_iff
    (moves : (isReadDataCommand issued.command || isWriteDataCommand issued.command) = true)
    (expects : issued.Expects) (clean : ∀ event ∈ events, eventErrors spec event = []) :
    beatsErrors spec events issued = [] ↔
      dataEventsAt events issued.key =
        (List.range (beatCount spec issued)).map (dataEvent spec issued) := by
  have belongs : ∀ event ∈ dataEventsAt events issued.key,
      event ∈ events ∧ event.kind ≠ .command ∧ event.dataKey = issued.key :=
    fun _ => mem_dataEventsAt
  unfold beatsErrors
  rw [if_pos moves]
  dsimp only
  generalize dataEventsAt events issued.key = found at belongs ⊢
  by_cases many : found.length = beatCount spec issued
  · rw [if_neg (not_not.mpr many), List.flatMap_eq_nil_iff]
    constructor
    · intro accepted
      refine List.ext_getElem (by rw [List.length_map, List.length_range, many])
        fun beat inFound inBeats => ?_
      rw [List.getElem_map, List.getElem_range]
      obtain ⟨member, data, key⟩ := belongs _ (List.getElem_mem inFound)
      exact eq_dataEvent_of_accepted moves data key (many ▸ inFound) (clean _ member)
        (accepted (found[beat], beat) (List.mem_zipIdx_iff_getElem?.mpr
          (List.getElem?_eq_getElem inFound)))
    · rintro rfl
      rintro ⟨event, beat⟩ placed
      have here := List.mem_zipIdx_iff_getElem?.mp placed
      obtain ⟨inside, here⟩ := List.getElem?_eq_some_iff.mp here
      rw [List.getElem_map, List.getElem_range] at here
      have here : dataEvent spec issued beat = event := here
      show beatErrors spec issued event beat = []
      rw [← here]
      exact beatErrors_dataEvent moves expects beat
  · rw [if_pos many]
    refine iff_of_false (List.cons_ne_nil _ _) fun same => many ?_
    rw [same, List.length_map, List.length_range]

/-- The commands that move data. -/
def movingCommands (commands : List TraceCommand) : List TraceCommand :=
  commands.filter fun issued =>
    isReadDataCommand issued.command || isWriteDataCommand issued.command

theorem flatMap_dataEvents (spec : DramSpec) (commands : List TraceCommand) :
    commands.flatMap (dataEvents spec) =
      (movingCommands commands).flatMap fun issued =>
        (List.range (beatCount spec issued)).map (dataEvent spec issued) := by
  unfold movingCommands
  induction commands with
  | nil => rfl
  | cons issued rest inductionHypothesis =>
    rw [List.flatMap_cons, inductionHypothesis, List.filter_cons]
    unfold dataEvents
    rw [data_eq]
    split
    · rw [List.flatMap_cons]
    · rfl

/-- The data events pass when they are those of the commands. -/
theorem dataEvents_perm_iff (distinct : (commands.map TraceCommand.key).Nodup)
    (expects : ∀ issued ∈ commands, issued.Expects)
    (clean : ∀ event ∈ events, eventErrors spec event = []) :
    (events.filter fun event => !isCommandEvent event).Perm (commands.flatMap (dataEvents spec)) ↔
      (∀ event ∈ events.filter fun event => !isCommandEvent event,
          event.dataKey ∈ issuedDataKeys commands) ∧
        ∀ issued ∈ commands, beatsErrors spec events issued = [] := by
  have distinct' : ((movingCommands commands).map TraceCommand.key).Nodup :=
    distinct.sublist (List.filter_sublist.map _)
  rw [flatMap_dataEvents, @Grouping.perm_flatMap_iff _ _ _ _ DfiEvent.dataKey TraceCommand.key _ _ _
    distinct' (fun issued _ event member => by
      obtain ⟨beat, -, rfl⟩ := List.mem_map.mp member
      rfl)]
  refine and_congr Iff.rfl ?_
  constructor
  · intro groups issued member
    by_cases moves : (isReadDataCommand issued.command || isWriteDataCommand issued.command) = true
    · rw [beatsErrors_eq_nil_iff moves (expects issued member) clean]
      exact (Grouping.insertionSort_eq_iff (pairwise_beats spec issued)).mpr
        (groups issued (List.mem_filter.mpr ⟨member, moves⟩))
    · exact if_neg moves
  · intro beats issued member
    obtain ⟨member, moves⟩ := List.mem_filter.mp member
    exact (Grouping.insertionSort_eq_iff (pairwise_beats spec issued)).mp
      ((beatsErrors_eq_nil_iff moves (expects issued member) clean).mp (beats issued member))

theorem eventErrors_commandEvent (spec : DramSpec) (issued : TraceCommand) :
    eventErrors spec (commandEvent spec issued) = [] :=
  ((checked_eq_commandEvent_iff rfl).mp rfl).1

theorem kind_of_mem_dataEvents (member : event ∈ dataEvents spec issued) :
    event.kind ≠ .command := by
  unfold dataEvents at member
  split at member
  · obtain ⟨beat, -, rfl⟩ := List.mem_map.mp member
    rw [dataEvent_eq]
    dsimp only
    split <;> exact DfiEventKind.noConfusion
  · exact absurd member List.not_mem_nil

/-- The generated events, before they are sorted. -/
def generated (spec : DramSpec) (commands : List TraceCommand) : List DfiEvent :=
  commands.flatMap fun issued => commandEvent spec issued :: dataEvents spec issued

theorem buildDfiTrace_perm (spec : DramSpec) (commands : List TraceCommand) :
    (buildDfiTrace spec commands).Perm (generated spec commands) :=
  List.perm_insertionSort _ _

theorem filter_generated_command (spec : DramSpec) (commands : List TraceCommand) :
    (generated spec commands).filter isCommandEvent =
      commands.flatMap fun issued => [commandEvent spec issued] := by
  unfold generated
  rw [List.filter_flatMap]
  refine List.flatMap_congr fun issued _ => ?_
  have none : (dataEvents spec issued).filter isCommandEvent = [] :=
    List.filter_eq_nil_iff.mpr fun event member command =>
      kind_of_mem_dataEvents member (of_decide_eq_true command)
  rw [List.filter_cons_of_pos rfl, none]

theorem filter_generated_data (spec : DramSpec) (commands : List TraceCommand) :
    ((generated spec commands).filter fun event => !isCommandEvent event) =
      commands.flatMap (dataEvents spec) := by
  unfold generated
  rw [List.filter_flatMap]
  refine List.flatMap_congr fun issued _ => ?_
  have all : ((dataEvents spec issued).filter fun event => !isCommandEvent event) =
      dataEvents spec issued := by
    refine List.filter_eq_self.mpr fun event member => ?_
    unfold isCommandEvent
    rw [decide_eq_false (kind_of_mem_dataEvents member)]
    rfl
  rw [List.filter_cons_of_neg Bool.false_ne_true, all]

theorem filter_checked_command (events : List DfiEvent) :
    (events.map DfiEvent.checked).filter isCommandEvent =
      (events.filter isCommandEvent).map DfiEvent.checked := by
  rw [List.filter_map]
  exact congrArg _ (List.filter_congr fun event _ => isCommandEvent_checked event)

theorem filter_checked_data (events : List DfiEvent) :
    ((events.map DfiEvent.checked).filter fun event => !isCommandEvent event) =
      events.filter fun event => !isCommandEvent event := by
  have same : (events.filter ((fun event => !isCommandEvent event) ∘ DfiEvent.checked)) =
      events.filter fun event => !isCommandEvent event :=
    List.filter_congr fun event _ => congrArg not (isCommandEvent_checked event)
  rw [List.filter_map, same]
  refine (List.map_congr_left fun event member => ?_).trans (List.map_id _)
  exact checked_of_data (kind_of_not_command (List.mem_filter.mp member).2)

/-- The check accepts a trace when it is the generated one, up to order and to the data fields of
command events. -/
theorem validateDfiTrace_iff_perm (distinct : (commands.map TraceCommand.key).Nodup)
    (expects : ∀ issued ∈ commands, issued.Expects) :
    validateDfiTrace spec commands events = [] ↔
      (events.map DfiEvent.checked).Perm (buildDfiTrace spec commands) := by
  rw [(buildDfiTrace_perm spec commands).congr_right, Grouping.perm_iff_filter isCommandEvent,
    filter_checked_command, filter_checked_data, filter_generated_command,
    filter_generated_data, validateDfiTrace_eq_nil_iff]
  constructor
  · rintro ⟨clean, command, data⟩
    exact ⟨(commandEvents_perm_iff distinct clean).mpr command,
      (dataEvents_perm_iff distinct expects clean).mpr data⟩
  · rintro ⟨command, data⟩
    have clean : ∀ event ∈ events, eventErrors spec event = [] := by
      intro event member
      by_cases kind : isCommandEvent event = true
      · rw [← eventErrors_checked]
        have found := command.subset
          (List.mem_map_of_mem (List.mem_filter.mpr ⟨member, kind⟩))
        obtain ⟨issued, -, same⟩ := List.mem_flatMap.mp found
        rw [List.mem_singleton.mp same]
        exact eventErrors_commandEvent spec issued
      · have found := data.subset (List.mem_filter.mpr ⟨member, by simp [kind]⟩)
        rw [flatMap_dataEvents] at found
        obtain ⟨issued, -, found⟩ := List.mem_flatMap.mp found
        obtain ⟨beat, inside, rfl⟩ := List.mem_map.mp found
        exact eventErrors_dataEvent (List.mem_range.mp inside)
    exact ⟨clean, (commandEvents_perm_iff distinct clean).mp command,
      (dataEvents_perm_iff distinct expects clean).mp data⟩

theorem buildDfiTrace_accepted (distinct : (commands.map TraceCommand.key).Nodup)
    (expects : ∀ issued ∈ commands, issued.Expects) :
    validateDfiTrace spec commands (buildDfiTrace spec commands) = [] := by
  have fixed : (buildDfiTrace spec commands).map DfiEvent.checked =
      buildDfiTrace spec commands := by
    refine (List.map_congr_left fun event member => ?_).trans (List.map_id _)
    obtain ⟨issued, -, found⟩ :=
      List.mem_flatMap.mp ((buildDfiTrace_perm spec commands).subset member)
    rcases List.mem_cons.mp found with rfl | found
    · exact if_pos rfl
    · exact checked_of_data (kind_of_mem_dataEvents found)
  rw [validateDfiTrace_iff_perm distinct expects, fixed]

/-- The check accepts the generated trace and, up to order and to the data fields of command
events, no other. -/
theorem dfi_trace_accepted_iff (spec : DramSpec) (commands : List TraceCommand)
    (distinct : (commands.map TraceCommand.key).Nodup)
    (expects : ∀ issued ∈ commands, issued.Expects) :
    validateDfiTrace spec commands (buildDfiTrace spec commands) = [] ∧
      ∀ events, validateDfiTrace spec commands events = [] ↔
        (events.map DfiEvent.checked).Perm (buildDfiTrace spec commands) :=
  ⟨buildDfiTrace_accepted distinct expects, fun _ => validateDfiTrace_iff_perm distinct expects⟩

/-- An activate, a read that says what it expects, and a masked write whose last beat is short. -/
def shortRun : List TraceCommand :=
  [{ cycle := 3, requestId := 1, command := .act, bus := .row },
    { cycle := 40, requestId := 1, command := .rd, bus := .column, payload := [1, 2, 3],
      hasPayload := true, expectedPayload := [1, 2, 3], hasExpectedPayload := true },
    { cycle := 60, requestId := 2, command := .wra, bus := .column, dataCycle := 71,
      payload := [4, 5, 6], hasPayload := true, byteMask := [1, 0, 1], hasByteMask := true }]

theorem dfi_trace_accepted_iff_shortRun :
    validateDfiTrace { dfiDataLaneBytes := 2 } shortRun
        (buildDfiTrace { dfiDataLaneBytes := 2 } shortRun) = [] ∧
      ∀ events, validateDfiTrace { dfiDataLaneBytes := 2 } shortRun events = [] ↔
        (events.map DfiEvent.checked).Perm (buildDfiTrace { dfiDataLaneBytes := 2 } shortRun) :=
  dfi_trace_accepted_iff { dfiDataLaneBytes := 2 } shortRun (by decide) (by decide)

/-- The command event of an activate passes with a beat in it, though the generated one has none. -/
theorem numbered_command_accepted :
    validateDfiTrace {} [{ cycle := 3, command := .act }]
        [{ commandEvent {} { cycle := 3, command := .act } with beat := 5, beatCount := 7 }] = [] ∧
      ¬ ([{ commandEvent {} { cycle := 3, command := .act } with
          beat := 5, beatCount := 7 }].map fun event => (event.beat, event.beatCount)).Perm
        ((buildDfiTrace {} [{ cycle := 3, command := .act }]).map
          fun event => (event.beat, event.beatCount)) := by
  decide +kernel

example : (buildDfiTrace { dfiDataLaneBytes := 2 } shortRun).map
    (fun event => (event.cycle, event.beatBytes, event.dfiRddata ++ event.dfiWrdata)) =
      [(3, 0, ""), (40, 0, ""), (60, 2, "0102"), (60, 0, ""), (61, 1, "03"), (71, 2, "0405"),
        (72, 1, "06")] := by
  decide +kernel

end HbmSim.Dfi
