/-
The stream of requests of a trace. The reader remembers the data of every write it
hands on, whole and under the address the write starts at, and gives them to the
reads that ask for the last write.

What it remembers is not a memory: it knows nothing of masks, nor of a write that
starts elsewhere and covers some of the same bytes. So what a read is told to
expect is what memory will hold only while nothing of the kind happens to its
bytes.
-/

import HbmSim.TraceTokens
import HbmSim.WriteCoalesce

namespace HbmSim.Frontend

/-! ### The reader -/

/-- The options of the traffic. The lines of a trace stand for the path of its file. -/
structure TrafficOptions where
  pattern : String := "stream"
  trace : Option (List String) := none
  requests : Nat := 10000
  readRatio : Int := 100
  randomAddressSpaceBytes : Nat := 0
  addrStride : Nat := 64
  injectInterval : Nat := 0
  initSequence : String := "none"
  initSequenceInterval : Nat := 1
  stackCount : Int := 1
  deriving DecidableEq, Repr

/-- A burst that is being handed on line by line. -/
structure BurstState where
  active : Bool := false
  type : RequestType := .read
  address : Nat := 0
  injectCycle : Nat := 0
  lineCount : Nat := 0
  nextLine : Nat := 0
  burstId : Nat := 0
  pattern : String := ""
  check : String := ""
  qosClass : Int := 0
  targetStack : Int := -1
  hasExplicitStack : Bool := false
  deriving DecidableEq, Repr

structure TraceTrafficStream where
  spec : DramSpec
  options : TrafficOptions
  input : List String
  trackLastWrites : Bool
  nextId : Nat := 0
  nextBurstId : Nat := 1
  lineno : Nat := 0
  burst : BurstState := {}
  emittedRequests : Nat := 0
  lastWritePayloads : LastWriteMap := fun _ => none

/-- A line up to its comment. -/
def withoutComment (line : String) : String := String.ofList (line.toList.takeWhile (· ≠ '#'))

def containsText (text part : String) : Bool :=
  text.toList.tails.any fun tail => part.toList.isPrefixOf tail

def traceLineNeedsLastWriteTracking (line : String) : Bool :=
  let lowered := lowerToken (withoutComment line)
  containsText lowered "last_write" || containsText lowered "lastwrite" ||
    containsText lowered "check=auto" || containsText lowered "verify=auto"

/-- Open a trace, given by its lines. -/
def TraceTrafficStream.open (spec : DramSpec) (options : TrafficOptions) (lines : List String) :
    Except Exception TraceTrafficStream := do
  validateSpec spec
  return { spec, options, input := lines,
           trackLastWrites := lines.any traceLineNeedsLastWriteTracking }

namespace TraceTrafficStream

def limitReached (stream : TraceTrafficStream) : Bool :=
  decide (stream.options.requests ≠ 0 ∧ stream.options.requests ≤ stream.emittedRequests)

/-- Remember the data of a write. -/
def remember (stream : TraceTrafficStream) (request : TrafficRequest) : TraceTrafficStream :=
  if request.type = .write ∧ stream.trackLastWrites = true then
    { stream with lastWritePayloads :=
        Function.update stream.lastWritePayloads (traceAddressKey request) (some request.payload) }
  else stream

/-- `account_request`. -/
def accountRequest (stream : TraceTrafficStream) : TraceTrafficStream :=
  { stream with emittedRequests := stream.emittedRequests + 1 }

/-! ### Bursts -/

/-- The request for the next line of the burst, without its data. -/
def burstRequest (stream : TraceTrafficStream) : TrafficRequest :=
  let offset := stream.burst.nextLine * stream.spec.org.lineSize
  { id := stream.nextId
    type := stream.burst.type
    address := stream.burst.address + offset
    injectCycle := stream.burst.injectCycle
    decoded := decode stream.spec (stream.burst.address + offset)
    burstId := stream.burst.burstId
    burstOffset := offset
    qosClass := stream.burst.qosClass
    targetStack := stream.burst.targetStack
    hasExplicitStack := stream.burst.hasExplicitStack }

/-- The data of a line of the burst: the pattern of a write, what a checked read expects. -/
def burstData (stream : TraceTrafficStream) (request : TrafficRequest) :
    Except Exception TrafficRequest :=
  let check := stream.burst.check
  let lineSize := stream.spec.org.lineSize
  if request.type = .write then do
    let payload ← burstPayloadValue stream.burst.pattern request.address lineSize
    return { request with payload, hasPayload := true }
  else if check = "last_write" then do
    let expectedPayload ← lookupLastWritePayload stream.lastWritePayloads request stream.lineno
    return { request with expectedPayload, hasExpectedPayload := true }
  else if check = "auto" then
    match if stream.trackLastWrites then stream.lastWritePayloads (traceAddressKey request)
        else none with
    | some payload =>
      .ok { request with expectedPayload := payload, hasExpectedPayload := true }
    | none => do
      let expectedPayload ← burstPayloadValue "request_id" request.address lineSize
      return { request with expectedPayload, hasExpectedPayload := true }
  else if check ∈ ["zero", "zeros", "ff", "request_id"] then do
    let expectedPayload ← burstPayloadValue check request.address lineSize
    return { request with expectedPayload, hasExpectedPayload := true }
  else .ok request

/-- The burst behind the line that was handed on. -/
def advanceBurst (stream : TraceTrafficStream) : BurstState :=
  let nextLine := stream.burst.nextLine + 1
  { stream.burst with
    nextLine
    active := stream.burst.active &&
      !(decide (stream.burst.lineCount ≤ nextLine) || stream.limitReached) }

def emitBurst (stream : TraceTrafficStream) :
    Except Exception (TrafficRequest × TraceTrafficStream) := do
  let request ← burstData stream (burstRequest stream)
  let stream := stream.remember request
  return (request, { stream with
    nextId := stream.nextId + 1, burst := advanceBurst stream }.accountRequest)

/-- The options of a burst line. -/
structure BurstOptions where
  length : Nat := 0
  pattern : String := ""
  check : String := ""
  qosClass : Int := 0
  targetStack : Int := -1
  hasExplicitStack : Bool := false
  deriving DecidableEq, Repr

def applyBurstToken (lineno : Nat) (options : BurstOptions) (token : String) :
    Except Exception BurstOptions :=
  match splitOption token with
  | none => .ok options
  | some (key, value) =>
    if key = "len" ∨ key = "length" then do
      let length ← parseNonnegativeU64 value 0 (traceLine lineno ++ " has invalid burst length")
      return { options with length }
    else if key = "pattern" then .ok { options with pattern := lowerToken value }
    else if key = "check" ∨ key = "verify" then .ok { options with check := lowerToken value }
    else if isQosKey key = true then do
      let qosClass ← parseQos lineno value
      return { options with qosClass := (qosClass : Int) }
    else if isStackKey key = true then do
      let targetStack ← parseStack lineno value
      return { options with targetStack := (targetStack : Int), hasExplicitStack := true }
    else .ok options

def parseBurstLine (stream : TraceTrafficStream) (injectCycle : Nat) (kind : String)
    (address : Nat) (options : List String) :
    Except Exception (TrafficRequest × TraceTrafficStream) := do
  let options ← options.foldlM (applyBurstToken stream.lineno) {}
  throwIf (options.length = 0)
    (runtimeError (traceLine stream.lineno ++ " burst requires len=N"))
  throwIf (options.length % stream.spec.org.lineSize ≠ 0)
    (runtimeError (traceLine stream.lineno ++ " burst length must be multiple of line_size"))
  validateAddressSpan address options.length (traceLine stream.lineno ++ " burst address range")
  let type ← parseType kind
  emitBurst { stream with
    nextBurstId := stream.nextBurstId + 1
    burst := {
      active := true
      type
      address
      injectCycle
      lineCount := options.length / stream.spec.org.lineSize
      nextLine := 0
      burstId := stream.nextBurstId
      pattern := options.pattern
      check := options.check
      qosClass := options.qosClass
      targetStack := options.targetStack
      hasExplicitStack := options.hasExplicitStack } }

/-! ### Single requests -/

/-- The request of a line, before its options. -/
def lineRequest (stream : TraceTrafficStream) (type : RequestType) (address injectCycle : Nat) :
    TrafficRequest :=
  { id := stream.nextId, type, address, injectCycle, decoded := decode stream.spec address }

def applyMaintenanceToken (lineno : Nat) (request : TrafficRequest) (token : String) :
    Except Exception TrafficRequest :=
  match splitOption token with
  | none =>
    .error (runtimeError (traceLine lineno ++ " has invalid maintenance option: " ++ token))
  | some (key, value) =>
    if isStackKey key = true then do
      let targetStack ← parseStack lineno value
      return { request with targetStack := (targetStack : Int), hasExplicitStack := true }
    else if isQosKey key = true then do
      let qosClass ← parseQos lineno value
      return { request with qosClass := (qosClass : Int) }
    else .error (runtimeError (traceLine lineno ++ " has unknown maintenance option: " ++ key))

def parseMaintenanceLine (stream : TraceTrafficStream) (injectCycle : Nat) (command : String)
    (options : List String) : Except Exception (TrafficRequest × TraceTrafficStream) :=
  match options with
  | [] => .error (runtimeError (traceLine stream.lineno ++
      " maintenance syntax is M COMMAND ADDRESS"))
  | target :: options => do
    let next ← parseMaintenanceCommand command
    let address ← parseAddress target
    let request ← options.foldlM (applyMaintenanceToken stream.lineno)
      { stream.lineRequest .maintenance address injectCycle with next }
    return (request, { stream with nextId := stream.nextId + 1 }.accountRequest)

/-- A write has data, and a mask of their length if it has one. -/
def finishWrite (stream : TraceTrafficStream) (request : TrafficRequest) :
    Except Exception TrafficRequest :=
  if request.type = .write then do
    let request :=
      if request.hasPayload = false ∨ request.payload = [] then
        { request with
          payload := makeRequestPayload request.address request.id
            (max 1 stream.spec.org.lineSize)
          hasPayload := true }
      else request
    throwIf (request.hasByteMask = true ∧ request.byteMask.length ≠ request.payload.length)
      (runtimeError (traceLine stream.lineno ++
        " byte mask length must equal write payload length"))
    return request
  else .ok request

def parseRequestLine (stream : TraceTrafficStream) (injectCycle : Nat) (kind : String)
    (address : Nat) (options : List String) :
    Except Exception (TrafficRequest × TraceTrafficStream) := do
  let type ← parseType kind
  let request ← options.foldlM (applyStackToken stream.lineno)
    (stream.lineRequest type address injectCycle)
  let request ← options.foldlM (applyTraceDataToken stream.lineno
    (max 1 stream.spec.org.lineSize)
    (if stream.trackLastWrites then some stream.lastWritePayloads else none)) request
  let request ← finishWrite stream request
  let stream := stream.remember request
  return (request, { stream with nextId := stream.nextId + 1 }.accountRequest)

/-! ### Lines -/

/-- Whether a line starts with the cycle of its request. -/
def isTimed (tokens : List String) : Bool :=
  decide (3 ≤ tokens.length) && looksLikeCycle (tokens.headD "")

/-- The words of a line behind its cycle. -/
def untimed (tokens : List String) : List String := if isTimed tokens then tokens.tail else tokens

def lineCycle (stream : TraceTrafficStream) (tokens : List String) : Except Exception Nat :=
  if isTimed tokens then
    parseNonnegativeU64 (tokens.headD "") 10
      (traceLine stream.lineno ++ " has invalid inject cycle")
  else .ok (stream.nextId * stream.options.injectInterval % 2 ^ 64)

def parseTraceLine (stream : TraceTrafficStream) (tokens : List String) :
    Except Exception (TrafficRequest × TraceTrafficStream) :=
  match untimed tokens with
  | kind :: target :: options => do
    let injectCycle ← lineCycle stream tokens
    if isMaintenanceType kind then parseMaintenanceLine stream injectCycle target options
    else do
      let address ← parseAddress target
      if isBurstType kind then parseBurstLine stream injectCycle kind address options
      else parseRequestLine stream injectCycle kind address options
  | _ => .error (runtimeError (traceLine stream.lineno ++ " missing address"))

/-- Read lines up to the first with a request. -/
def readLines (stream : TraceTrafficStream) :
    List String → Except Exception (Option TrafficRequest × TraceTrafficStream)
  | [] => .ok (none, { stream with input := [] })
  | line :: rest =>
    let stream := { stream with lineno := stream.lineno + 1, input := rest }
    let tokens := splitTokens (withoutComment line)
    if tokens = [] then readLines stream rest
    else do
      let (request, stream) ← parseTraceLine stream tokens
      return (some request, stream)

def next (stream : TraceTrafficStream) :
    Except Exception (Option TrafficRequest × TraceTrafficStream) :=
  if stream.limitReached then .ok (none, stream)
  else if stream.burst.active then do
    let (request, stream) ← emitBurst stream
    return (some request, stream)
  else readLines stream stream.input

/-- The requests of a number of calls. -/
def emit : Nat → TraceTrafficStream → Except Exception (List TrafficRequest × TraceTrafficStream)
  | 0, stream => .ok ([], stream)
  | count + 1, stream => do
    let (request, stream) ← stream.next
    match request with
    | none => return ([], stream)
    | some request =>
      let (more, stream) ← emit count stream
      return (request :: more, stream)

end TraceTrafficStream

/-! ### The numbers of a trace -/

section Trace

variable {stream next : TraceTrafficStream} {request after : TrafficRequest} {token : String}

theorem applyStackToken_id {lineno : Nat}
    (applies : applyStackToken lineno request token = .ok after) : after.id = request.id := by
  unfold applyStackToken at applies
  split at applies
  next =>
    cases applies
    rfl
  split at applies
  next =>
    obtain ⟨_, -, returned⟩ := bind_eq_ok.mp applies
    cases returned
    rfl
  next =>
    cases applies
    rfl

theorem applyTraceDataToken_id {lineno size : Nat} {lastWrites : Option LastWriteMap}
    (applies : applyTraceDataToken lineno size lastWrites request token = .ok after) :
    after.id = request.id := by
  unfold applyTraceDataToken at applies
  split at applies
  next =>
    split at applies
    next =>
      obtain ⟨_, -, returned⟩ := bind_eq_ok.mp applies
      cases returned
      rfl
    split at applies
    next =>
      obtain ⟨_, -, returned⟩ := bind_eq_ok.mp applies
      cases returned
      rfl
    next => cases applies
  next =>
    split at applies
    next =>
      obtain ⟨_, -, applies⟩ := bind_eq_ok.mp applies
      obtain ⟨_, -, returned⟩ := bind_eq_ok.mp applies
      cases returned
      rfl
    split at applies
    next =>
      obtain ⟨_, -, applies⟩ := bind_eq_ok.mp applies
      obtain ⟨_, -, returned⟩ := bind_eq_ok.mp applies
      cases returned
      rfl
    split at applies
    next =>
      obtain ⟨_, -, applies⟩ := bind_eq_ok.mp applies
      obtain ⟨_, -, returned⟩ := bind_eq_ok.mp applies
      cases returned
      rfl
    split at applies
    next =>
      obtain ⟨_, -, returned⟩ := bind_eq_ok.mp applies
      cases returned
      rfl
    split at applies
    next =>
      obtain ⟨_, -, returned⟩ := bind_eq_ok.mp applies
      cases returned
      rfl
    next => cases applies

theorem applyMaintenanceToken_id {lineno : Nat}
    (applies : TraceTrafficStream.applyMaintenanceToken lineno request token = .ok after) :
    after.id = request.id := by
  unfold TraceTrafficStream.applyMaintenanceToken at applies
  split at applies
  next => cases applies
  split at applies
  next =>
    obtain ⟨_, -, returned⟩ := bind_eq_ok.mp applies
    cases returned
    rfl
  split at applies
  next =>
    obtain ⟨_, -, returned⟩ := bind_eq_ok.mp applies
    cases returned
    rfl
  next => cases applies

theorem finishWrite_id (finishes : stream.finishWrite request = .ok after) :
    after.id = request.id := by
  unfold TraceTrafficStream.finishWrite at finishes
  split at finishes
  next =>
    obtain ⟨_, -, returned⟩ := bind_eq_ok.mp finishes
    cases returned
    split <;> rfl
  next =>
    cases finishes
    rfl

theorem burstData_id (data : stream.burstData request = .ok after) : after.id = request.id := by
  unfold TraceTrafficStream.burstData at data
  dsimp only at data
  split at data
  next =>
    obtain ⟨_, -, returned⟩ := bind_eq_ok.mp data
    cases returned
    rfl
  split at data
  next =>
    obtain ⟨_, -, returned⟩ := bind_eq_ok.mp data
    cases returned
    rfl
  split at data
  next =>
    split at data
    next =>
      cases data
      rfl
    next =>
      obtain ⟨_, -, returned⟩ := bind_eq_ok.mp data
      cases returned
      rfl
  split at data
  next =>
    obtain ⟨_, -, returned⟩ := bind_eq_ok.mp data
    cases returned
    rfl
  next =>
    cases data
    rfl

theorem remember_nextId (stream : TraceTrafficStream) (request : TrafficRequest) :
    (stream.remember request).nextId = stream.nextId := by
  unfold TraceTrafficStream.remember
  split <;> rfl

theorem emitBurst_id (emits : stream.emitBurst = .ok (request, next)) :
    request.id = stream.nextId ∧ next.nextId = stream.nextId + 1 := by
  obtain ⟨filled, data, returned⟩ := bind_eq_ok.mp emits
  cases returned
  exact ⟨burstData_id data, congrArg (· + 1) (remember_nextId stream request)⟩

theorem parseTraceLine_id {tokens : List String}
    (parses : stream.parseTraceLine tokens = .ok (request, next)) :
    request.id = stream.nextId ∧ next.nextId = stream.nextId + 1 := by
  unfold TraceTrafficStream.parseTraceLine at parses
  split at parses
  next kind target options _ =>
    obtain ⟨injectCycle, -, parses⟩ := bind_eq_ok.mp parses
    split at parses
    next =>
      unfold TraceTrafficStream.parseMaintenanceLine at parses
      split at parses
      next => cases parses
      next =>
        obtain ⟨_, -, parses⟩ := bind_eq_ok.mp parses
        obtain ⟨_, -, parses⟩ := bind_eq_ok.mp parses
        obtain ⟨_, fills, returned⟩ := bind_eq_ok.mp parses
        cases returned
        exact ⟨foldlM_keeps (fun request : TrafficRequest => request.id = stream.nextId)
          (fun _ _ _ kept applies => (applyMaintenanceToken_id applies).trans kept) _ rfl fills,
          rfl⟩
    next =>
      obtain ⟨address, -, parses⟩ := bind_eq_ok.mp parses
      split at parses
      next =>
        unfold TraceTrafficStream.parseBurstLine at parses
        obtain ⟨_, -, parses⟩ := bind_eq_ok.mp parses
        obtain ⟨_, -, parses⟩ := bind_eq_ok.mp parses
        obtain ⟨_, -, parses⟩ := bind_eq_ok.mp parses
        obtain ⟨_, -, parses⟩ := bind_eq_ok.mp parses
        obtain ⟨_, -, emits⟩ := bind_eq_ok.mp parses
        have ids := emitBurst_id emits
        exact ids
      next =>
        unfold TraceTrafficStream.parseRequestLine at parses
        obtain ⟨_, -, parses⟩ := bind_eq_ok.mp parses
        obtain ⟨stacked, places, parses⟩ := bind_eq_ok.mp parses
        obtain ⟨filled, fills, parses⟩ := bind_eq_ok.mp parses
        obtain ⟨_, finishes, returned⟩ := bind_eq_ok.mp parses
        cases returned
        have placed : stacked.id = stream.nextId :=
          foldlM_keeps (fun request : TrafficRequest => request.id = stream.nextId)
            (fun _ _ _ kept applies => (applyStackToken_id applies).trans kept) _ rfl places
        have full : filled.id = stream.nextId :=
          foldlM_keeps (fun request : TrafficRequest => request.id = stream.nextId)
            (fun _ _ _ kept applies => (applyTraceDataToken_id applies).trans kept) _ placed fills
        exact ⟨(finishWrite_id finishes).trans full,
          congrArg (· + 1) (remember_nextId stream request)⟩
  next => cases parses

theorem readLines_id {lines : List String}
    (reads : stream.readLines lines = .ok (some request, next)) :
    request.id = stream.nextId ∧ next.nextId = stream.nextId + 1 := by
  induction lines generalizing stream with
  | nil => cases reads
  | cons line rest inductionHypothesis =>
    unfold TraceTrafficStream.readLines at reads
    dsimp only at reads
    split at reads
    next =>
      have later := inductionHypothesis reads
      exact later
    next =>
      obtain ⟨⟨request', next'⟩, parses, returned⟩ := bind_eq_ok.mp reads
      cases returned
      have ids := parseTraceLine_id parses
      exact ids

end Trace

end HbmSim.Frontend
