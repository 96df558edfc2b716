/-
What the reads of a trace that ask for the last write are told to expect. It is the
whole data of the latest write that starts at the address of the read, in the stack
the read had named when it asked.

A memory that all writes went to holds for each byte what the latest write of the
stack that enabled the byte put there. So a read is told right exactly when no byte
of the remembered write has been given another value by a write that does not start
at its address or does not enable it, or that went to another stack than the one the
read asked in.
-/

import HbmSim.TraceStream

namespace HbmSim.Frontend

/-! ### What a read asks for -/

/-- The text that says what a read expects, in an option that says so. -/
def expectation (token : String) : Option String :=
  match splitOption token with
  | none => some token
  | some (key, value) => if isExpectKey key = true then some value else none

/-- The stack that is named behind an option. -/
def namedStack (lineno : Nat) (stack : Int) (token : String) : Int :=
  match splitOption token with
  | some (key, value) =>
    if isStackKey key = true then (((parseStack lineno value).toOption.getD 0 : Nat) : Int)
    else stack
  | none => stack

/-- The stack that is named so far, and the one that the last write was asked for in, unless the
read has asked for something else since. -/
def askToken (lineno : Nat) (state : Int × Option Int) (token : String) : Int × Option Int :=
  (namedStack lineno state.1 token,
    match expectation token with
    | some value => if isLastWriteValue value = true then some state.1 else none
    | none => state.2)

/-- The stack a read with these options asks for the last write in. -/
def askedByOptions (lineno : Nat) (options : List String) : Option Int :=
  (options.foldl (askToken lineno) (options.foldl (namedStack lineno) (-1), none)).2

def askedByBurst (type : RequestType) (check : String) (hasExplicitStack : Bool)
    (targetStack : Int) : Option Int :=
  if type = .read ∧ check = "last_write" then some (if hasExplicitStack then targetStack else -1)
  else none

/-- The stack a line asks for the last write in, if it is a read that does. -/
def askedByLine (lineno : Nat) (tokens : List String) : Option Int :=
  match TraceTrafficStream.untimed tokens with
  | kind :: _ :: options =>
    if isMaintenanceType kind = true then none
    else
      match parseType kind with
      | .ok type =>
        if isBurstType kind = true then
          match options.foldlM (TraceTrafficStream.applyBurstToken lineno) {} with
          | .ok options =>
            askedByBurst type options.check options.hasExplicitStack options.targetStack
          | .error _ => none
        else if type = .read then askedByOptions lineno options
        else none
      | .error _ => none
  | _ => none

def askedByLines (lineno : Nat) : List String → Option Int
  | [] => none
  | line :: rest =>
    let tokens := splitTokens (withoutComment line)
    if tokens = [] then askedByLines (lineno + 1) rest else askedByLine (lineno + 1) tokens

/-- The stack in which the next request of the stream asks for the last write, if it is a read that
does. -/
def TraceTrafficStream.asked (stream : TraceTrafficStream) : Option Int :=
  if stream.burst.active = true then
    askedByBurst stream.burst.type stream.burst.check stream.burst.hasExplicitStack
      stream.burst.targetStack
  else askedByLines stream.lineno stream.input

/-! ### One request -/

section Step

variable {stream next : TraceTrafficStream} {request start : TrafficRequest}

/-- What the stream does with its memory when it hands a request on: it remembers a write, and a
read that asks for the last write expects what is remembered at its address. -/
structure Handed (stream : TraceTrafficStream) (asked : Option Int) (request : TrafficRequest)
    (next : TraceTrafficStream) : Prop where
  track : next.trackLastWrites = stream.trackLastWrites
  remembered : next.lastWritePayloads = (stream.remember request).lastWritePayloads
  told : ∀ stack, asked = some stack →
    request.type = .read ∧ request.hasExpectedPayload = true ∧
      stream.lastWritePayloads ⟨request.address, stack⟩ = some request.expectedPayload

theorem remember_track (stream : TraceTrafficStream) (request : TrafficRequest) :
    (stream.remember request).trackLastWrites = stream.trackLastWrites := by
  unfold TraceTrafficStream.remember
  split <;> rfl

theorem remember_of_ne (stream : TraceTrafficStream) (other : request.type ≠ .write) :
    stream.remember request = stream := if_neg fun write => other write.1

theorem lookupLastWritePayload_eq_ok {lastWrites : LastWriteMap} {lineno : Nat}
    {payload : ByteVector}
    (found : lookupLastWritePayload lastWrites request lineno = .ok payload) :
    lastWrites (traceAddressKey request) = some payload := by
  unfold lookupLastWritePayload at found
  split at found
  next remembered here =>
    cases found
    exact here
  next => cases found

/-- The data of a burst line leave its type, its address and its stack. -/
theorem burstData_told (data : stream.burstData start = .ok request) :
    request.type = start.type ∧ traceAddressKey request = traceAddressKey start ∧
      (start.type = .read → stream.burst.check = "last_write" →
        request.hasExpectedPayload = true ∧
          stream.lastWritePayloads (traceAddressKey request) = some request.expectedPayload) := by
  unfold TraceTrafficStream.burstData at data
  dsimp only at data
  split at data
  next write =>
    obtain ⟨payload, -, returned⟩ := bind_eq_ok.mp data
    cases returned
    exact ⟨rfl, rfl, fun read => absurd (write.symm.trans read) (by decide)⟩
  split at data
  next =>
    obtain ⟨payload, found, returned⟩ := bind_eq_ok.mp data
    cases returned
    exact ⟨rfl, rfl, fun _ _ => ⟨rfl, lookupLastWritePayload_eq_ok found⟩⟩
  next unchecked =>
    have elsewhere : ∀ {claim : Prop}, stream.burst.check = "last_write" → claim :=
      fun check => absurd check unchecked
    split at data
    next =>
      split at data
      next =>
        cases data
        exact ⟨rfl, rfl, fun _ => elsewhere⟩
      next =>
        obtain ⟨payload, -, returned⟩ := bind_eq_ok.mp data
        cases returned
        exact ⟨rfl, rfl, fun _ => elsewhere⟩
    split at data
    next =>
      obtain ⟨payload, -, returned⟩ := bind_eq_ok.mp data
      cases returned
      exact ⟨rfl, rfl, fun _ => elsewhere⟩
    next =>
      cases data
      exact ⟨rfl, rfl, fun _ => elsewhere⟩

theorem emitBurst_handed (emits : stream.emitBurst = .ok (request, next)) :
    Handed stream (askedByBurst stream.burst.type stream.burst.check stream.burst.hasExplicitStack
      stream.burst.targetStack) request next := by
  obtain ⟨filled, data, returned⟩ := bind_eq_ok.mp emits
  cases returned
  obtain ⟨type, key, told⟩ := burstData_told data
  refine ⟨remember_track _ _, rfl, fun stack asked => ?_⟩
  unfold askedByBurst at asked
  split at asked
  next reads =>
    cases asked
    obtain ⟨expects, remembered⟩ := told reads.1 reads.2
    refine ⟨type.trans reads.1, expects, ?_⟩
    have address : request.address = stream.burstRequest.address :=
      congrArg TraceAddressKey.address key
    rw [← remembered, key, address]
    rfl
  next => cases asked

/-- What a checked fold keeps, next to a plain fold over the same items. -/
theorem foldlM_related {State Shadow Item : Type} {step : State → Item → Except Exception State}
    {follow : Shadow → Item → Shadow} (related : Shadow → State → Prop)
    (keeps : ∀ shadow state item next, related shadow state → step state item = .ok next →
      related (follow shadow item) next)
    (items : List Item) {shadow : Shadow} {state final : State}
    (related_start : related shadow state)
    (returns : items.foldlM step state = .ok final) :
    related (items.foldl follow shadow) final := by
  induction items generalizing shadow state with
  | nil =>
    cases returns
    exact related_start
  | cons item rest inductionHypothesis =>
    rw [List.foldlM_cons] at returns
    obtain ⟨middle, steps, remaining⟩ := bind_eq_ok.mp returns
    exact inductionHypothesis (keeps _ _ _ _ related_start steps) remaining

theorem namedStack_of_stack {lineno stack : Nat} {before : Int} {token key value : String}
    (splits : splitOption token = some (key, value)) (named : isStackKey key = true)
    (parsed : parseStack lineno value = .ok stack) :
    namedStack lineno before token = stack := by
  unfold namedStack
  rw [splits]
  dsimp only
  rw [if_pos named, parsed]
  rfl

theorem namedStack_of_other {lineno : Nat} {before : Int} {token key value : String}
    (splits : splitOption token = some (key, value)) (other : isStackKey key = false) :
    namedStack lineno before token = before := by
  unfold namedStack
  rw [splits]
  dsimp only
  rw [if_neg (Bool.eq_false_iff.mp other)]

/-- The request has the type, the address and the named stack it should have. -/
structure Stands (type : RequestType) (address : Nat) (stack : Int) (request : TrafficRequest) :
    Prop where
  type : request.type = type
  address : request.address = address
  stack : stackNamespace request = stack

theorem applyStackToken_stands {type : RequestType} {address lineno : Nat} {stack : Int}
    {token : String} {after : TrafficRequest} (stands : Stands type address stack request)
    (applies : applyStackToken lineno request token = .ok after) :
    Stands type address (namedStack lineno stack token) after := by
  unfold applyStackToken at applies
  split at applies
  next plain =>
    cases applies
    have same : namedStack lineno stack token = stack := by
      unfold namedStack
      rw [plain]
    exact same.symm ▸ stands
  next key value splits =>
    split at applies
    next named =>
      obtain ⟨parsed, parses, returned⟩ := bind_eq_ok.mp applies
      cases returned
      rw [namedStack_of_stack splits named parses]
      exact ⟨stands.type, stands.address, rfl⟩
    next other =>
      cases applies
      rw [namedStack_of_other splits (Bool.eq_false_iff.mpr other)]
      exact stands

/-- A read whose options are being read: what it expects is what is remembered for the stack it
asked in. -/
structure Asking (lastWrites : Option LastWriteMap) (address : Nat) (state : Int × Option Int)
    (request : TrafficRequest) : Prop where
  stands : Stands .read address state.1 request
  told : ∀ stack, state.2 = some stack → request.hasExpectedPayload = true ∧
    ∃ remembered, lastWrites = some remembered ∧
      remembered ⟨address, stack⟩ = some request.expectedPayload

theorem expectedBytes_told {value : String} {lineno size : Nat}
    {lastWrites : Option LastWriteMap} {bytes : ByteVector}
    (told : expectedBytes request value lineno size lastWrites = .ok bytes)
    (last : isLastWriteValue value = true) :
    ∃ remembered, lastWrites = some remembered ∧
      remembered (traceAddressKey request) = some bytes := by
  unfold expectedBytes at told
  rw [if_pos last] at told
  split at told
  next => cases told
  next remembered => exact ⟨remembered, rfl, lookupLastWritePayload_eq_ok told⟩

theorem isStackKey_of_expect {key : String} (expects : isExpectKey key = true) :
    isStackKey key = false := by
  have cases := of_decide_eq_true expects
  simp only [List.mem_cons, List.not_mem_nil, or_false] at cases
  rcases cases with rfl | rfl | rfl | rfl <;> rfl

theorem isStackKey_of_qos {key : String} (qos : isQosKey key = true) : isStackKey key = false := by
  have cases := of_decide_eq_true qos
  simp only [List.mem_cons, List.not_mem_nil, or_false] at cases
  rcases cases with rfl | rfl <;> rfl

/-- An option that says what the read expects. -/
theorem Asking.expect {lastWrites : Option LastWriteMap} {address lineno size : Nat}
    {state : Int × Option Int} {token value : String} {bytes : ByteVector}
    (asking : Asking lastWrites address state request)
    (stated : expectation token = some value)
    (unnamed : namedStack lineno state.1 token = state.1)
    (told : expectedBytes request value lineno size lastWrites = .ok bytes) :
    Asking lastWrites address (askToken lineno state token)
      { request with expectedPayload := bytes, hasExpectedPayload := true } := by
  unfold askToken
  rw [unnamed, stated]
  obtain ⟨type, sameAddress, sameStack⟩ := asking.stands
  refine ⟨⟨type, sameAddress, sameStack⟩, fun stack asked => ⟨rfl, ?_⟩⟩
  dsimp only at asked
  split at asked
  next last =>
    obtain rfl : state.1 = stack := Option.some.inj asked
    obtain ⟨remembered, known, found⟩ := expectedBytes_told told last
    refine ⟨remembered, known, ?_⟩
    rw [← found, ← sameAddress, ← sameStack]
    rfl
  next => cases asked

/-- An option that says nothing of what the read expects. -/
theorem Asking.other {lastWrites : Option LastWriteMap} {address lineno : Nat}
    {state : Int × Option Int} {token : String} {after : TrafficRequest}
    (asking : Asking lastWrites address state request) (stated : expectation token = none)
    (stands : Stands .read address (namedStack lineno state.1 token) after)
    (flag : after.hasExpectedPayload = request.hasExpectedPayload)
    (bytes : after.expectedPayload = request.expectedPayload) :
    Asking lastWrites address (askToken lineno state token) after := by
  unfold askToken
  rw [stated]
  refine ⟨stands, fun stack asked => ?_⟩
  rw [flag, bytes]
  exact asking.told stack asked

/-- Every option of a read keeps what it expects in step with what it asked for. -/
theorem Asking.applyTraceDataToken {lastWrites : Option LastWriteMap} {address lineno size : Nat}
    {state : Int × Option Int} {token : String} {after : TrafficRequest}
    (asking : Asking lastWrites address state request)
    (applies : Frontend.applyTraceDataToken lineno size lastWrites request token = .ok after) :
    Asking lastWrites address (askToken lineno state token) after := by
  obtain ⟨type, sameAddress, sameStack⟩ := asking.stands
  have notWrite : request.type ≠ .write := by
    rw [type]
    decide
  unfold Frontend.applyTraceDataToken at applies
  split at applies
  next splits =>
    have stated : expectation token = some token := by
      unfold expectation
      rw [splits]
    have unnamed : namedStack lineno state.1 token = state.1 := by
      unfold namedStack
      rw [splits]
    rw [if_neg fun write => notWrite write.1] at applies
    split at applies
    next =>
      obtain ⟨bytes, told, returned⟩ := bind_eq_ok.mp applies
      cases returned
      exact asking.expect stated unnamed told
    next => cases applies
  next key value splits =>
    have silent : isExpectKey key = false → expectation token = none := by
      intro silent
      unfold expectation
      rw [splits]
      exact if_neg (Bool.eq_false_iff.mp silent)
    split at applies
    next =>
      obtain ⟨_, isWrite, -⟩ := bind_eq_ok.mp applies
      exact absurd notWrite (throwIf_eq_ok.mp isWrite)
    split at applies
    next expects =>
      obtain ⟨_, -, applies⟩ := bind_eq_ok.mp applies
      obtain ⟨bytes, told, returned⟩ := bind_eq_ok.mp applies
      cases returned
      have stated : expectation token = some value := by
        unfold expectation
        rw [splits]
        exact if_pos expects
      exact asking.expect stated (namedStack_of_other splits (isStackKey_of_expect expects)) told
    next quiet =>
      have stated := silent (Bool.eq_false_iff.mpr quiet)
      split at applies
      next =>
        obtain ⟨_, isWrite, -⟩ := bind_eq_ok.mp applies
        exact absurd notWrite (throwIf_eq_ok.mp isWrite)
      split at applies
      next qos =>
        obtain ⟨parsed, -, returned⟩ := bind_eq_ok.mp applies
        cases returned
        refine asking.other stated ?_ rfl rfl
        rw [namedStack_of_other splits (isStackKey_of_qos qos)]
        exact ⟨type, sameAddress, sameStack⟩
      split at applies
      next named =>
        obtain ⟨parsed, parses, returned⟩ := bind_eq_ok.mp applies
        cases returned
        refine asking.other stated ?_ rfl rfl
        rw [namedStack_of_stack splits named parses]
        exact ⟨type, sameAddress, rfl⟩
      next => cases applies

theorem remember_lastWritePayloads (stream : TraceTrafficStream) (request : TrafficRequest) :
    (stream.remember request).lastWritePayloads =
      if request.type = .write ∧ stream.trackLastWrites = true then
        Function.update stream.lastWritePayloads (traceAddressKey request) (some request.payload)
      else stream.lastWritePayloads := by
  unfold TraceTrafficStream.remember
  split <;> rfl

/-- Only the memory of the stream matters. -/
theorem Handed.of_same {other : TraceTrafficStream} {asked : Option Int}
    (handed : Handed other asked request next)
    (track : other.trackLastWrites = stream.trackLastWrites)
    (memory : other.lastWritePayloads = stream.lastWritePayloads) :
    Handed stream asked request next := by
  obtain ⟨tracks, remembered, told⟩ := handed
  refine ⟨tracks.trans track, ?_, memory ▸ told⟩
  rw [remembered, remember_lastWritePayloads, remember_lastWritePayloads, track, memory]

theorem parseBurstLine_handed {injectCycle address : Nat} {kind : String} {options : List String}
    (parses : stream.parseBurstLine injectCycle kind address options = .ok (request, next)) :
    ∃ type, parseType kind = .ok type ∧ Handed stream
      (match options.foldlM (TraceTrafficStream.applyBurstToken stream.lineno) {} with
        | .ok options =>
          askedByBurst type options.check options.hasExplicitStack options.targetStack
        | .error _ => none)
      request next := by
  unfold TraceTrafficStream.parseBurstLine at parses
  obtain ⟨options, read, parses⟩ := bind_eq_ok.mp parses
  obtain ⟨_, -, parses⟩ := bind_eq_ok.mp parses
  obtain ⟨_, -, parses⟩ := bind_eq_ok.mp parses
  obtain ⟨_, -, parses⟩ := bind_eq_ok.mp parses
  obtain ⟨type, typed, emits⟩ := bind_eq_ok.mp parses
  rw [read]
  exact ⟨type, typed, (emitBurst_handed emits).of_same rfl rfl⟩

/-- A write is finished; a read is as its options left it. -/
theorem finishWrite_of_ne (other : start.type ≠ .write)
    (finishes : stream.finishWrite start = .ok request) : request = start := by
  unfold TraceTrafficStream.finishWrite at finishes
  rw [if_neg other] at finishes
  exact (Except.ok.inj finishes).symm

theorem Stands.options {type : RequestType} {address lineno : Nat} {stack : Int}
    {options : List String} (stands : Stands type address stack start)
    (places : options.foldlM (applyStackToken lineno) start = .ok request) :
    Stands type address (options.foldl (namedStack lineno) stack) request :=
  @foldlM_related TrafficRequest Int String (applyStackToken lineno) (namedStack lineno)
    (Stands type address) (fun _ _ _ _ stands applies => applyStackToken_stands stands applies)
    options stack start request stands places

theorem Asking.options {lastWrites : Option LastWriteMap} {address lineno size : Nat}
    {state : Int × Option Int} {options : List String}
    (asking : Asking lastWrites address state start)
    (fills : options.foldlM (Frontend.applyTraceDataToken lineno size lastWrites) start =
      .ok request) :
    Asking lastWrites address (options.foldl (askToken lineno) state) request :=
  @foldlM_related TrafficRequest (Int × Option Int) String
    (Frontend.applyTraceDataToken lineno size lastWrites) (askToken lineno)
    (Asking lastWrites address) (fun _ _ _ _ asking applies => asking.applyTraceDataToken applies)
    options state start request asking fills

theorem parseRequestLine_handed {injectCycle address : Nat} {kind : String} {options : List String}
    (parses : stream.parseRequestLine injectCycle kind address options = .ok (request, next)) :
    ∃ type, parseType kind = .ok type ∧ Handed stream
      (if type = .read then askedByOptions stream.lineno options else none) request next := by
  unfold TraceTrafficStream.parseRequestLine at parses
  obtain ⟨type, typed, parses⟩ := bind_eq_ok.mp parses
  obtain ⟨stacked, places, parses⟩ := bind_eq_ok.mp parses
  obtain ⟨filled, fills, parses⟩ := bind_eq_ok.mp parses
  obtain ⟨finished, finishes, returned⟩ := bind_eq_ok.mp parses
  cases returned
  refine ⟨type, typed, remember_track _ _, rfl, fun stack asked => ?_⟩
  split at asked
  next read =>
    subst read
    have stands : Stands .read address (-1) (stream.lineRequest .read address injectCycle) :=
      ⟨rfl, rfl, rfl⟩
    have asking := Asking.options
      (⟨stands.options places, fun _ absurd => (nomatch absurd)⟩ :
        Asking (if stream.trackLastWrites then some stream.lastWritePayloads else none) address
          (options.foldl (namedStack stream.lineno) (-1), none) stacked) fills
    obtain ⟨expects, remembered, known, found⟩ := asking.told stack asked
    have plain : request = filled := finishWrite_of_ne
      (by rw [asking.stands.type]; decide) finishes
    rw [plain]
    refine ⟨asking.stands.type, expects, ?_⟩
    split at known
    next =>
      rw [Option.some.inj known, asking.stands.address]
      exact found
    next => cases known
  next => cases asked

theorem parseMaintenanceLine_handed {injectCycle : Nat} {command : String} {options : List String}
    (parses : stream.parseMaintenanceLine injectCycle command options = .ok (request, next)) :
    Handed stream none request next := by
  unfold TraceTrafficStream.parseMaintenanceLine at parses
  split at parses
  next => cases parses
  next target rest =>
    obtain ⟨command, -, parses⟩ := bind_eq_ok.mp parses
    obtain ⟨address, -, parses⟩ := bind_eq_ok.mp parses
    obtain ⟨filled, fills, returned⟩ := bind_eq_ok.mp parses
    cases returned
    have keeps : request.type = .maintenance := by
      refine foldlM_keeps (fun request : TrafficRequest => request.type = .maintenance)
        (fun before token after kept applies => ?_) rest rfl fills
      unfold TraceTrafficStream.applyMaintenanceToken at applies
      split at applies
      next => cases applies
      split at applies
      next =>
        obtain ⟨_, -, returned⟩ := bind_eq_ok.mp applies
        cases returned
        exact kept
      split at applies
      next =>
        obtain ⟨_, -, returned⟩ := bind_eq_ok.mp applies
        cases returned
        exact kept
      next => cases applies
    refine ⟨rfl, ?_, fun _ absurd => (nomatch absurd)⟩
    rw [remember_of_ne stream (by rw [keeps]; decide)]
    rfl

theorem parseTraceLine_handed {tokens : List String}
    (parses : stream.parseTraceLine tokens = .ok (request, next)) :
    Handed stream (askedByLine stream.lineno tokens) request next := by
  unfold TraceTrafficStream.parseTraceLine at parses
  split at parses
  next kind target options words =>
    unfold askedByLine
    rw [words]
    dsimp only
    obtain ⟨injectCycle, -, parses⟩ := bind_eq_ok.mp parses
    split at parses
    next maintenance =>
      rw [if_pos maintenance]
      exact parseMaintenanceLine_handed parses
    next access =>
      rw [if_neg access]
      obtain ⟨address, -, parses⟩ := bind_eq_ok.mp parses
      split at parses
      next burst =>
        obtain ⟨type, typed, handed⟩ := parseBurstLine_handed parses
        rw [typed]
        dsimp only
        rw [if_pos burst]
        exact handed
      next single =>
        obtain ⟨type, typed, handed⟩ := parseRequestLine_handed parses
        rw [typed]
        dsimp only
        rw [if_neg single]
        exact handed
  next => cases parses

theorem readLines_handed {lines : List String}
    (reads : stream.readLines lines = .ok (some request, next)) :
    Handed stream (askedByLines stream.lineno lines) request next := by
  induction lines generalizing stream with
  | nil => cases reads
  | cons line rest inductionHypothesis =>
    unfold TraceTrafficStream.readLines at reads
    unfold askedByLines
    dsimp only at reads ⊢
    split at reads
    next empty =>
      rw [if_pos empty]
      exact (inductionHypothesis reads).of_same rfl rfl
    next words =>
      rw [if_neg words]
      obtain ⟨⟨request', next'⟩, parses, returned⟩ := bind_eq_ok.mp reads
      cases returned
      exact (parseTraceLine_handed parses).of_same rfl rfl

theorem next_handed (hands : stream.next = .ok (some request, next)) :
    Handed stream stream.asked request next := by
  unfold TraceTrafficStream.next at hands
  unfold TraceTrafficStream.asked
  split at hands
  next => cases hands
  split at hands
  next active =>
    rw [if_pos active]
    obtain ⟨⟨request', next'⟩, emits, returned⟩ := bind_eq_ok.mp hands
    cases returned
    exact emitBurst_handed emits
  next idle =>
    rw [if_neg idle]
    exact readLines_handed hands

end Step

/-! ### What the writes leave -/

/-- A write of a stack. -/
def writesTo (stack : Int) (request : TrafficRequest) : Bool :=
  decide (request.type = .write ∧ stackNamespace request = stack)

/-- The memory of a stack when all the writes to it are done, in order. -/
def stored (requests : List TrafficRequest) (stack : Int) : Patch Nat UInt8 :=
  (requests.filter (writesTo stack)).foldl (fun memory write => write.patch.onto memory)
    Patch.empty

/-- The latest write of a stack that enables a byte. -/
def lastEnabling (requests : List TrafficRequest) (stack : Int) (target : Nat) :
    Option TrafficRequest :=
  ((requests.filter (writesTo stack)).filter fun write =>
    decide (write.patch target ≠ none)).getLast?

/-- The latest write of a stack that starts at an address. -/
def lastStarting (requests : List TrafficRequest) (stack : Int) (address : Nat) :
    Option TrafficRequest :=
  ((requests.filter (writesTo stack)).filter fun write =>
    decide (write.address = address)).getLast?

section Memory

variable {requests : List TrafficRequest} {stack : Int}

/-- A byte of memory is what the latest write that enables it puts there. -/
theorem stored_eq (requests : List TrafficRequest) (stack : Int) (target : Nat) :
    stored requests stack target =
      (lastEnabling requests stack target).bind fun write => write.patch target := by
  unfold stored lastEnabling
  generalize requests.filter (writesTo stack) = writes
  induction writes using List.reverseRecOn with
  | nil => rfl
  | append_singleton front write inductionHypothesis =>
    rw [List.foldl_append, List.foldl_cons, List.foldl_nil, Patch.onto_apply,
      inductionHypothesis, List.filter_append, List.getLast?_append, List.filter_singleton]
    cases enabled : write.patch target with
    | some value =>
      rw [decide_eq_true (by exact Option.some_ne_none value)]
      exact enabled.symm
    | none =>
      rw [Option.none_or, decide_eq_false (fun some => some rfl)]
      rfl

theorem lastStarting_concat (request : TrafficRequest) (address : Nat) :
    lastStarting (requests ++ [request]) stack address =
      if request.type = .write ∧ traceAddressKey request = ⟨address, stack⟩ then some request
      else lastStarting requests stack address := by
  have starts : request.type = .write ∧ traceAddressKey request = ⟨address, stack⟩ ↔
      writesTo stack request = true ∧ request.address = address := by
    unfold traceAddressKey writesTo
    rw [decide_eq_true_eq, TraceAddressKey.mk.injEq, and_comm (a := request.address = address),
      and_assoc]
  unfold lastStarting
  rw [List.filter_append, List.filter_append, List.getLast?_append, if_congr starts rfl rfl,
    List.filter_singleton]
  cases written : writesTo stack request with
  | false => exact (if_neg fun absurd => Bool.noConfusion absurd.1).symm
  | true =>
    rw [cond_true, List.filter_singleton]
    by_cases here : request.address = address
    · rw [decide_eq_true here, if_pos ⟨rfl, here⟩]
      rfl
    · rw [decide_eq_false here, if_neg fun both => here both.2]
      rfl

/-- The stream remembers the latest write of every stack at every address, if it remembers at
all. -/
structure Remembers (stream : TraceTrafficStream) (requests : List TrafficRequest) : Prop where
  tracked : stream.trackLastWrites = true → ∀ key, stream.lastWritePayloads key =
    (lastStarting requests key.explicitStack key.address).map (·.payload)
  untracked : stream.trackLastWrites = false → ∀ key, stream.lastWritePayloads key = none

variable {stream next final : TraceTrafficStream} {request : TrafficRequest} {asked : Option Int}
variable {history : List TrafficRequest}

theorem Remembers.handed (remembers : Remembers stream history)
    (handed : Handed stream asked request next) : Remembers next (history ++ [request]) := by
  constructor
  · intro tracks key
    have tracks := handed.track ▸ tracks
    rw [handed.remembered, remember_lastWritePayloads, lastStarting_concat]
    by_cases write : request.type = .write
    · rw [if_pos ⟨write, tracks⟩]
      by_cases here : traceAddressKey request = key
      · subst here
        rw [Function.update_self, if_pos ⟨write, rfl⟩]
        rfl
      · rw [Function.update_of_ne (Ne.symm here), if_neg fun both => here both.2]
        exact remembers.tracked tracks key
    · rw [if_neg fun both => write both.1, if_neg fun both => write both.1]
      exact remembers.tracked tracks key
  · intro forgets key
    have forgets := handed.track ▸ forgets
    rw [handed.remembered, remember_lastWritePayloads,
      if_neg fun both => Bool.noConfusion (forgets.symm.trans both.2)]
    exact remembers.untracked forgets key

/-- A read that asks is told the data of the latest write at its address. -/
theorem Remembers.told (remembers : Remembers stream history)
    (handed : Handed stream asked request next) (stack : Int) (asks : asked = some stack) :
    ∃ write, lastStarting history stack request.address = some write ∧
      request.expectedPayload = write.payload := by
  obtain ⟨-, -, found⟩ := handed.told stack asks
  cases tracks : stream.trackLastWrites with
  | true =>
    rw [remembers.tracked tracks] at found
    obtain ⟨write, last, same⟩ := Option.map_eq_some_iff.mp found
    exact ⟨write, last, same.symm⟩
  | false =>
    rw [remembers.untracked tracks] at found
    cases found

theorem readLines_none {lines : List String}
    (reads : stream.readLines lines = .ok (none, next)) :
    next.trackLastWrites = stream.trackLastWrites ∧
      next.lastWritePayloads = stream.lastWritePayloads := by
  induction lines generalizing stream with
  | nil =>
    cases reads
    exact ⟨rfl, rfl⟩
  | cons line rest inductionHypothesis =>
    unfold TraceTrafficStream.readLines at reads
    dsimp only at reads
    split at reads
    next =>
      have later := inductionHypothesis reads
      exact later
    next =>
      obtain ⟨_, -, returned⟩ := bind_eq_ok.mp reads
      cases returned

/-- A stream at its end keeps its memory. -/
theorem Remembers.ends (remembers : Remembers stream history)
    (hands : stream.next = .ok (none, next)) : Remembers next history := by
  have same : next.trackLastWrites = stream.trackLastWrites ∧
      next.lastWritePayloads = stream.lastWritePayloads := by
    unfold TraceTrafficStream.next at hands
    split at hands
    next =>
      cases hands
      exact ⟨rfl, rfl⟩
    split at hands
    next =>
      obtain ⟨_, -, returned⟩ := bind_eq_ok.mp hands
      cases returned
    next => exact readLines_none hands
  exact ⟨fun tracks key => same.2 ▸ remembers.tracked (same.1 ▸ tracks) key,
    fun forgets key => same.2 ▸ remembers.untracked (same.1 ▸ forgets) key⟩

/-- The stream remembers the requests it has handed on. -/
theorem Remembers.emit {count : Nat} (remembers : Remembers stream history)
    (emits : stream.emit count = .ok (requests, final)) :
    Remembers final (history ++ requests) := by
  induction count generalizing stream history requests with
  | zero =>
    cases emits
    rw [List.append_nil]
    exact remembers
  | succ count inductionHypothesis =>
    obtain ⟨⟨handed, next⟩, hands, emits⟩ := bind_eq_ok.mp emits
    cases handed with
    | none =>
      cases emits
      rw [List.append_nil]
      exact remembers.ends hands
    | some request =>
      obtain ⟨⟨more, last⟩, later, returned⟩ := bind_eq_ok.mp emits
      cases returned
      rw [List.append_cons]
      exact inductionHypothesis (remembers.handed (next_handed hands)) later

theorem Remembers.open {spec : DramSpec} {options : TrafficOptions} {lines : List String}
    (opens : TraceTrafficStream.open spec options lines = .ok stream) : Remembers stream [] := by
  obtain ⟨_, -, returned⟩ := bind_eq_ok.mp opens
  cases returned
  exact ⟨fun _ _ => rfl, fun _ _ => rfl⟩

end Memory

/-! ### What a read is told -/

/-- The bytes a read expects are what memory holds, wherever a write to its stack enabled them. -/
def Exact (before : List TrafficRequest) (read : TrafficRequest) : Prop :=
  ∀ index expected, read.expectedPayload[index]? = some expected →
    ∀ value, stored before (stackNamespace read) (read.address + index) = some value →
      expected = value

/-- Every byte of the latest write that starts at the address of the read, in the stack the read
asks in, has its value from the latest write to the stack of the read that enables it. -/
def Current (before : List TrafficRequest) (read : TrafficRequest) (asked : Int) : Prop :=
  ∀ index started enabling, lastStarting before asked read.address = some started →
    index < started.payload.length →
    lastEnabling before (stackNamespace read) (read.address + index) = some enabling →
    enabling.patch (read.address + index) = started.payload[index]?

/-- The writes to a stack enable all their bytes and meet only when they start together, and the
read asks in the stack it names. -/
structure Plain (before : List TrafficRequest) (read : TrafficRequest) (asked : Int) : Prop where
  stack : asked = stackNamespace read
  whole : ∀ write ∈ before, writesTo asked write = true → ∀ index < write.payload.length,
    write.patch (write.address + index) = write.payload[index]?
  apart : ∀ first ∈ before, ∀ second ∈ before, writesTo asked first = true →
    writesTo asked second = true → ∀ target, first.patch target ≠ none →
    second.patch target ≠ none → first.address = second.address

section Told

variable {before : List TrafficRequest} {read : TrafficRequest} {asked : Int}

theorem mem_of_lastStarting {write : TrafficRequest} {address : Nat}
    (last : lastStarting before asked address = some write) :
    write ∈ before ∧ writesTo asked write = true ∧ write.address = address := by
  obtain ⟨written, here⟩ := List.mem_filter.mp (List.mem_of_getLast? last)
  obtain ⟨member, stack⟩ := List.mem_filter.mp written
  exact ⟨member, stack, of_decide_eq_true here⟩

theorem mem_of_lastEnabling {write : TrafficRequest} {target : Nat}
    (last : lastEnabling before asked target = some write) :
    write ∈ before ∧ writesTo asked write = true ∧ write.patch target ≠ none := by
  obtain ⟨written, here⟩ := List.mem_filter.mp (List.mem_of_getLast? last)
  obtain ⟨member, stack⟩ := List.mem_filter.mp written
  exact ⟨member, stack, of_decide_eq_true here⟩

/-- A read that is told the data of the latest write at its address is told right exactly when that
write is current. -/
theorem exact_iff {started : TrafficRequest}
    (last : lastStarting before asked read.address = some started)
    (told : read.expectedPayload = started.payload) :
    Exact before read ↔ Current before read asked := by
  constructor
  · intro exact index started' enabling last' inside enables
    obtain rfl : started = started' := Option.some.inj (last.symm.trans last')
    obtain ⟨value, puts⟩ := Option.ne_none_iff_exists'.mp (mem_of_lastEnabling enables).2.2
    have holds : stored before (stackNamespace read) (read.address + index) = some value := by
      rw [stored_eq, enables]
      exact puts
    have byte := List.getElem?_eq_getElem inside
    have expects : read.expectedPayload[index]? = some started.payload[index] := by
      rw [told]
      exact byte
    rw [puts, byte, exact index _ expects value holds]
  · intro current index expected byte value holds
    rw [stored_eq] at holds
    obtain ⟨enabling, enables, puts⟩ := Option.bind_eq_some_iff.mp holds
    rw [told] at byte
    have inside := (List.getElem?_eq_some_iff.mp byte).1
    have same := current index started enabling last inside enables
    rw [puts, byte] at same
    exact (Option.some.inj same).symm

/-- Plain writes are current. -/
theorem Plain.current (plain : Plain before read asked) : Current before read asked := by
  obtain ⟨rfl, whole, apart⟩ := plain
  intro index started enabling last inside enables
  obtain ⟨member, stack, start⟩ := mem_of_lastStarting last
  obtain ⟨member', stack', enabled⟩ := mem_of_lastEnabling enables
  have covers := whole started member stack index inside
  rw [start] at covers
  have enables_started : started.patch (read.address + index) ≠ none := by
    rw [covers, List.getElem?_eq_getElem inside]
    exact Option.some_ne_none _
  have starts : ∀ write ∈ before.filter (writesTo (stackNamespace read)),
      write.patch (read.address + index) ≠ none → write.address = read.address := by
    intro write written enables
    obtain ⟨listed, written⟩ := List.mem_filter.mp written
    exact (apart write listed started member written stack _ enables enables_started).trans start
  have among : lastEnabling before (stackNamespace read) (read.address + index) =
      (((before.filter (writesTo (stackNamespace read))).filter fun write =>
        decide (write.address = read.address)).filter fun write =>
          decide (write.patch (read.address + index) ≠ none)).getLast? := by
    unfold lastEnabling
    refine congrArg List.getLast? (Eq.trans ?_ List.filter_filter.symm)
    refine List.filter_congr fun write written => ?_
    by_cases enables : write.patch (read.address + index) = none
    · rw [decide_eq_false (not_not.mpr enables)]
      rfl
    · rw [decide_eq_true enables, decide_eq_true (starts write written enables)]
      rfl
  obtain ⟨front, listed⟩ := List.getLast?_eq_some_iff.mp last
  rw [enables, listed, List.filter_append, List.filter_singleton,
    decide_eq_true enables_started] at among
  have same : enabling = started := Option.some.inj (among.trans List.getLast?_concat)
  rw [same, covers]

end Told

/-! ### The oracle -/

/-- A read of a trace that asks for the last write expects data, and they are what memory holds
exactly when the write it is told of is current; so they are if the writes before it are plain. -/
theorem told_exact_iff {spec : DramSpec} {options : TrafficOptions} {lines : List String}
    {stream reached next : TraceTrafficStream} {count : Nat} {before : List TrafficRequest}
    {request : TrafficRequest} {asked : Int}
    (opens : TraceTrafficStream.open spec options lines = .ok stream)
    (emits : stream.emit count = .ok (before, reached)) (asks : reached.asked = some asked)
    (hands : reached.next = .ok (some request, next)) :
    request.type = .read ∧ request.hasExpectedPayload = true ∧
      (Exact before request ↔ Current before request asked) ∧
      (Plain before request asked → Exact before request) := by
  have handed := next_handed hands
  obtain ⟨type, expects, -⟩ := handed.told asked asks
  obtain ⟨started, last, told⟩ := ((Remembers.open opens).emit emits).told handed asked asks
  have current := exact_iff last told
  exact ⟨type, expects, current, fun plain => current.mpr plain.current⟩

/-- The requests before the one that is handed on after a number of calls, that request, and the
stack it asks in. -/
def readTrace (spec : DramSpec) (lines : List String) (count : Nat) :
    Option (List TrafficRequest × TrafficRequest × Int) := do
  let stream ← (TraceTrafficStream.open spec {} lines).toOption
  let (before, reached) ← (stream.emit count).toOption
  let asked ← reached.asked
  let (request, _) ← reached.next.toOption
  let request ← request
  return (before, request, asked)

theorem readTrace_eq_some {spec : DramSpec} {lines : List String} {count : Nat}
    {before : List TrafficRequest} {request : TrafficRequest} {asked : Int}
    (reads : readTrace spec lines count = some (before, request, asked)) :
    ∃ stream reached next, TraceTrafficStream.open spec {} lines = .ok stream ∧
      stream.emit count = .ok (before, reached) ∧ reached.asked = some asked ∧
      reached.next = .ok (some request, next) := by
  obtain ⟨stream, opens, reads⟩ := Option.bind_eq_some_iff.mp reads
  obtain ⟨⟨before', reached⟩, emits, reads⟩ := Option.bind_eq_some_iff.mp reads
  obtain ⟨asked', asks, reads⟩ := Option.bind_eq_some_iff.mp reads
  obtain ⟨⟨request', next⟩, hands, reads⟩ := Option.bind_eq_some_iff.mp reads
  obtain ⟨request'', rfl, returned⟩ := Option.bind_eq_some_iff.mp reads
  cases returned
  exact ⟨stream, reached, next, toOption_eq_some.mp opens, toOption_eq_some.mp emits, asks,
    toOption_eq_some.mp hands⟩

/-- A write of a trace without a mask. -/
def lineWrite (id address : Nat) (payload : ByteVector) : TrafficRequest where
  id := id
  address := address
  type := .write
  decoded := decode oddSpec address
  payload := payload
  hasPayload := true

/-- A read of a trace that expects bytes. -/
def lineRead (id address : Nat) (expected : ByteVector) : TrafficRequest where
  id := id
  address := address
  decoded := decode oddSpec address
  expectedPayload := expected
  hasExpectedPayload := true

theorem told_exact_iff_alone : Exact [lineWrite 0 64 [1, 2, 3]] (lineRead 1 64 [1, 2, 3]) := by
  have reads : readTrace oddSpec ["W 0x40 data=010203", "R 0x40 expect=last_write"] 1 =
      some ([lineWrite 0 64 [1, 2, 3]], lineRead 1 64 [1, 2, 3], -1) := by
    decide +kernel
  obtain ⟨stream, reached, next, opens, emits, asks, hands⟩ := readTrace_eq_some reads
  refine (told_exact_iff opens emits asks hands).2.2.2 ⟨rfl, ?_, ?_⟩
  · intro write member _
    obtain rfl := List.mem_singleton.mp member
    decide
  · intro first member second member' _ _ _ _ _
    rw [List.mem_singleton.mp member, List.mem_singleton.mp member']

/-- The second write covers a byte of the first, and the read is told the old one. -/
theorem overlapped_write_told :
    ¬ ∀ (spec : DramSpec) (options : TrafficOptions) (lines : List String)
      (stream reached next : TraceTrafficStream) (count : Nat) (before : List TrafficRequest)
      (request : TrafficRequest) (asked : Int),
      TraceTrafficStream.open spec options lines = .ok stream →
      stream.emit count = .ok (before, reached) → reached.asked = some asked →
      reached.next = .ok (some request, next) → Exact before request := by
  have reads : readTrace oddSpec
        ["W 0x40 data=01020304", "W 0x42 data=0506", "R 0x40 expect=last_write"] 2 =
      some ([lineWrite 0 64 [1, 2, 3, 4], lineWrite 1 66 [5, 6]],
        lineRead 2 64 [1, 2, 3, 4], -1) := by
    decide +kernel
  obtain ⟨stream, reached, next, opens, emits, asks, hands⟩ := readTrace_eq_some reads
  intro always
  have exact := always _ _ _ _ _ _ _ _ _ _ opens emits asks hands
  have holds : stored [lineWrite 0 64 [1, 2, 3, 4], lineWrite 1 66 [5, 6]]
      (stackNamespace (lineRead 2 64 [1, 2, 3, 4])) ((lineRead 2 64 [1, 2, 3, 4]).address + 2) =
      some 5 := by
    decide +kernel
  exact absurd (exact 2 3 rfl 5 holds) (by decide)

end HbmSim.Frontend
