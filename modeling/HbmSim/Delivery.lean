/-
The response side of the memory system: which host requests are in flight, what
has come back of each, and the responses the frontend has not taken yet.

The callbacks are left out: they see what is queued and change nothing.
-/

import HbmSim.Routing

namespace HbmSim

/-! ### Records -/

inductive ResponseDeliveryMode
  | disabled
  | hostOnly
  | transactionOnly
  | both
  deriving DecidableEq, Repr

/-- The response to a host request, with the transactions it was split into. -/
structure HostResponse where
  hostRequestId : Nat := 0
  type : RequestType := .read
  systemAddress : Nat := 0
  transactionCount : Nat := 1
  stack : Int := -1
  channel : Int := -1
  arrivalCycle : Nat := 0
  firstIssuedCycle : Nat := 0
  completionCycle : Nat := 0
  data : ByteVector := []
  initializedMask : ByteVector := []
  transactions : List TransactionResponse := []
  initialized : Bool := true
  eccCorrected : Bool := false
  eccUncorrectable : Bool := false
  forwarded : Bool := false
  coalesced : Bool := false
  status : ResponseStatus := .ok
  deriving DecidableEq, Repr

/-- The transactions of a host request that have come back, each in its place. -/
structure HostAssembly where
  transactionCount : Nat := 1
  transactions : List (Option TransactionResponse) := []
  received : Nat := 0
  deriving DecidableEq, Repr

/-- The life of a host tag, from the first accepted transaction to the handshake. -/
structure HostSubmission where
  transactionCount : Nat := 1
  type : RequestType := .read
  accepted : List Bool := []
  completed : Nat := 0
  deriving DecidableEq, Repr

/-- A capacity of zero is no limit. -/
structure Delivery where
  mode : ResponseDeliveryMode := .disabled
  transactionResponseQueueCapacity : Nat := 0
  hostResponseQueueCapacity : Nat := 0
  transactionResponses : List TransactionResponse := []
  hostResponses : List HostResponse := []
  hostAssemblies : Nat → Option HostAssembly := fun _ => none
  hostSubmissions : Nat → Option HostSubmission := fun _ => none

namespace Delivery

/-! ### Submission -/

/-- The checks of `try_submit`. -/
def checkSubmission (delivery : Delivery) (request : Request) : Except Exception Unit := do
  throwIf (request.type = .maintenance)
    (invalidArgument ("try_submit accepts frontend Read/Write requests only; maintenance is " ++
      "controller-internal"))
  throwIf (request.transactionCount = 0 ∨ request.transactionCount ≤ request.transactionIndex)
    (invalidArgument "try_submit received invalid transaction_index/count")
  match delivery.hostSubmissions request.hostRequestId with
  | none =>
    throwIf (request.transactionIndex ≠ 0)
      (invalidArgument "the first transaction for a host_request_id must have index 0")
  | some host =>
    throwIf (host.transactionCount ≠ request.transactionCount ∨ host.type ≠ request.type ∨
        host.accepted[request.transactionIndex]? = some true)
      (invalidArgument ("host_request_id reused or transaction " ++
        "submitted more than once while in flight"))

/-- A frontend that submits is given host responses. -/
def enableHost (delivery : Delivery) : Delivery :=
  if delivery.mode = .disabled then { delivery with mode := .hostOnly } else delivery

/-- `record_submitted_transaction`. -/
def recordSubmitted (delivery : Delivery) (request : Request) : Delivery :=
  let host := (delivery.hostSubmissions request.hostRequestId).getD {
    transactionCount := request.transactionCount
    type := request.type
    accepted := List.replicate request.transactionCount false }
  { delivery with
    hostSubmissions := Function.update delivery.hostSubmissions request.hostRequestId
      (some { host with accepted := host.accepted.set request.transactionIndex true }) }

/-! ### Collection -/

def retainsHostResponses (delivery : Delivery) : Bool :=
  decide (delivery.mode = .hostOnly ∨ delivery.mode = .both)

def retainsTransactionResponses (delivery : Delivery) : Bool :=
  decide (delivery.mode = .transactionOnly ∨ delivery.mode = .both)

def transactionResponseQueueFull (delivery : Delivery) : Bool :=
  decide (delivery.transactionResponseQueueCapacity ≠ 0 ∧
    delivery.transactionResponseQueueCapacity ≤ delivery.transactionResponses.length)

def hostResponseQueueFull (delivery : Delivery) : Bool :=
  decide (delivery.hostResponseQueueCapacity ≠ 0 ∧
    delivery.hostResponseQueueCapacity ≤ delivery.hostResponses.length)

/-- A view the frontend has chosen has no room. -/
def stalled (delivery : Delivery) : Bool :=
  (delivery.retainsTransactionResponses && delivery.transactionResponseQueueFull) ||
    (delivery.retainsHostResponses && delivery.hostResponseQueueFull)

/-- `record_completed_transaction`. Without host responses the tag is free with the last
completion. -/
def recordCompleted (delivery : Delivery) (response : TransactionResponse) : Delivery :=
  match delivery.hostSubmissions response.hostRequestId with
  | none => delivery
  | some host =>
    let host := { host with completed := host.completed + 1 }
    { delivery with
      hostSubmissions := Function.update delivery.hostSubmissions response.hostRequestId
        (if host.transactionCount ≤ host.completed ∧ delivery.retainsHostResponses = false then
          none else some host) }

/-- `publish_host_response`. -/
def publish (delivery : Delivery) (host : HostResponse) : Except Exception Delivery := do
  throwIf (delivery.hostResponseQueueFull = true)
    (logicError "host response queue became full during one completion")
  return { delivery with hostResponses := delivery.hostResponses ++ [host] }

/-- The answer to a response that fits no assembly. -/
def mismatch (response : TransactionResponse) : HostResponse where
  hostRequestId := response.hostRequestId
  type := response.type
  systemAddress := response.systemAddress
  transactionCount := max 1 response.transactionCount
  transactions := [response]
  initialized := response.initialized
  eccCorrected := response.eccCorrected
  eccUncorrectable := response.eccUncorrectable
  forwarded := response.forwarded
  coalesced := response.coalesced
  status := .invalidTransaction

/-- The answer to a response that is no valid transaction. -/
def invalid (response : TransactionResponse) : HostResponse :=
  { mismatch response with
    stack := response.stack
    channel := response.channel
    arrivalCycle := response.arrivalCycle
    firstIssuedCycle := response.issuedCycle
    completionCycle := response.completionCycle }

/-- Where the parts of a host response differ, it names no one place. -/
def commonPlace (old new : Int) : Int := if old = new then old else -1

/-- One step of `build_host_response`, the first transaction apart. -/
def addTransaction (host : HostResponse) (response : TransactionResponse) : HostResponse :=
  let host :=
    if host.transactions = [] then
      { host with
        hostRequestId := response.hostRequestId
        type := response.type
        systemAddress := response.systemAddress
        stack := response.stack
        channel := response.channel }
    else
      { host with
        systemAddress := min host.systemAddress response.systemAddress
        stack := commonPlace host.stack response.stack
        channel := commonPlace host.channel response.channel
        status := if host.type ≠ response.type then .invalidTransaction else host.status }
  { host with
    arrivalCycle := min host.arrivalCycle response.arrivalCycle
    firstIssuedCycle := min host.firstIssuedCycle response.issuedCycle
    completionCycle := max host.completionCycle response.completionCycle
    initialized := host.initialized && response.initialized
    eccCorrected := host.eccCorrected || response.eccCorrected
    eccUncorrectable := host.eccUncorrectable || response.eccUncorrectable
    forwarded := host.forwarded && response.forwarded
    coalesced := host.coalesced && response.coalesced
    status := mergeResponseStatus host.status response.status
    data := if response.type = .read then host.data ++ response.data else host.data
    initializedMask :=
      if response.type = .read then host.initializedMask ++ response.initializedMask
      else host.initializedMask
    transactions := host.transactions ++ [response] }

/-- A missing transaction makes the response invalid. -/
def addItem (host : HostResponse) : Option TransactionResponse → HostResponse
  | none => { host with status := .invalidTransaction }
  | some response => addTransaction host response

/-- `build_host_response`. A cycle that was never set is zero. -/
def buildHostResponse (assembly : HostAssembly) : HostResponse :=
  let empty : HostResponse := {
    transactionCount := assembly.transactionCount
    forwarded := true
    coalesced := true
    arrivalCycle := uint64Max
    firstIssuedCycle := uint64Max }
  let host := assembly.transactions.foldl addItem empty
  { host with
    arrivalCycle := if host.arrivalCycle = uint64Max then 0 else host.arrivalCycle
    firstIssuedCycle := if host.firstIssuedCycle = uint64Max then 0 else host.firstIssuedCycle }

/-- `aggregate_response`, with what it publishes. -/
def aggregate (delivery : Delivery) (response : TransactionResponse) :
    Except Exception (List HostResponse × Delivery) :=
  let id := response.hostRequestId
  let count := max 1 response.transactionCount
  if response.status = .invalidTransaction ∨ count ≤ response.transactionIndex then do
    return ([invalid response], ← delivery.publish (invalid response))
  else
    let assembly := (delivery.hostAssemblies id).getD {
      transactionCount := count
      transactions := List.replicate count none }
    if assembly.transactionCount ≠ count ∨
        assembly.transactions.length ≤ response.transactionIndex ∨
        (assembly.transactions[response.transactionIndex]?.join).isSome then do
      let published ← delivery.publish (mismatch response)
      return ([mismatch response],
        { published with hostAssemblies := Function.update published.hostAssemblies id none })
    else
      let assembly := { assembly with
        transactions := assembly.transactions.set response.transactionIndex (some response)
        received := assembly.received + 1 }
      if assembly.received = assembly.transactionCount then do
        let host := buildHostResponse assembly
        let published ← delivery.publish host
        return ([host],
          { published with hostAssemblies := Function.update published.hostAssemblies id none })
      else
        .ok ([], { delivery with
          hostAssemblies := Function.update delivery.hostAssemblies id (some assembly) })

/-- What becomes of one response a controller hands out, with what is published. -/
def collect (delivery : Delivery) (response : TransactionResponse) :
    Except Exception (List HostResponse × Delivery) :=
  let delivery := delivery.recordCompleted response
  let delivery :=
    if delivery.retainsTransactionResponses then
      { delivery with transactionResponses := delivery.transactionResponses ++ [response] }
    else delivery
  if delivery.retainsHostResponses then delivery.aggregate response else .ok ([], delivery)

/-! ### Handshakes -/

/-- `pop_response`. The tag is free once every transaction has come back. -/
def popResponse (delivery : Delivery) : Except Exception (HostResponse × Delivery) :=
  match delivery.hostResponses with
  | [] => .error (logicError "MemorySystem host response queue is empty")
  | response :: rest =>
    .ok (response, { delivery with
      hostResponses := rest
      hostSubmissions := match delivery.hostSubmissions response.hostRequestId with
        | some host =>
          if host.transactionCount ≤ host.completed then
            Function.update delivery.hostSubmissions response.hostRequestId none
          else delivery.hostSubmissions
        | none => delivery.hostSubmissions })

/-- `pop_transaction_response`. -/
def popTransactionResponse (delivery : Delivery) :
    Except Exception (TransactionResponse × Delivery) :=
  match delivery.transactionResponses with
  | [] => .error (logicError "MemorySystem transaction response queue is empty")
  | response :: rest => .ok (response, { delivery with transactionResponses := rest })

end Delivery

end HbmSim
