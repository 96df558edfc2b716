/-
Routing in the memory system: a request is given a stack, an address local to
that stack, a channel, and the storage coordinates its line is kept under.

The coordinates are those of the local address, with the channel the channel
mapper chose. Under the decoded mapper this is the home of the line. The other
two mappers spread the load over the channels and do not keep lines apart.
-/

import HbmSim.Request
import HbmSim.StackSpace
import HbmSim.Lib.Transition

namespace HbmSim

/-! ### The system -/

/-- A request with the fields only the system layer reads. -/
structure SystemRequest extends Request where
  hasExplicitStack : Bool := false
  systemSequence : Nat := 0
  deriving DecidableEq, Repr

/-- The system address a request carries, else its address. -/
def SystemRequest.original (request : SystemRequest) : Nat :=
  if request.hasSystemAddress then request.systemAddress else request.address

/-- The stack and local address of a read or write bound for a stack. -/
def routedAddress (mapper : StackAddressMapper) (request : SystemRequest) (stack : Int) :
    Except Exception StackAddress :=
  if request.hasExplicitStack then .ok { stack, localAddress := request.address }
  else mapper.decode request.original

/-- The system address a read or write bound for a stack keeps. -/
def originalAddress (mapper : StackAddressMapper) (request : SystemRequest) (stack : Int) :
    Except Exception Nat :=
  if request.hasExplicitStack then mapper.encode stack request.address else .ok request.original

/-- The part of the system that routes. The round-robin cursors and the ingress queues are per
stack. -/
structure MemorySystem where
  spec : DramSpec
  options : MemorySystemOptions
  stackIngressQueues : Nat → List SystemRequest := fun _ => []
  nextRoundRobinChannel : Nat → Nat := fun _ => 0
  nextSystemSequence : Nat := 0

namespace MemorySystem

def create (spec : DramSpec) (options : MemorySystemOptions) : Except Exception MemorySystem := do
  checkMemorySystem spec options
  return { spec, options }

def channels (spec : DramSpec) : Nat := max 1 spec.org.channels

/-- `target_stack`: the stack the request names, or the one its address lies in. -/
def targetStack (system : MemorySystem) (request : SystemRequest) : Except Exception Int :=
  if 0 ≤ request.targetStack then do
    throwIf (system.options.stackCount ≤ request.targetStack)
      (outOfRange "request target_stack out of range")
    return request.targetStack
  else do
    let mapper ← stackMapper system.spec system.options
    return (← mapper.decode request.original).stack

/-- The channel the hash of the XOR mapper gives an address. -/
def xorChannel (spec : DramSpec) (address : Nat) : Nat :=
  let line := address / max 1 spec.transactionBytes
  (line ^^^ (line >>> 6) ^^^ (line >>> 12)) % channels spec

/-- `target_channel`, with the cursor it moves. -/
def targetChannel (system : MemorySystem) (request : SystemRequest) :
    Except Exception (Nat × MemorySystem) := do
  throwIf ((request.type = .maintenance ∨ system.options.channelMapper = .decoded) ∧
      channels system.spec ≤ request.decoded.channel)
    (outOfRange "request decoded channel is outside the DRAM organization")
  if channels system.spec ≤ 1 then return (0, system)
  else if request.type = .maintenance then return (request.decoded.channel, system)
  else match system.options.channelMapper with
    | .decoded => return (request.decoded.channel, system)
    | .roundRobin =>
      let stack := (max 0 request.targetStack).toNat
      let cursor := system.nextRoundRobinChannel stack
      return (cursor % channels system.spec,
        { system with
          nextRoundRobinChannel :=
            Function.update system.nextRoundRobinChannel stack ((cursor + 1) % 2 ^ 64) })
    | .xor => return (xorChannel system.spec request.address, system)

/-- The stack part of `localize_request`: a read or write gets its local address. -/
def localizeAddress (system : MemorySystem) (request : SystemRequest) (stack : Int) :
    Except Exception SystemRequest :=
  if request.type = .maintenance then .ok request
  else do
    let mapper ← stackMapper system.spec system.options
    let routed ← routedAddress mapper request stack
    throwIf (routed.stack ≠ stack) (logicError "stack routing changed during enqueue")
    let systemAddress ← originalAddress mapper request stack
    return { request with
      systemAddress
      hasSystemAddress := true
      address := routed.localAddress
      decoded := if 1 < system.options.stackCount then decode system.spec routed.localAddress
        else request.decoded }

/-- `localize_request`. A negative channel leaves the coordinates alone; else they are stored
with that channel, and the controller sees channel zero. -/
def localizeRequest (system : MemorySystem) (request : SystemRequest) (stack channel : Int) :
    Except Exception SystemRequest := do
  let request ← system.localizeAddress request stack
  let routed : SystemRequest := { request with targetStack := stack, targetChannel := channel }
  if 0 ≤ channel then
    return { routed with
      storageDecoded := { routed.decoded with channel := channel.toNat }
      hasStorageDecoded := true
      decoded := { routed.decoded with channel := 0 } }
  else return routed

/-- `enqueue`. The answer is the routed request, and nothing when the ingress is full. -/
def enqueue (system : MemorySystem) (request : SystemRequest) :
    Except Exception (Option SystemRequest × MemorySystem) := do
  throwIf (request.qosClass < 0 ∨ request.targetStack < -1 ∨ request.targetChannel < -1)
    (invalidArgument "request qos/stack/channel selectors must be non-negative or unset")
  throwIf (request.hasExplicitStack = true ∧ request.targetStack < 0)
    (invalidArgument "request marked with explicit stack is missing target_stack")
  let stack ← system.targetStack request
  let ingress := system.stackIngressQueues stack.toNat
  if system.options.stackIngressBufferSize ≤ ingress.length then return (none, system)
  else do
    let routed ← system.localizeRequest request stack (-1)
    let (channel, moved) ← system.targetChannel routed
    let routed ← moved.localizeRequest request stack channel
    let routed := { routed with systemSequence := moved.nextSystemSequence }
    return (some routed, { moved with
      nextSystemSequence := moved.nextSystemSequence + 1
      stackIngressQueues :=
        Function.update system.stackIngressQueues stack.toNat (ingress ++ [routed]) })

/-! ### Runs -/

end MemorySystem

/-- What can happen to the ingress: a request comes in, or the dispatcher has taken some out. -/
inductive SystemOp
  | enqueue (request : SystemRequest)
  | dispatch (remaining : Nat → List SystemRequest)

namespace MemorySystem

/-- A request that is rejected leaves the system as it was. -/
def apply (system : MemorySystem) :
    SystemOp → Except Exception (List SystemRequest × MemorySystem)
  | .enqueue request => match system.enqueue request with
    | .ok (routed, after) => .ok (routed.toList, after)
    | .error _ => .ok ([], system)
  | .dispatch remaining => .ok ([], { system with stackIngressQueues := remaining })

/-- The requests a run routes, in order. -/
def run (system : MemorySystem) (ops : List SystemOp) :
    Except Exception (List SystemRequest × MemorySystem) :=
  Transition.run apply system ops

/-! ### The home of a line -/

/-- The address a frontend decodes is the one the request names; addresses are 64-bit words. -/
structure Sent (spec : DramSpec) (request : SystemRequest) : Prop where
  decoded : request.decoded =
    decode spec (if request.hasExplicitStack then request.address else request.original)
  address : request.address ≤ uint64Max
  systemAddress : request.systemAddress ≤ uint64Max

/-- The coordinates of a line under a mapper that keeps to its address. -/
def home (spec : DramSpec) (channelMapper : ChannelMapperKind) (address : Nat) : DecodedAddress :=
  match channelMapper with
  | .xor => { decode spec address with channel := xorChannel spec address }
  | _ => decode spec address

theorem home_congr {spec : DramSpec} (channelMapper : ChannelMapperKind) {left right : Nat}
    (same : left / spec.transactionBytes = right / spec.transactionBytes) :
    home spec channelMapper left = home spec channelMapper right := by
  have hashed : xorChannel spec left = xorChannel spec right := by
    unfold xorChannel
    rw [Nat.max_eq_right (transactionBytes_pos spec), same]
  unfold home
  rw [decode_congr spec same, hashed]

/-- With one channel the hash has no choice. -/
theorem home_eq_decode {spec : DramSpec} {channelMapper : ChannelMapperKind}
    (positive : spec.org.Positive) (decodes : channelMapper = .decoded ∨ spec.org.channels = 1)
    (address : Nat) : home spec channelMapper address = decode spec address := by
  rcases decodes with rfl | single
  · rfl
  have zero : (decode spec address).channel = 0 :=
    Nat.lt_one_iff.mp (single ▸ (decode_inBounds positive address).channel)
  have hashed : xorChannel spec address = 0 := by
    unfold xorChannel channels
    rw [single]
    exact Nat.mod_one _
  unfold home
  split
  · rw [hashed, ← zero]
  · rfl

/-- What routing makes of the address of a read or write. -/
structure Housed (spec : DramSpec) (options : MemorySystemOptions) (routed : SystemRequest) :
    Prop where
  inside : routed.address < spec.capacityOf
  upToChannel : ∃ channel, routed.storageDecoded = { decode spec routed.address with channel }
  home : options.channelMapper ≠ .roundRobin ∨ spec.org.channels = 1 →
    routed.storageDecoded = home spec options.channelMapper routed.address

variable {spec : DramSpec} {options : MemorySystemOptions} {system after : MemorySystem}
variable {request routed localized : SystemRequest} {stack channel : Int}

theorem localizeAddress_spec (accepted : checkMemorySystem system.spec system.options = .ok ())
    (sent : Sent system.spec request) (ordinary : request.type ≠ .maintenance)
    (returns : system.localizeAddress request stack = .ok localized) :
    localized.type = request.type ∧ localized.address < system.spec.capacityOf ∧
      localized.decoded = decode system.spec localized.address := by
  obtain ⟨mapper, built⟩ := checkMemorySystem_mapper accepted
  unfold localizeAddress at returns
  rw [if_neg ordinary] at returns
  obtain ⟨_, made, rest⟩ := bind_eq_ok.mp returns
  obtain rfl := Except.ok.inj (built.made.symm.trans made)
  obtain ⟨place, routes, rest⟩ := bind_eq_ok.mp rest
  obtain ⟨_, agrees, rest⟩ := bind_eq_ok.mp rest
  obtain ⟨_, keeps, value⟩ := bind_eq_ok.mp rest
  cases value
  have limited : mapper.stackCapacityBytes ≠ 0 := built.capacity ▸ built.capacity_pos.ne'
  have small : request.original ≤ uint64Max := by
    unfold SystemRequest.original
    split
    · exact sent.systemAddress
    · exact sent.address
  unfold routedAddress at routes
  unfold originalAddress at keeps
  have named := sent.decoded
  by_cases explicit : request.hasExplicitStack = true
  · rw [if_pos explicit] at routes keeps named
    cases routes
    obtain ⟨-, holds, -⟩ := (StackAddressMapper.encode_eq_ok sent.address).mp keeps
    refine ⟨rfl, built.capacity ▸ holds.localAddress limited, ?_⟩
    dsimp only
    split
    · rfl
    · exact named
  · rw [if_neg explicit] at routes keeps named
    obtain ⟨holds, rfl⟩ := (StackAddressMapper.decode_eq_ok small).mp routes
    refine ⟨rfl, built.capacity ▸ holds.localAddress limited, ?_⟩
    dsimp only
    split
    · rfl
    next single =>
      have one : mapper.stackCount = 1 := by
        have := mapper.stackCount_pos
        have := built.stackCount
        omega
      have whole : (mapper.split request.original).2 = request.original := by
        unfold StackAddressMapper.split
        rw [if_pos one]
      rw [whole]
      exact named

/-- Choosing the channel moves at most a cursor. -/
theorem targetChannel_spec {chosen : Nat} {moved : MemorySystem}
    (returns : system.targetChannel request = .ok (chosen, moved)) :
    moved.spec = system.spec ∧ moved.options = system.options ∧
      (channels system.spec ≤ 1 → chosen = 0) ∧
      (¬ channels system.spec ≤ 1 → request.type ≠ .maintenance →
        (system.options.channelMapper = .decoded → chosen = request.decoded.channel) ∧
        (system.options.channelMapper = .xor →
          chosen = xorChannel system.spec request.address)) := by
  obtain ⟨_, -, rest⟩ := bind_eq_ok.mp returns
  by_cases single : channels system.spec ≤ 1
  · rw [if_pos single] at rest
    cases rest
    exact ⟨rfl, rfl, fun _ => rfl, fun several => absurd single several⟩
  rw [if_neg single] at rest
  by_cases maintenance : request.type = .maintenance
  · rw [if_pos maintenance] at rest
    cases rest
    exact ⟨rfl, rfl, fun one => absurd one single, fun _ ordinary => absurd maintenance ordinary⟩
  rw [if_neg maintenance] at rest
  cases kind : system.options.channelMapper with
  | decoded =>
    rw [kind] at rest
    cases rest
    exact ⟨rfl, rfl, fun one => absurd one single, fun _ _ => ⟨fun _ => rfl, nofun⟩⟩
  | roundRobin =>
    rw [kind] at rest
    cases rest
    exact ⟨rfl, rfl, fun one => absurd one single, fun _ _ => ⟨nofun, nofun⟩⟩
  | xor =>
    rw [kind] at rest
    cases rest
    exact ⟨rfl, rfl, fun one => absurd one single, fun _ _ => ⟨nofun, fun _ => rfl⟩⟩

/-- The coordinates a localized request stores its line under. -/
theorem localizeRequest_spec (returns : system.localizeRequest request stack channel = .ok routed) :
    ∃ localized, system.localizeAddress request stack = .ok localized ∧
      routed.type = localized.type ∧ routed.address = localized.address ∧
      (0 ≤ channel →
        routed.storageDecoded = { localized.decoded with channel := channel.toNat }) ∧
      (channel < 0 → routed.decoded = localized.decoded) := by
  obtain ⟨localized, localizes, value⟩ := bind_eq_ok.mp returns
  refine ⟨localized, localizes, ?_⟩
  by_cases chosen : 0 ≤ channel
  · rw [if_pos chosen] at value
    cases value
    exact ⟨rfl, rfl, fun _ => rfl, fun unset => absurd chosen (Int.not_le.mpr unset)⟩
  · rw [if_neg chosen] at value
    cases value
    exact ⟨rfl, rfl, fun set => absurd set chosen, fun _ => rfl⟩

/-- Every read or write that is routed is housed. -/
theorem enqueue_spec (accepted : checkMemorySystem system.spec system.options = .ok ())
    (sent : Sent system.spec request)
    (returns : system.enqueue request = .ok (some routed, after)) :
    after.spec = system.spec ∧ after.options = system.options ∧
      (routed.type ≠ .maintenance → Housed system.spec system.options routed) := by
  obtain ⟨_, -, rest⟩ := bind_eq_ok.mp returns
  obtain ⟨_, -, rest⟩ := bind_eq_ok.mp rest
  obtain ⟨stack, -, rest⟩ := bind_eq_ok.mp rest
  dsimp only at rest
  split at rest
  · cases rest
  obtain ⟨first, localizes, rest⟩ := bind_eq_ok.mp rest
  obtain ⟨⟨chosen, moved⟩, chooses, rest⟩ := bind_eq_ok.mp rest
  obtain ⟨final, again, value⟩ := bind_eq_ok.mp rest
  cases value
  obtain ⟨sameSpec, sameOptions, single, several⟩ := targetChannel_spec chooses
  obtain ⟨localized, located, firstType, firstAddress, -, firstDecoded⟩ :=
    localizeRequest_spec localizes
  obtain ⟨relocated, locatedAgain, finalType, finalAddress, stored, -⟩ :=
    localizeRequest_spec again
  have same : moved.localizeAddress request stack = system.localizeAddress request stack := by
    unfold localizeAddress
    rw [sameSpec, sameOptions]
  rw [same, located] at locatedAgain
  cases locatedAgain
  refine ⟨sameSpec, sameOptions, fun ordinary => ?_⟩
  have requested : request.type ≠ .maintenance := by
    intro maintenance
    unfold localizeAddress at located
    rw [if_pos maintenance] at located
    cases located
    exact ordinary (finalType.trans maintenance)
  obtain ⟨kept, inside, decoded⟩ := localizeAddress_spec accepted sent requested located
  have stored : final.storageDecoded =
      { decode system.spec final.address with channel := chosen } := by
    rw [stored (Int.natCast_nonneg chosen), decoded, Int.toNat_natCast, finalAddress]
  refine ⟨finalAddress ▸ inside, ⟨chosen, stored⟩, fun steady => stored.trans ?_⟩
  have positive := validateSpec_positive (checkMemorySystem_mapper accepted).choose_spec.valid
  have bounds := decode_inBounds positive final.address
  by_cases one : channels system.spec ≤ 1
  · have only : system.spec.org.channels = 1 := by
      have := positive.channels
      unfold channels at one
      omega
    have zero : (decode system.spec final.address).channel = 0 :=
      Nat.lt_one_iff.mp (only ▸ bounds.channel)
    rw [home_eq_decode positive (.inr only), single one, ← zero]
  · have ordinaryFirst : first.type ≠ .maintenance := by
      rw [firstType, kept]
      exact requested
    obtain ⟨decodes, hashes⟩ := several one ordinaryFirst
    unfold home
    cases kind : system.options.channelMapper with
    | decoded =>
      rw [decodes kind, firstDecoded (by decide), decoded, ← finalAddress]
    | roundRobin =>
      have positiveChannels := positive.channels
      unfold channels at one
      rcases steady with other | only
      · exact absurd kind other
      · omega
    | xor =>
      rw [hashes kind, firstAddress, ← finalAddress]

/-- A request the ingress has no place for leaves the system as it was. -/
theorem enqueue_refused (returns : system.enqueue request = .ok (none, after)) :
    after = system := by
  obtain ⟨_, -, rest⟩ := bind_eq_ok.mp returns
  obtain ⟨_, -, rest⟩ := bind_eq_ok.mp rest
  obtain ⟨stack, -, rest⟩ := bind_eq_ok.mp rest
  dsimp only at rest
  split at rest
  · cases rest
    rfl
  · obtain ⟨_, -, rest⟩ := bind_eq_ok.mp rest
    obtain ⟨_, -, rest⟩ := bind_eq_ok.mp rest
    obtain ⟨_, -, value⟩ := bind_eq_ok.mp rest
    cases value

/-- Choosing the channel writes the cursor only. -/
theorem targetChannel_eq {chosen : Nat} {moved : MemorySystem}
    (returns : system.targetChannel request = .ok (chosen, moved)) :
    moved = { system with nextRoundRobinChannel := moved.nextRoundRobinChannel } := by
  obtain ⟨_, -, rest⟩ := bind_eq_ok.mp returns
  by_cases single : channels system.spec ≤ 1
  · rw [if_pos single] at rest
    cases rest
    rfl
  rw [if_neg single] at rest
  by_cases maintenance : request.type = .maintenance
  · rw [if_pos maintenance] at rest
    cases rest
    rfl
  rw [if_neg maintenance] at rest
  split at rest <;> cases rest <;> rfl

/-- Localizing a request writes its address and its place. -/
theorem localizeRequest_eq (returns : system.localizeRequest request stack channel = .ok routed) :
    routed.targetStack = stack ∧ routed = { request with
      systemAddress := routed.systemAddress
      hasSystemAddress := routed.hasSystemAddress
      address := routed.address
      decoded := routed.decoded
      targetStack := routed.targetStack
      targetChannel := routed.targetChannel
      storageDecoded := routed.storageDecoded
      hasStorageDecoded := routed.hasStorageDecoded } := by
  obtain ⟨localized, localizes, value⟩ := bind_eq_ok.mp returns
  have located : localized = { request with
      systemAddress := localized.systemAddress
      hasSystemAddress := localized.hasSystemAddress
      address := localized.address
      decoded := localized.decoded } := by
    unfold localizeAddress at localizes
    split at localizes
    · cases localizes
      rfl
    · obtain ⟨_, -, rest⟩ := bind_eq_ok.mp localizes
      obtain ⟨_, -, rest⟩ := bind_eq_ok.mp rest
      obtain ⟨_, -, rest⟩ := bind_eq_ok.mp rest
      obtain ⟨_, -, rest⟩ := bind_eq_ok.mp rest
      cases rest
      rfl
  by_cases chosen : 0 ≤ channel
  · rw [if_pos chosen] at value
    cases value
    refine ⟨rfl, ?_⟩
    rw [located]
  · rw [if_neg chosen] at value
    cases value
    refine ⟨rfl, ?_⟩
    rw [located]

/-- An accepted request is given the next sequence and waits at the end of the queue of its
stack. -/
theorem enqueue_accepts (returns : system.enqueue request = .ok (some routed, after)) :
    routed = { request with
      systemAddress := routed.systemAddress
      hasSystemAddress := routed.hasSystemAddress
      address := routed.address
      decoded := routed.decoded
      targetStack := routed.targetStack
      targetChannel := routed.targetChannel
      storageDecoded := routed.storageDecoded
      hasStorageDecoded := routed.hasStorageDecoded
      systemSequence := system.nextSystemSequence } ∧
    after = { system with
      nextRoundRobinChannel := after.nextRoundRobinChannel
      nextSystemSequence := system.nextSystemSequence + 1
      stackIngressQueues := Function.update system.stackIngressQueues routed.targetStack.toNat
        (system.stackIngressQueues routed.targetStack.toNat ++ [routed]) } := by
  obtain ⟨_, -, rest⟩ := bind_eq_ok.mp returns
  obtain ⟨_, -, rest⟩ := bind_eq_ok.mp rest
  obtain ⟨stack, -, rest⟩ := bind_eq_ok.mp rest
  dsimp only at rest
  split at rest
  · cases rest
  obtain ⟨first, -, rest⟩ := bind_eq_ok.mp rest
  obtain ⟨⟨chosen, moved⟩, chooses, rest⟩ := bind_eq_ok.mp rest
  obtain ⟨final, again, value⟩ := bind_eq_ok.mp rest
  cases value
  obtain ⟨bound, frame⟩ := localizeRequest_eq again
  have cursor := targetChannel_eq chooses
  have sequence : moved.nextSystemSequence = system.nextSystemSequence := by rw [cursor]
  refine ⟨?_, ?_⟩
  · rw [sequence, frame]
  · rw [bound, cursor]

/-- What a run has routed is housed. -/
theorem run_housed (accepted : checkMemorySystem spec options = .ok ()) {ops : List SystemOp}
    {log : List SystemRequest} (sent : ∀ request, .enqueue request ∈ ops → Sent spec request)
    (returns : run { spec, options } ops = .ok (log, after)) :
    ∀ routed ∈ log, routed.type ≠ .maintenance → Housed spec options routed := by
  have keeps : ∀ history system op events next,
      ((system.spec = spec ∧ system.options = options) ∧
        ∀ routed ∈ history, routed.type ≠ .maintenance → Housed spec options routed) →
      (∀ request, op = .enqueue request → Sent spec request) →
      apply system op = .ok (events, next) →
      ((next.spec = spec ∧ next.options = options) ∧
        ∀ routed ∈ history ++ events, routed.type ≠ .maintenance →
          Housed spec options routed) := by
    rintro history system op events next ⟨⟨rfl, rfl⟩, housed⟩ guard steps
    cases op with
    | dispatch remaining =>
      cases steps
      rw [List.append_nil]
      exact ⟨⟨rfl, rfl⟩, housed⟩
    | enqueue request =>
      dsimp only [apply] at steps
      split at steps
      next routed after enqueues =>
        cases steps
        cases routed with
        | none =>
          obtain rfl := enqueue_refused enqueues
          rw [Option.toList_none, List.append_nil]
          exact ⟨⟨rfl, rfl⟩, housed⟩
        | some routed =>
          obtain ⟨sameSpec, sameOptions, house⟩ :=
            enqueue_spec accepted (guard request rfl) enqueues
          refine ⟨⟨sameSpec, sameOptions⟩, fun other member => ?_⟩
          rcases List.mem_append.mp member with old | new
          · exact housed other old
          · obtain rfl := List.mem_singleton.mp new
            exact house
      next =>
        cases steps
        rw [List.append_nil]
        exact ⟨⟨rfl, rfl⟩, housed⟩
  have meets : Transition.Meets apply
      (fun _ op => ∀ request, op = .enqueue request → Sent spec request)
      ({ spec, options } : MemorySystem) ops :=
    Transition.Meets.of_forall fun _ member _ request same => sent request (same ▸ member)
  exact (Transition.run_invariant keeps
    ⟨⟨rfl, rfl⟩, fun _ member => absurd member List.not_mem_nil⟩ meets returns).2

/-- The storage coordinates of the reads and writes a run has routed. The coordinates of a line
agree up to the channel. Unless the channel is taken in turn they are the same at every time,
and where the channel is the decoded one, two lines never share them. -/
theorem storage_homes (accepted : checkMemorySystem spec options = .ok ()) {ops : List SystemOp}
    {log : List SystemRequest} (sent : ∀ request, .enqueue request ∈ ops → Sent spec request)
    (returns : run { spec, options } ops = .ok (log, after)) :
    ∀ first ∈ log, ∀ second ∈ log, first.type ≠ .maintenance → second.type ≠ .maintenance →
      (first.address / spec.transactionBytes = second.address / spec.transactionBytes →
        { first.storageDecoded with channel := second.storageDecoded.channel } =
          second.storageDecoded) ∧
      (options.channelMapper ≠ .roundRobin ∨ spec.org.channels = 1 →
        first.address / spec.transactionBytes = second.address / spec.transactionBytes →
        first.storageDecoded = second.storageDecoded) ∧
      (options.channelMapper = .decoded ∨ spec.org.channels = 1 → spec.Separating →
        first.storageDecoded = second.storageDecoded →
        first.address / spec.transactionBytes = second.address / spec.transactionBytes) := by
  intro first firstMember second secondMember firstOrdinary secondOrdinary
  have firstHoused := run_housed accepted sent returns first firstMember firstOrdinary
  have secondHoused := run_housed accepted sent returns second secondMember secondOrdinary
  obtain ⟨mapper, built⟩ := checkMemorySystem_mapper accepted
  have positive := validateSpec_positive built.valid
  refine ⟨fun same => ?_, fun steady same => ?_, fun decodes separating same => ?_⟩
  · obtain ⟨_, firstStored⟩ := firstHoused.upToChannel
    obtain ⟨_, secondStored⟩ := secondHoused.upToChannel
    rw [firstStored, secondStored, decode_congr spec same]
  · rw [firstHoused.home steady, secondHoused.home steady]
    exact home_congr options.channelMapper same
  · have steady : options.channelMapper ≠ .roundRobin ∨ spec.org.channels = 1 :=
      decodes.imp_left fun kind => by rw [kind]; decide
    rw [firstHoused.home steady, secondHoused.home steady,
      home_eq_decode positive decodes, home_eq_decode positive decodes] at same
    exact decode_injective positive separating firstHoused.inside secondHoused.inside same

/-- A read of a line of the odd device, as a frontend sends it. -/
def oddRead (line : Nat) : SystemRequest where
  address := line * 64
  decoded := decode oddSpec (line * 64)

theorem oddRead_sent {line : Nat} (small : line * 64 ≤ uint64Max) : Sent oddSpec (oddRead line) :=
  ⟨rfl, small, Nat.zero_le _⟩

theorem storage_homes_odd :
    ∃ first second after, run { spec := oddSpec, options := {} }
        [.enqueue (oddRead 67), .dispatch fun _ => [], .enqueue (oddRead 68)] =
          .ok ([first, second], after) ∧
      first.storageDecoded ≠ second.storageDecoded := by
  refine ⟨_, _, _, rfl, fun same => ?_⟩
  have lines := (@storage_homes oddSpec {} _ rfl _ _ (fun request member => ?_)
    (show run { spec := oddSpec, options := {} }
      [.enqueue (oddRead 67), .dispatch fun _ => [], .enqueue (oddRead 68)] = _ from rfl)
    _ List.mem_cons_self _ (List.mem_cons_of_mem _ List.mem_cons_self) (by decide)
    (by decide)).2.2 (.inl rfl) (fun family => nomatch family) same
  · exact absurd lines (by decide)
  · simp only [List.mem_cons, SystemOp.enqueue.injEq, reduceCtorEq, List.not_mem_nil, or_false,
      false_or] at member
    rcases member with rfl | rfl <;> exact oddRead_sent (by decide)

/-- The organization of an HBM4 stack of eight layers. -/
def hbm4Stack : DramSpec where
  org := {
    channels := 32, pseudoChannels := 2, sids := 2, bankGroups := 2, banksPerGroup := 8
    rows := 16384, columns := 32, lineSize := 64, dramTransactionBytes := 32 }
  speedBinMbps := 8000
  dataRateMbps := 8000
  dataBusBits := 2048
  stackHeight := 8
  tickMultiplier := 2

/-- A read of the HBM4 stack, as a frontend sends it. -/
def hbm4Read (address : Nat) : SystemRequest where
  address
  decoded := decode hbm4Stack address

/-- Hashed, the lines at 0 and 65536 of the HBM4 stack are given one place: they differ in the bit
of the channel that the hash leaves out. In turn, one line is given two channels. -/
theorem storage_homes_spread :
    (∃ first second after, run { spec := hbm4Stack, options := { channelMapper := .xor } }
        [.enqueue (hbm4Read 0), .enqueue (hbm4Read 65536)] = .ok ([first, second], after) ∧
      checkMemorySystem hbm4Stack { channelMapper := .xor } = .ok () ∧
      first.address / hbm4Stack.transactionBytes ≠ second.address / hbm4Stack.transactionBytes ∧
      first.storageDecoded = second.storageDecoded) ∧
    (∃ first second after, run { spec := oddSpec, options := { channelMapper := .roundRobin } }
        [.enqueue (oddRead 67), .enqueue (oddRead 67)] = .ok ([first, second], after) ∧
      first.address = second.address ∧ first.storageDecoded ≠ second.storageDecoded) :=
  ⟨⟨_, _, _, rfl, rfl, by decide, rfl⟩, ⟨_, _, _, rfl, rfl, by decide⟩⟩

end MemorySystem

end HbmSim
