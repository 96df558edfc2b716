/-
The memory system as it runs. A tick hands requests from the ingress of each
stack to the controllers of its channels, ticks every controller and collects
their responses for the frontend.

The controllers of a stack share its memory image. The statistics and the merged
command trace are left out, and so is a change of the delivery mode by hand, for
which the system must be quiescent.
-/

import HbmSim.Delivery
import HbmSim.ControllerRun

namespace HbmSim

/-! ### State -/

inductive StackQosPolicy
  | fcfs
  | strictPriority
  deriving DecidableEq, Repr

/-- The options of the system beside those of its routing. -/
structure ServiceOptions where
  controller : ControllerOptions := {}
  stackQosPolicy : StackQosPolicy := .strictPriority
  transactionResponseQueueCapacity : Nat := 0
  hostResponseQueueCapacity : Nat := 0
  responseDeliveryMode : ResponseDeliveryMode := .disabled

/-- The system with its controllers, the channels of one stack after those of another. -/
structure RunningSystem (β : Type) extends MemorySystem where
  service : ServiceOptions
  memoryImages : Nat → MemoryImage β
  controllers : List (Controller β)
  delivery : Delivery
  clk : Nat := 0

/-- `make_channel_spec`: a controller sees one channel. -/
def channelSpec (spec : DramSpec) : DramSpec :=
  { spec with
    org := { spec.org with channels := 1 }
    densityReferenceChannels :=
      if 0 < spec.densityReferenceChannels then spec.densityReferenceChannels
      else spec.org.channels }

/-- The options of a controller. The system always takes the responses itself. -/
def channelOptions (options : ControllerOptions) (channel : Nat) : ControllerOptions :=
  { options with globalChannelId := channel, retainResponses := true }

namespace RunningSystem

variable {β : Type} [MemoryBackend β]

/-- The constructor, around the images it is given. -/
def create (spec : DramSpec) (options : MemorySystemOptions) (service : ServiceOptions)
    (memoryImages : Nat → MemoryImage β) : Except Exception (RunningSystem β) := do
  let system ← MemorySystem.create spec options
  let channels := MemorySystem.channels spec
  let controllers ← (List.range (options.stackCount.toNat * channels)).mapM fun index =>
    Controller.create (channelSpec spec) (channelOptions service.controller (index % channels))
      (memoryImages (index / channels))
  return { system with
    service, memoryImages, controllers
    delivery := {
      mode := service.responseDeliveryMode
      transactionResponseQueueCapacity := service.transactionResponseQueueCapacity
      hostResponseQueueCapacity := service.hostResponseQueueCapacity } }

/-- The controller at an index, with the image of its stack. -/
def controllerAt (system : RunningSystem β) (index : Nat) : Option (Controller β) :=
  (system.controllers[index]?).map fun c =>
    { c with memoryImage := system.memoryImages (index / MemorySystem.channels system.spec) }

/-- A controller has run, and its image with it. -/
def settle (system : RunningSystem β) (index : Nat) (after : Controller β) : RunningSystem β :=
  { system with
    controllers := system.controllers.set index after
    memoryImages := Function.update system.memoryImages
      (index / MemorySystem.channels system.spec) after.memoryImage }

/-! ### Dispatch -/

/-- The order of the arbiter: a higher class goes first, and within a class the older request. -/
def outranked (request other : SystemRequest) : Bool :=
  if request.qosClass ≠ other.qosClass then decide (request.qosClass < other.qosClass)
  else decide (other.systemSequence < request.systemSequence)

/-- `max_element`: the index of the first request that none outranks. -/
def maxElement : List SystemRequest → Nat
  | [] => 0
  | request :: rest => if rest.any (outranked request) then maxElement rest + 1 else 0

/-- The request of an ingress queue that is handed out next. -/
def selected (policy : StackQosPolicy) (queue : List SystemRequest) : Nat :=
  match policy with
  | .fcfs => 0
  | .strictPriority => maxElement queue

def controllerIndex (system : RunningSystem β) (stack : Nat) (channel : Int) : Nat :=
  (stack * MemorySystem.channels system.spec + channel).toNat

/-- Offer a request to the controller of its channel. -/
def offer (system : RunningSystem β) (index : Nat) (request : SystemRequest) :
    Except Exception (Bool × RunningSystem β) :=
  match system.controllerAt index with
  | none => .error (outOfRange "controller index")
  | some c => do
    let (accepted, after) ← c.enqueue request.toRequest
    return (accepted, system.settle index after)

/-- The turn of one stack, with the requests it hands out. A refusal ends it. -/
def dispatchStack (stack : Nat) :
    Nat → RunningSystem β → Except Exception (List SystemRequest × RunningSystem β)
  | 0, system => .ok ([], system)
  | slots + 1, system =>
    let queue := system.stackIngressQueues stack
    let position := selected system.service.stackQosPolicy queue
    match queue[position]? with
    | none => .ok ([], system)
    | some request => do
      let (accepted, offered) ←
        system.offer (system.controllerIndex stack request.targetChannel) request
      if accepted then
        let (others, after) ← dispatchStack stack slots { offered with
          stackIngressQueues :=
            Function.update offered.stackIngressQueues stack (queue.eraseIdx position) }
        return (request :: others, after)
      else return ([], offered)

/-- `dispatch_stack_ingress`, over the stacks that are left. -/
def dispatchStacks :
    List Nat → RunningSystem β → Except Exception (List SystemRequest × RunningSystem β)
  | [], system => .ok ([], system)
  | stack :: rest, system => do
    let (handed, system) ← dispatchStack stack system.options.stackDispatchWidth system
    let (others, system) ← dispatchStacks rest system
    return (handed ++ others, system)

def dispatchStackIngress (system : RunningSystem β) :
    Except Exception (List SystemRequest × RunningSystem β) :=
  dispatchStacks (List.range system.options.stackCount.toNat) system

/-! ### Ticks -/

/-- Tick the controllers at the given indices, in order. -/
def tickControllers : List Nat → RunningSystem β → Except Exception (RunningSystem β)
  | [], system => .ok system
  | index :: rest, system =>
    match system.controllerAt index with
    | none => .error (outOfRange "controller index")
    | some c => do
      let (_, after) ← c.tick
      tickControllers rest (system.settle index after)

end RunningSystem

/-- What happens to a request in the system, and to its response. -/
inductive SystemEvent
  | accepted (request : SystemRequest)
  | handed (request : SystemRequest)
  | collected (response : TransactionResponse)
  | published (response : HostResponse)
  | popped (response : HostResponse)
  deriving DecidableEq

/-- Take the responses of one controller as long as the frontend has room. The last part of the
answer says whether it still has. -/
def collectFrom : List TransactionResponse → Delivery →
    Except Exception (List SystemEvent × List TransactionResponse × Delivery × Bool)
  | [], delivery => .ok ([], [], delivery, true)
  | response :: rest, delivery =>
    if delivery.mode ≠ .disabled ∧ delivery.stalled = true then
      .ok ([], response :: rest, delivery, false)
    else do
      let (published, delivery) ← delivery.collect response
      let (events, left, delivery, room) ← collectFrom rest delivery
      return (.collected response :: published.map .published ++ events, left, delivery, room)

namespace RunningSystem

variable {β : Type}

/-- `collect_responses`, over the controllers that are left. -/
def collectEach : List (Controller β) → Delivery →
    Except Exception (List SystemEvent × List (Controller β) × Delivery)
  | [], delivery => .ok ([], [], delivery)
  | c :: rest, delivery => do
    let (events, left, delivery, room) ← collectFrom c.responses delivery
    if room then
      let (others, rest, delivery) ← collectEach rest delivery
      return (events ++ others, { c with responses := left } :: rest, delivery)
    else return (events, { c with responses := left } :: rest, delivery)

def collectResponses (system : RunningSystem β) :
    Except Exception (List SystemEvent × RunningSystem β) := do
  let (events, controllers, delivery) ← collectEach system.controllers system.delivery
  return (events, { system with controllers, delivery })

variable [MemoryBackend β]

/-- `tick`, up to the collection of the responses. -/
def beginTick (system : RunningSystem β) :
    Except Exception (List SystemRequest × RunningSystem β) := do
  let (handed, dispatched) ← system.dispatchStackIngress
  let ticked ← tickControllers (List.range dispatched.controllers.length) dispatched
  return (handed, ticked)

/-- `tick`. -/
def tick (system : RunningSystem β) : Except Exception (List SystemEvent × RunningSystem β) := do
  let (handed, ticked) ← system.beginTick
  let (events, collected) ← ticked.collectResponses
  return (handed.map .handed ++ events, { collected with clk := collected.clk + 1 })

/-! ### The frontend -/

/-- `enqueue`. The answer is the routed request, and nothing when the ingress is full. -/
def enqueue (system : RunningSystem β) (request : SystemRequest) :
    Except Exception (Option SystemRequest × RunningSystem β) := do
  let (routed, routing) ← system.toMemorySystem.enqueue request
  return (routed, { system with toMemorySystem := routing })

/-- `try_submit`. What it throws leaves the registry alone. -/
def trySubmit (system : RunningSystem β) (request : SystemRequest) :
    Except Exception (Option SystemRequest) × RunningSystem β :=
  match system.delivery.checkSubmission request.toRequest with
  | .error error => (.error error, system)
  | .ok _ =>
    let enabled := { system with delivery := system.delivery.enableHost }
    match enabled.enqueue request with
    | .error error => (.error error, enabled)
    | .ok (none, after) => (.ok none, after)
    | .ok (some routed, after) =>
      (.ok (some routed), { after with
        delivery := after.delivery.recordSubmitted request.toRequest })

/-- `try_submit_maintenance`. -/
def trySubmitMaintenance (system : RunningSystem β) (request : SystemRequest) :
    Except Exception (Option SystemRequest × RunningSystem β) := do
  throwIf (request.type ≠ .maintenance)
    (invalidArgument "try_submit_maintenance accepts Maintenance requests only")
  system.enqueue request

/-- `pop_response`. -/
def popResponse (system : RunningSystem β) :
    Except Exception (HostResponse × RunningSystem β) := do
  let (response, delivery) ← system.delivery.popResponse
  return (response, { system with delivery })

/-- `pop_transaction_response`. -/
def popTransactionResponse (system : RunningSystem β) :
    Except Exception (TransactionResponse × RunningSystem β) := do
  let (response, delivery) ← system.delivery.popTransactionResponse
  return (response, { system with delivery })

end RunningSystem

/-! ### Runs -/

/-- What a frontend can do. A batch run injects requests without registering them, and collects
responses between its ticks. -/
inductive FrontendOp
  | submit (request : SystemRequest)
  | submitMaintenance (request : SystemRequest)
  | inject (request : SystemRequest)
  | tick
  | collectResponses
  | popResponse
  | popTransactionResponse

namespace RunningSystem

variable {β : Type} [MemoryBackend β]

/-- A call that is rejected gives nothing and may be followed by others. -/
def attempted (system : RunningSystem β)
    (result : Except Exception (List SystemEvent × RunningSystem β)) :
    List SystemEvent × RunningSystem β :=
  match result with
  | .ok answer => answer
  | .error _ => ([], system)

/-- The event of an accepted request. -/
def acceptance (result : Option SystemRequest × RunningSystem β) :
    List SystemEvent × RunningSystem β :=
  (result.1.toList.map .accepted, result.2)

def apply (system : RunningSystem β) :
    FrontendOp → Except Exception (List SystemEvent × RunningSystem β)
  | .submit request => match system.trySubmit request with
    | (.ok routed, after) => .ok (routed.toList.map .accepted, after)
    | (.error _, after) => .ok ([], after)
  | .submitMaintenance request =>
    .ok (system.attempted ((system.trySubmitMaintenance request).map acceptance))
  | .inject request => .ok (system.attempted ((system.enqueue request).map acceptance))
  | .tick => system.tick
  | .collectResponses => system.collectResponses
  | .popResponse =>
    .ok (system.attempted (system.popResponse.map fun result =>
      ([.popped result.1], result.2)))
  | .popTransactionResponse =>
    .ok (system.attempted (system.popTransactionResponse.map fun result => ([], result.2)))

/-- A run whose ticks and collections all return. -/
def run (system : RunningSystem β) (ops : List FrontendOp) :
    Except Exception (List SystemEvent × RunningSystem β) :=
  Transition.run apply system ops

/-! ### What a step leaves alone -/

section Frames

variable {system ready : RunningSystem β} {request : SystemRequest}

theorem offer_eq {index : Nat} {taken : Bool}
    (offers : system.offer index request = .ok (taken, ready)) :
    ready = { system with
      controllers := ready.controllers, memoryImages := ready.memoryImages } := by
  unfold offer at offers
  split at offers
  · cases offers
  · obtain ⟨_, -, offers⟩ := bind_eq_ok.mp offers
    cases offers
    rfl

theorem tickControllers_eq {indices : List Nat}
    (ticks : tickControllers indices system = .ok ready) :
    ready = { system with
      controllers := ready.controllers, memoryImages := ready.memoryImages } := by
  induction indices generalizing system with
  | nil =>
    cases ticks
    rfl
  | cons index rest inductionHypothesis =>
    unfold tickControllers at ticks
    split at ticks
    · cases ticks
    · obtain ⟨_, -, ticks⟩ := bind_eq_ok.mp ticks
      rw [inductionHypothesis ticks]
      rfl

variable {Inv : List SystemRequest → RunningSystem β → Prop}

/-- The step of a dispatch that hands a request out. -/
def HandsOut (Inv : List SystemRequest → RunningSystem β → Prop) : Prop :=
  ∀ now system stack request offered, Inv now system →
    (system.stackIngressQueues stack)[selected system.service.stackQosPolicy
      (system.stackIngressQueues stack)]? = some request →
    system.offer (system.controllerIndex stack request.targetChannel) request =
      .ok (true, offered) →
    Inv (now ++ [request]) { offered with
      stackIngressQueues := Function.update offered.stackIngressQueues stack
        ((system.stackIngressQueues stack).eraseIdx (selected system.service.stackQosPolicy
          (system.stackIngressQueues stack))) }

/-- The step of a dispatch that is refused. -/
def IsRefused (Inv : List SystemRequest → RunningSystem β → Prop) : Prop :=
  ∀ now system index request offered, Inv now system →
    system.offer index request = .ok (false, offered) → Inv now offered

theorem dispatchStack_keeps (hands : HandsOut Inv) (refuses : IsRefused Inv) {stack slots : Nat}
    {now handed : List SystemRequest} (holds : Inv now system)
    (dispatches : dispatchStack stack slots system = .ok (handed, ready)) :
    Inv (now ++ handed) ready := by
  induction slots generalizing system now handed with
  | zero =>
    cases dispatches
    rw [List.append_nil]
    exact holds
  | succ slots inductionHypothesis =>
    unfold dispatchStack at dispatches
    dsimp only at dispatches
    split at dispatches
    · cases dispatches
      rw [List.append_nil]
      exact holds
    next request found =>
      obtain ⟨⟨taken, offered⟩, offers, dispatches⟩ := bind_eq_ok.mp dispatches
      cases taken with
      | false =>
        cases dispatches
        rw [List.append_nil]
        exact refuses _ _ _ _ _ holds offers
      | true =>
        obtain ⟨⟨others, left⟩, rests, dispatches⟩ := bind_eq_ok.mp dispatches
        cases dispatches
        rw [List.append_cons]
        exact inductionHypothesis (hands _ _ _ _ _ holds found offers) rests

theorem dispatchStacks_continues (hands : HandsOut Inv) (refuses : IsRefused Inv)
    {indices : List Nat} {now handed : List SystemRequest} (holds : Inv now system)
    (dispatches : dispatchStacks indices system = .ok (handed, ready)) :
    Inv (now ++ handed) ready := by
  induction indices generalizing system now handed with
  | nil =>
    cases dispatches
    rw [List.append_nil]
    exact holds
  | cons stack rest inductionHypothesis =>
    obtain ⟨⟨first, middle⟩, one, dispatches⟩ := bind_eq_ok.mp dispatches
    obtain ⟨⟨others, last⟩, more, dispatches⟩ := bind_eq_ok.mp dispatches
    cases dispatches
    rw [← List.append_assoc]
    exact inductionHypothesis (dispatchStack_keeps hands refuses holds one) more

/-- What every hand-over and every refusal keeps, a dispatch keeps. -/
theorem dispatchStacks_keeps (hands : HandsOut Inv) (refuses : IsRefused Inv)
    {indices : List Nat} {handed : List SystemRequest} (holds : Inv [] system)
    (dispatches : dispatchStacks indices system = .ok (handed, ready)) : Inv handed ready :=
  dispatchStacks_continues hands refuses holds dispatches

theorem dispatchStacks_eq {indices : List Nat} {handed : List SystemRequest}
    (dispatches : dispatchStacks indices system = .ok (handed, ready)) :
    ready = { system with
      stackIngressQueues := ready.stackIngressQueues
      controllers := ready.controllers
      memoryImages := ready.memoryImages } := by
  let Inv : List SystemRequest → RunningSystem β → Prop := fun _ next => next = { system with
    stackIngressQueues := next.stackIngressQueues
    controllers := next.controllers
    memoryImages := next.memoryImages }
  have hands : HandsOut Inv := by
    intro now before stack request offered frame _ offers
    show _ = _
    rw [offer_eq offers]
    dsimp only
    rw [frame]
  have refuses : IsRefused Inv := by
    intro now before index request offered frame offers
    show _ = _
    rw [offer_eq offers]
    dsimp only
    rw [frame]
  have start : Inv [] system := rfl
  exact dispatchStacks_keeps hands refuses start dispatches

end Frames

/-! ### What an operation can do -/

section Operations

variable {system after : RunningSystem β} {op : FrontendOp} {events : List SystemEvent}

/-- The outcomes of an operation that returns. -/
inductive Operation (system : RunningSystem β) :
    FrontendOp → List SystemEvent → RunningSystem β → Prop
  | nothing {op : FrontendOp} : Operation system op [] system
  | turnedAway {request : SystemRequest}
      (checks : system.delivery.checkSubmission request.toRequest = .ok ()) :
      Operation system (.submit request) [] { system with delivery := system.delivery.enableHost }
  | submitted {request routed : SystemRequest} {routing : MemorySystem}
      (checks : system.delivery.checkSubmission request.toRequest = .ok ())
      (enters : system.toMemorySystem.enqueue request = .ok (some routed, routing)) :
      Operation system (.submit request) [.accepted routed] { system with
        toMemorySystem := routing
        delivery := system.delivery.enableHost.recordSubmitted request.toRequest }
  | maintained {request routed : SystemRequest} {routing : MemorySystem}
      (isMaintenance : request.type = .maintenance)
      (enters : system.toMemorySystem.enqueue request = .ok (some routed, routing)) :
      Operation system (.submitMaintenance request) [.accepted routed]
        { system with toMemorySystem := routing }
  | injected {request routed : SystemRequest} {routing : MemorySystem}
      (enters : system.toMemorySystem.enqueue request = .ok (some routed, routing)) :
      Operation system (.inject request) [.accepted routed]
        { system with toMemorySystem := routing }
  | ticked {events : List SystemEvent} {after : RunningSystem β}
      (ticks : system.tick = .ok (events, after)) : Operation system .tick events after
  | collected {events : List SystemEvent} {after : RunningSystem β}
      (collects : system.collectResponses = .ok (events, after)) :
      Operation system .collectResponses events after
  | popped {response : HostResponse} {delivery : Delivery}
      (pops : system.delivery.popResponse = .ok (response, delivery)) :
      Operation system .popResponse [.popped response] { system with delivery }
  | poppedTransaction {response : TransactionResponse} {delivery : Delivery}
      (pops : system.delivery.popTransactionResponse = .ok (response, delivery)) :
      Operation system .popTransactionResponse [] { system with delivery }

omit [MemoryBackend β] in
/-- An offer to the ingress is accepted, or changes nothing. -/
theorem enqueue_outcome {request : SystemRequest} {result : Option SystemRequest}
    (returns : system.enqueue request = .ok (result, after)) :
    (result = none ∧ after = system) ∨ ∃ routed routing, result = some routed ∧
      system.toMemorySystem.enqueue request = .ok (some routed, routing) ∧
      after = { system with toMemorySystem := routing } := by
  obtain ⟨⟨routed, routing⟩, enters, returns⟩ := bind_eq_ok.mp returns
  cases returns
  cases result with
  | none =>
    obtain rfl := MemorySystem.enqueue_refused enters
    exact Or.inl ⟨rfl, rfl⟩
  | some routed => exact Or.inr ⟨routed, routing, rfl, enters, rfl⟩

theorem apply_submit {request : SystemRequest}
    (returns : system.apply (.submit request) = .ok (events, after)) :
    Operation system (.submit request) events after := by
  unfold apply trySubmit at returns
  dsimp only at returns
  cases checks : system.delivery.checkSubmission request.toRequest with
  | error error =>
    rw [checks] at returns
    cases returns
    exact .nothing
  | ok checked =>
    rw [checks] at returns
    dsimp only at returns
    cases enqueues : ({ system with delivery := system.delivery.enableHost } :
        RunningSystem β).enqueue request with
    | error error =>
      rw [enqueues] at returns
      cases returns
      exact .turnedAway checks
    | ok result =>
      obtain ⟨routed, next⟩ := result
      rw [enqueues] at returns
      rcases enqueue_outcome enqueues with ⟨rfl, rfl⟩ | ⟨routed, routing, rfl, enters, rfl⟩
      · cases returns
        exact .turnedAway checks
      · cases returns
        exact .submitted checks enters

/-- A call that is rejected gives nothing. -/
theorem attempted_cases {result : Except Exception (List SystemEvent × RunningSystem β)}
    (returned : ∀ events after, result = .ok (events, after) → Operation system op events after)
    (given : system.attempted result = (events, after)) : Operation system op events after := by
  cases result with
  | error error =>
    cases given
    exact .nothing
  | ok answer => exact returned events after (congrArg Except.ok given)

/-- An offer to the ingress, as an operation. -/
theorem acceptance_cases {result : Except Exception (Option SystemRequest × RunningSystem β)}
    {request : SystemRequest}
    (offers : ∀ answer, result = .ok answer → system.enqueue request = .ok answer)
    (entered : ∀ routed routing,
      system.toMemorySystem.enqueue request = .ok (some routed, routing) →
      Operation system op [.accepted routed] { system with toMemorySystem := routing })
    (returns : result.map acceptance = .ok (events, after)) :
    Operation system op events after := by
  cases result with
  | error error => cases returns
  | ok answer =>
    obtain ⟨result, next⟩ := answer
    rcases enqueue_outcome (offers _ rfl) with ⟨rfl, rfl⟩ | ⟨routed, routing, rfl, enters, rfl⟩
    · cases returns
      exact .nothing
    · cases returns
      exact entered routed routing enters

theorem apply_cases (returns : system.apply op = .ok (events, after)) :
    Operation system op events after := by
  cases op with
  | submit request => exact apply_submit returns
  | submitMaintenance request =>
    refine attempted_cases (fun events after => ?_) (Except.ok.inj returns)
    unfold trySubmitMaintenance
    by_cases isMaintenance : request.type = .maintenance
    · rw [throwIf, if_neg (fun other => other isMaintenance)]
      exact acceptance_cases (fun _ same => same) fun _ _ enters =>
        .maintained isMaintenance enters
    · rw [throwIf, if_pos isMaintenance]
      exact nofun
  | inject request =>
    exact attempted_cases (fun _ _ => acceptance_cases (fun _ same => same)
      fun _ _ enters => .injected enters) (Except.ok.inj returns)
  | tick => exact .ticked returns
  | collectResponses => exact .collected returns
  | popResponse =>
    refine attempted_cases (fun events after => ?_) (Except.ok.inj returns)
    unfold popResponse
    cases pops : system.delivery.popResponse with
    | error error => exact nofun
    | ok answer =>
      rintro ⟨⟩
      exact .popped pops
  | popTransactionResponse =>
    refine attempted_cases (fun events after => ?_) (Except.ok.inj returns)
    unfold popTransactionResponse
    cases pops : system.delivery.popTransactionResponse with
    | error error => exact nofun
    | ok answer =>
      rintro ⟨⟩
      exact .poppedTransaction pops

end Operations

/-! ### Small systems -/

/-- A run of a new system of one stack. -/
def freshRun (spec : DramSpec) (service : ServiceOptions) (ops : List FrontendOp) :
    Except Exception (List SystemEvent × RunningSystem SparseMemoryBackend) := do
  let start ← create spec {} service fun _ => Controller.imageOf spec
  start.run ops

theorem freshRun_of_passes (spec : DramSpec) (service : ServiceOptions) (ops : List FrontendOp)
    (check : List SystemEvent × RunningSystem SparseMemoryBackend → Bool)
    (passed : Controller.passes (freshRun spec service ops) check = true) :
    ∃ start log final, create spec {} service (fun _ => Controller.imageOf spec) = .ok start ∧
      start.run ops = .ok (log, final) ∧ check (log, final) = true := by
  obtain ⟨value, returns, checks⟩ := Controller.passes_iff.mp passed
  obtain ⟨start, creates, runs⟩ := bind_eq_ok.mp returns
  exact ⟨start, value.1, value.2, creates, runs, checks⟩

end RunningSystem

end HbmSim
