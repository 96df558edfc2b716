/-
The order in which the ingress of a stack hands out its requests. Arbitration
takes a request from anywhere in the queue, but only a higher class may overtake
an older request.

A queue is filled at its end, so it holds its requests in the order of their
acceptance. The arbiter picks a request that none outranks; whatever it leaves
behind is younger or of a lower class.
-/

import HbmSim.System

namespace HbmSim

/-! ### The requests of a history -/

/-- The requests a history accepted, in order. -/
def acceptedOf (events : List SystemEvent) : List SystemRequest :=
  events.filterMap fun
    | .accepted request => some request
    | _ => none

/-- The requests a history handed to a controller, in order. -/
def handedOf (events : List SystemEvent) : List SystemRequest :=
  events.filterMap fun
    | .handed request => some request
    | _ => none

@[simp] theorem acceptedOf_append (first second : List SystemEvent) :
    acceptedOf (first ++ second) = acceptedOf first ++ acceptedOf second :=
  List.filterMap_append

@[simp] theorem handedOf_append (first second : List SystemEvent) :
    handedOf (first ++ second) = handedOf first ++ handedOf second :=
  List.filterMap_append

@[simp] theorem acceptedOf_map_handed (requests : List SystemRequest) :
    acceptedOf (requests.map .handed) = [] := by
  unfold acceptedOf
  rw [List.filterMap_map]
  exact List.filterMap_eq_nil_iff.mpr fun _ _ => rfl

@[simp] theorem handedOf_map_handed (requests : List SystemRequest) :
    handedOf (requests.map .handed) = requests := by
  unfold handedOf
  rw [List.filterMap_map]
  exact List.filterMap_some

/-- An event of the responses. -/
def SystemEvent.OfResponse : SystemEvent → Prop
  | .accepted _ => False
  | .handed _ => False
  | _ => True

theorem acceptedOf_responses {events : List SystemEvent}
    (responses : ∀ event ∈ events, event.OfResponse) : acceptedOf events = [] :=
  List.filterMap_eq_nil_iff.mpr fun event member => by
    cases event with
    | accepted request => exact (responses _ member).elim
    | _ => rfl

theorem handedOf_responses {events : List SystemEvent}
    (responses : ∀ event ∈ events, event.OfResponse) : handedOf events = [] :=
  List.filterMap_eq_nil_iff.mpr fun event member => by
    cases event with
    | handed request => exact (responses _ member).elim
    | _ => rfl

/-! ### The arbiter -/

namespace RunningSystem

/-- A request may be handed out before another: it is older, or of a higher class where classes
count. -/
def MayPrecede (policy : StackQosPolicy) (first second : SystemRequest) : Prop :=
  first.systemSequence < second.systemSequence ∨
    (policy = .strictPriority ∧ second.qosClass < first.qosClass)

theorem outranked_self (request : SystemRequest) : outranked request request = false := by
  unfold outranked
  rw [if_neg (fun differs => differs rfl)]
  exact decide_eq_false (Nat.lt_irrefl _)

theorem outranked_trans {first second third : SystemRequest}
    (below : outranked first second = true) (between : outranked second third = true) :
    outranked first third = true := by
  unfold outranked at *
  split at below <;> split at between <;> split <;>
    simp only [decide_eq_true_eq, ne_eq, Decidable.not_not] at * <;> omega

/-- None outranks the request `max_element` finds. -/
theorem maxElement_spec {queue : List SystemRequest} {chosen : SystemRequest}
    (found : queue[maxElement queue]? = some chosen) :
    ∀ other ∈ queue, outranked chosen other = false := by
  induction queue with
  | nil => exact fun _ member => absurd member List.not_mem_nil
  | cons request rest inductionHypothesis =>
    unfold maxElement at found
    intro other member
    split at found
    next beaten =>
      rw [List.getElem?_cons_succ] at found
      have highest := inductionHypothesis found
      rcases List.mem_cons.mp member with rfl | later
      · obtain ⟨higher, listed, outranks⟩ := List.any_eq_true.mp beaten
        refine Bool.eq_false_iff.mpr fun loses => ?_
        exact Bool.false_ne_true ((highest higher listed).symm.trans
          (outranked_trans loses outranks))
      · exact highest other later
    next unbeaten =>
      obtain rfl := Option.some.inj found
      rcases List.mem_cons.mp member with rfl | later
      · exact outranked_self _
      · exact Bool.eq_false_iff.mpr fun loses =>
          unbeaten (List.any_eq_true.mpr ⟨other, later, loses⟩)

/-- Whatever the arbiter leaves in a queue in the order of acceptance may be overtaken. -/
theorem selected_mayPrecede {policy : StackQosPolicy} {queue : List SystemRequest}
    {chosen : SystemRequest}
    (increasing : queue.Pairwise fun first second => first.systemSequence < second.systemSequence)
    (found : queue[selected policy queue]? = some chosen) :
    ∀ left ∈ queue.eraseIdx (selected policy queue), MayPrecede policy chosen left := by
  intro left member
  cases policy with
  | fcfs =>
    cases queue with
    | nil => exact absurd member List.not_mem_nil
    | cons request rest =>
      obtain rfl := Option.some.inj found
      exact Or.inl ((List.pairwise_cons.mp increasing).1 left member)
  | strictPriority =>
    have kept : left ∈ queue := List.mem_of_mem_eraseIdx member
    have highest : outranked chosen left = false := maxElement_spec found left kept
    have apart : chosen.systemSequence ≠ left.systemSequence := by
      have sequences : (queue.map SystemRequest.systemSequence).Nodup :=
        (List.pairwise_map.mpr increasing).imp Nat.ne_of_lt
      have perm := List.getElem_cons_eraseIdx_perm (List.getElem?_eq_some_iff.mp found).1
      rw [(List.getElem?_eq_some_iff.mp found).2] at perm
      have distinct := ((perm.map SystemRequest.systemSequence).nodup_iff).mpr sequences
      rw [List.map_cons] at distinct
      exact fun same => (List.nodup_cons.mp distinct).1
        (same ▸ List.mem_map_of_mem member)
    unfold outranked at highest
    unfold MayPrecede
    split at highest
    next differs =>
      have class_le : left.qosClass ≤ chosen.qosClass :=
        Int.not_lt.mp (of_decide_eq_false highest)
      exact Or.inr ⟨rfl, lt_of_le_of_ne class_le (Ne.symm differs)⟩
    next =>
      have sequence_le : chosen.systemSequence ≤ left.systemSequence :=
        Nat.not_lt.mp (of_decide_eq_false highest)
      exact Or.inl (Nat.lt_of_le_of_ne sequence_le apart)

/-! ### The account of the ingress -/

def stackOf (request : SystemRequest) : Nat := request.targetStack.toNat

/-- What was accepted waits in the order of acceptance or was handed out, once; and nothing was
handed out before a request that had to go first. -/
structure Ordered (policy : StackQosPolicy) (accepted handed : List SystemRequest)
    (system : MemorySystem) : Prop where
  fresh : ∀ request ∈ accepted, request.systemSequence < system.nextSystemSequence
  increasing : accepted.Pairwise fun first second => first.systemSequence < second.systemSequence
  waiting : ∀ stack, (system.stackIngressQueues stack).Sublist accepted
  bound : ∀ stack, ∀ request ∈ system.stackIngressQueues stack, stackOf request = stack
  placed : ∀ request ∈ accepted, request ∈ handed ∨
    request ∈ system.stackIngressQueues (stackOf request)
  known : ∀ request ∈ handed, request ∈ accepted
  once : handed.Nodup
  apart : ∀ request ∈ handed, request ∉ system.stackIngressQueues (stackOf request)
  inOrder : handed.Pairwise fun first second =>
    stackOf first = stackOf second → MayPrecede policy first second
  ahead : ∀ first ∈ handed, ∀ second ∈ system.stackIngressQueues (stackOf first),
    MayPrecede policy first second

variable {policy : StackQosPolicy} {accepted handed : List SystemRequest}
variable {system after : MemorySystem} {request routed : SystemRequest}

theorem Ordered.start (policy : StackQosPolicy) (spec : DramSpec) (options : MemorySystemOptions) :
    Ordered policy [] [] { spec, options } where
  fresh _ member := absurd member List.not_mem_nil
  increasing := List.Pairwise.nil
  waiting _ := List.Sublist.refl _
  bound _ _ member := absurd member List.not_mem_nil
  placed _ member := absurd member List.not_mem_nil
  known _ member := absurd member List.not_mem_nil
  once := List.nodup_nil
  apart _ member := absurd member List.not_mem_nil
  inOrder := List.Pairwise.nil
  ahead _ member := absurd member List.not_mem_nil

/-- A new request is younger than all others. -/
theorem Ordered.accept (ordered : Ordered policy accepted handed system)
    (accepts : system.enqueue request = .ok (some routed, after)) :
    Ordered policy (accepted ++ [routed]) handed after := by
  obtain ⟨frame, result⟩ := MemorySystem.enqueue_accepts accepts
  have newest : routed.systemSequence = system.nextSystemSequence := by rw [frame]
  have next : after.nextSystemSequence = system.nextSystemSequence + 1 := by rw [result]
  have queues : after.stackIngressQueues = Function.update system.stackIngressQueues
      (stackOf routed) (system.stackIngressQueues (stackOf routed) ++ [routed]) := by
    rw [result]
    rfl
  have younger : ∀ other ∈ accepted, other.systemSequence < routed.systemSequence :=
    fun other member => newest ▸ ordered.fresh other member
  have unknown : routed ∉ accepted := fun member => Nat.lt_irrefl _ (younger routed member)
  have listed : ∀ stack, ∀ other ∈ after.stackIngressQueues stack,
      other ∈ system.stackIngressQueues stack ∨ (other = routed ∧ stack = stackOf routed) := by
    intro stack other member
    rw [queues] at member
    by_cases same : stack = stackOf routed
    · subst same
      rw [Function.update_self] at member
      exact (List.mem_append.mp member).imp id fun new => ⟨List.mem_singleton.mp new, rfl⟩
    · rw [Function.update_of_ne same] at member
      exact Or.inl member
  have keeps : ∀ stack, ∀ other ∈ system.stackIngressQueues stack,
      other ∈ after.stackIngressQueues stack := by
    intro stack other member
    rw [queues]
    by_cases same : stack = stackOf routed
    · subst same
      rw [Function.update_self]
      exact List.mem_append_left _ member
    · rwa [Function.update_of_ne same]
  refine ⟨?_, ?_, ?_, ?_, ?_, ?_, ordered.once, ?_, ordered.inOrder, ?_⟩
  · intro other member
    rw [next]
    rcases List.mem_append.mp member with old | new
    · exact Nat.lt_succ_of_lt (ordered.fresh other old)
    · rw [List.mem_singleton.mp new, newest]
      exact Nat.lt_succ_self _
  · refine List.pairwise_append.mpr ⟨ordered.increasing, List.pairwise_singleton _ _, ?_⟩
    intro other member new isNew
    rw [List.mem_singleton.mp isNew]
    exact younger other member
  · intro stack
    rw [queues]
    by_cases same : stack = stackOf routed
    · subst same
      rw [Function.update_self]
      exact (ordered.waiting _).append (List.Sublist.refl _)
    · rw [Function.update_of_ne same]
      exact (ordered.waiting stack).trans (List.sublist_append_left _ _)
  · intro stack other member
    rcases listed stack other member with old | ⟨rfl, rfl⟩
    · exact ordered.bound stack other old
    · rfl
  · intro other member
    rcases List.mem_append.mp member with old | new
    · exact (ordered.placed other old).imp id (keeps _ other)
    · obtain rfl := List.mem_singleton.mp new
      refine Or.inr ?_
      rw [queues, Function.update_self]
      exact List.mem_append_right _ List.mem_cons_self
  · exact fun other member => List.mem_append_left _ (ordered.known other member)
  · intro other member waits
    rcases listed _ other waits with old | ⟨rfl, -⟩
    · exact ordered.apart other member old
    · exact unknown (ordered.known _ member)
  · intro first member second waits
    rcases listed _ second waits with old | ⟨rfl, -⟩
    · exact ordered.ahead first member second old
    · exact Or.inl (younger first (ordered.known first member))

/-- The arbiter hands out a request that may precede whatever it leaves behind. -/
theorem Ordered.hand (ordered : Ordered policy accepted handed system) {stack : Nat}
    (found : (system.stackIngressQueues stack)[selected policy
      (system.stackIngressQueues stack)]? = some request) :
    Ordered policy accepted (handed ++ [request]) { system with
      stackIngressQueues := Function.update system.stackIngressQueues stack
        ((system.stackIngressQueues stack).eraseIdx
          (selected policy (system.stackIngressQueues stack))) } := by
  have member : request ∈ system.stackIngressQueues stack := List.mem_of_getElem? found
  have here : stackOf request = stack := ordered.bound stack request member
  have increasing := ordered.increasing.sublist (ordered.waiting stack)
  have precedes := selected_mayPrecede increasing found
  generalize selected policy (system.stackIngressQueues stack) = position at *
  have perm := List.getElem_cons_eraseIdx_perm (List.getElem?_eq_some_iff.mp found).1
  rw [(List.getElem?_eq_some_iff.mp found).2] at perm
  have once : (system.stackIngressQueues stack).Nodup := by
    refine increasing.imp ?_
    rintro first _ lower rfl
    exact Nat.lt_irrefl _ lower
  have gone : request ∉ (system.stackIngressQueues stack).eraseIdx position :=
    (List.nodup_cons.mp (perm.nodup_iff.mpr once)).1
  have subset : ∀ other, ∀ waits ∈ Function.update system.stackIngressQueues stack
      ((system.stackIngressQueues stack).eraseIdx position) other,
      waits ∈ system.stackIngressQueues other := by
    intro other waits listed
    by_cases same : other = stack
    · subst same
      rw [Function.update_self] at listed
      exact List.mem_of_mem_eraseIdx listed
    · rwa [Function.update_of_ne same] at listed
  refine ⟨ordered.fresh, ordered.increasing, ?_, ?_, ?_, ?_, ?_, ?_, ?_, ?_⟩
  · intro other
    dsimp only
    by_cases same : other = stack
    · subst same
      rw [Function.update_self]
      exact (List.eraseIdx_sublist _ _).trans (ordered.waiting _)
    · rw [Function.update_of_ne same]
      exact ordered.waiting other
  · exact fun other waits listed => ordered.bound other waits (subset other waits listed)
  · intro other known
    rcases ordered.placed other known with old | waits
    · exact Or.inl (List.mem_append_left _ old)
    dsimp only
    by_cases same : stackOf other = stack
    · rw [same] at waits ⊢
      rw [Function.update_self]
      rcases List.mem_cons.mp (perm.mem_iff.mpr waits) with rfl | stays
      · exact Or.inl (List.mem_append_right _ List.mem_cons_self)
      · exact Or.inr stays
    · rw [Function.update_of_ne same]
      exact Or.inr waits
  · intro other listed
    rcases List.mem_append.mp listed with old | new
    · exact ordered.known other old
    · rw [List.mem_singleton.mp new]
      exact (ordered.waiting stack).subset member
  · refine List.nodup_append.mpr ⟨ordered.once, List.nodup_singleton _, ?_⟩
    intro old listed new isNew
    rw [List.mem_singleton.mp isNew]
    rintro rfl
    exact ordered.apart old listed (here ▸ member)
  · intro other listed waits
    rcases List.mem_append.mp listed with old | new
    · exact ordered.apart other old (subset _ other waits)
    · obtain rfl := List.mem_singleton.mp new
      dsimp only at waits
      rw [here, Function.update_self] at waits
      exact gone waits
  · refine List.pairwise_append.mpr ⟨ordered.inOrder, List.pairwise_singleton _ _, ?_⟩
    intro first listed second isNew same
    rw [List.mem_singleton.mp isNew] at same ⊢
    exact ordered.ahead first listed request ((same.trans here) ▸ member)
  · intro first listed second waits
    rcases List.mem_append.mp listed with old | new
    · exact ordered.ahead first old second (subset _ second waits)
    · obtain rfl := List.mem_singleton.mp new
      dsimp only at waits
      rw [here, Function.update_self] at waits
      exact precedes second waits

/-! ### Runs -/

section Steps

variable {β : Type} [MemoryBackend β] {running ready final : RunningSystem β}

/-- The account under the policy the system was given. -/
def Accounted (service : ServiceOptions) (accepted handed : List SystemRequest)
    (running : RunningSystem β) : Prop :=
  running.service = service ∧
    Ordered service.stackQosPolicy accepted handed running.toMemorySystem

variable {service : ServiceOptions} {history events : List SystemEvent}

theorem Accounted.hands (handed : List SystemRequest) :
    HandsOut fun now (running : RunningSystem β) =>
      Accounted service accepted (handed ++ now) running := by
  rintro now running stack request offered ⟨rfl, ordered⟩ found offers
  have frame := offer_eq offers
  have kept : offered.service = running.service := by rw [frame]
  have routing : offered.toMemorySystem = running.toMemorySystem := by rw [frame]
  refine ⟨kept, ?_⟩
  rw [← List.append_assoc]
  dsimp only
  rw [routing]
  exact ordered.hand found

theorem Accounted.refuses (handed : List SystemRequest) :
    IsRefused fun now (running : RunningSystem β) =>
      Accounted service accepted (handed ++ now) running := by
  rintro now running index request offered ⟨rfl, ordered⟩ offers
  rw [offer_eq offers]
  exact ⟨rfl, ordered⟩

theorem Accounted.dispatch (accounted : Accounted service accepted handed running)
    {indices : List Nat} {now : List SystemRequest}
    (dispatches : dispatchStacks indices running = .ok (now, ready)) :
    Accounted service accepted (handed ++ now) ready := by
  rw [← List.append_nil handed] at accounted
  exact dispatchStacks_keeps (Accounted.hands handed) (Accounted.refuses handed) accounted
    dispatches

omit [MemoryBackend β] in
theorem collectFrom_ofResponse {responses left : List TransactionResponse}
    {delivery collected : Delivery} {events : List SystemEvent} {room : Bool}
    (collects : collectFrom responses delivery = .ok (events, left, collected, room)) :
    ∀ event ∈ events, event.OfResponse := by
  induction responses generalizing delivery events with
  | nil =>
    cases collects
    exact fun _ member => absurd member List.not_mem_nil
  | cons response rest inductionHypothesis =>
    unfold collectFrom at collects
    split at collects
    · cases collects
      exact fun _ member => absurd member List.not_mem_nil
    obtain ⟨⟨published, middle⟩, -, collects⟩ := bind_eq_ok.mp collects
    obtain ⟨⟨others, stays, last, more⟩, rests, collects⟩ := bind_eq_ok.mp collects
    cases collects
    intro event member
    rcases List.mem_append.mp member with now | later
    · rcases List.mem_cons.mp now with rfl | publishes
      · trivial
      · obtain ⟨host, -, rfl⟩ := List.mem_map.mp publishes
        trivial
    · exact inductionHypothesis rests event later

omit [MemoryBackend β] in
theorem collectEach_ofResponse {controllers left : List (Controller β)}
    {delivery collected : Delivery} {events : List SystemEvent}
    (collects : collectEach controllers delivery = .ok (events, left, collected)) :
    ∀ event ∈ events, event.OfResponse := by
  induction controllers generalizing delivery events left with
  | nil =>
    cases collects
    exact fun _ member => absurd member List.not_mem_nil
  | cons c rest inductionHypothesis =>
    obtain ⟨⟨now, stays, middle, room⟩, one, collects⟩ := bind_eq_ok.mp collects
    have responses := collectFrom_ofResponse one
    dsimp only at collects
    split at collects
    · obtain ⟨⟨others, controllers, last⟩, more, collects⟩ := bind_eq_ok.mp collects
      cases collects
      intro event member
      exact (List.mem_append.mp member).elim (responses event) (inductionHypothesis more event)
    · cases collects
      exact responses

/-- The account of a history. -/
abbrev Tracked (service : ServiceOptions) (history : List SystemEvent)
    (running : RunningSystem β) : Prop :=
  Accounted service (acceptedOf history) (handedOf history) running

omit [MemoryBackend β] in
/-- What happens to the responses does not concern the ingress. -/
theorem Tracked.respond (tracked : Tracked service history running)
    (responses : ∀ event ∈ events, event.OfResponse) (keeps : ready.service = running.service)
    (routing : ready.toMemorySystem = running.toMemorySystem) :
    Tracked service (history ++ events) ready := by
  unfold Tracked Accounted
  rw [acceptedOf_append, acceptedOf_responses responses, handedOf_append,
    handedOf_responses responses, List.append_nil, List.append_nil, keeps, routing]
  exact tracked

omit [MemoryBackend β] in
theorem Tracked.accept (tracked : Tracked service history running) {routing : MemorySystem}
    {delivery : Delivery}
    (enters : running.toMemorySystem.enqueue request = .ok (some routed, routing)) :
    Tracked service (history ++ [.accepted routed])
      { running with toMemorySystem := routing, delivery } := by
  refine ⟨tracked.1, ?_⟩
  rw [acceptedOf_append, handedOf_append]
  have handed : handedOf [.accepted routed] = [] := rfl
  rw [handed, List.append_nil]
  exact tracked.2.accept enters

theorem Tracked.begin (tracked : Tracked service history running) {now : List SystemRequest}
    (begins : running.beginTick = .ok (now, ready)) :
    Tracked service (history ++ now.map .handed) ready := by
  obtain ⟨⟨handed, dispatched⟩, dispatches, begins⟩ := bind_eq_ok.mp begins
  obtain ⟨done, controllers, begins⟩ := bind_eq_ok.mp begins
  cases begins
  have ticked := tickControllers_eq controllers
  have after := Accounted.dispatch tracked dispatches
  unfold Tracked
  rw [acceptedOf_append, acceptedOf_map_handed, List.append_nil, handedOf_append,
    handedOf_map_handed, ticked]
  exact after

theorem Tracked.tick (tracked : Tracked service history running)
    (ticks : running.tick = .ok (events, ready)) : Tracked service (history ++ events) ready := by
  obtain ⟨⟨now, ticked⟩, begins, ticks⟩ := bind_eq_ok.mp ticks
  obtain ⟨⟨responses, collected⟩, collects, ticks⟩ := bind_eq_ok.mp ticks
  cases ticks
  obtain ⟨⟨_, _, _⟩, each, collects⟩ := bind_eq_ok.mp collects
  cases collects
  rw [← List.append_assoc]
  exact (tracked.begin begins).respond (collectEach_ofResponse each) rfl rfl

theorem Tracked.apply (tracked : Tracked service history running) {op : FrontendOp}
    (returns : running.apply op = .ok (events, ready)) :
    Tracked service (history ++ events) ready := by
  have silent : ∀ event ∈ ([] : List SystemEvent), event.OfResponse :=
    fun _ member => absurd member List.not_mem_nil
  cases apply_cases returns with
  | nothing => exact tracked.respond silent rfl rfl
  | turnedAway => exact tracked.respond silent rfl rfl
  | submitted checks enters => exact tracked.accept enters
  | maintained isMaintenance enters => exact tracked.accept enters
  | injected enters => exact tracked.accept enters
  | ticked ticks => exact tracked.tick ticks
  | collected collects =>
    obtain ⟨⟨_, _, _⟩, each, collects⟩ := bind_eq_ok.mp collects
    cases collects
    exact tracked.respond (collectEach_ofResponse each) rfl rfl
  | popped pops =>
    refine tracked.respond (fun event member => ?_) rfl rfl
    rw [List.mem_singleton.mp member]
    trivial
  | poppedTransaction pops => exact tracked.respond silent rfl rfl

omit [MemoryBackend β] in
theorem create_tracked {spec : DramSpec} {options : MemorySystemOptions}
    {images : Nat → MemoryImage β} {start : RunningSystem β}
    (created : create spec options service images = .ok start) : Tracked service [] start := by
  obtain ⟨routing, makes, created⟩ := bind_eq_ok.mp created
  obtain ⟨controllers, -, created⟩ := bind_eq_ok.mp created
  cases created
  obtain ⟨_, -, made⟩ := bind_eq_ok.mp makes
  cases made
  exact ⟨rfl, Ordered.start service.stackQosPolicy spec options⟩

/-- Two different members of a list stand in it in one order or the other. -/
theorem pair_sublist {handed : List SystemRequest} {first second : SystemRequest}
    (one : first ∈ handed) (other : second ∈ handed) (differ : first ≠ second) :
    [first, second].Sublist handed ∨ [second, first].Sublist handed := by
  obtain ⟨before, behind, rfl⟩ := List.append_of_mem one
  rcases List.mem_append.mp other with earlier | later
  · exact Or.inr ((List.singleton_sublist.mpr earlier).append
      (List.singleton_sublist.mpr List.mem_cons_self))
  · rcases List.mem_cons.mp later with rfl | later
    · exact absurd rfl differ
    · exact Or.inl (List.sublist_append_of_sublist_right
        ((List.singleton_sublist.mpr later).cons_cons first))

/-- Two requests accepted for one stack reach their controllers in the order of their acceptance,
unless the second is of a higher class and classes count. -/
theorem handed_in_order {spec : DramSpec} {options : MemorySystemOptions}
    {images : Nat → MemoryImage β} {start : RunningSystem β} {ops : List FrontendOp}
    {log : List SystemEvent} (created : create spec options service images = .ok start)
    (returns : start.run ops = .ok (log, final)) :
    (handedOf log).Nodup ∧
      ∀ first second, [first, second].Sublist (acceptedOf log) →
        first.targetStack = second.targetStack →
        (service.stackQosPolicy = .strictPriority → second.qosClass ≤ first.qosClass) →
        second ∈ handedOf log → [first, second].Sublist (handedOf log) := by
  have tracked : Tracked service log final :=
    @Transition.run_invariant _ _ _ _ apply (fun _ _ => True) _ _ _ _ (Tracked service)
      (fun _ _ _ _ _ holds _ steps => Tracked.apply holds steps) [] (create_tracked created)
      (Transition.Meets.of_forall fun _ _ _ => trivial) returns
  obtain ⟨-, ordered⟩ := tracked
  refine ⟨ordered.once, fun first second accepted same classes handed => ?_⟩
  have older := List.pairwise_pair.mp (ordered.increasing.sublist accepted)
  have stack : stackOf second = stackOf first := by
    unfold stackOf
    rw [same]
  have waits : ¬ MayPrecede service.stackQosPolicy second first := by
    rintro (younger | ⟨strict, higher⟩)
    · exact Nat.lt_asymm older younger
    · exact Int.not_lt.mpr (classes strict) higher
  have firstHanded : first ∈ handedOf log := by
    rcases ordered.placed first (accepted.subset List.mem_cons_self) with done | waiting
    · exact done
    · exact absurd (ordered.ahead second handed first (stack ▸ waiting)) waits
  have differ : first ≠ second := fun is => Nat.lt_irrefl _ (is ▸ older)
  rcases pair_sublist firstHanded handed differ with inOrder | reversed
  · exact inOrder
  · have reordered := List.pairwise_pair.mp (ordered.inOrder.sublist reversed)
    exact absurd (reordered stack) waits

end Steps

/-! ### Two requests for one byte -/

/-- The two touch a common byte of their stack, and one of them writes. -/
def Conflicts (spec : DramSpec) (first second : SystemRequest) : Prop :=
  (first.type = .write ∨ second.type = .write) ∧
    rangesOverlap first.address (requestDataSize spec first.toRequest) second.address
      (requestDataSize spec second.toRequest) = true

instance (spec : DramSpec) (first second : SystemRequest) :
    Decidable (Conflicts spec first second) :=
  inferInstanceAs (Decidable (_ ∧ _))

/-- A write of the first bytes, and a read of them in a class. -/
def writeThenRead (qosClass : Int) : List FrontendOp :=
  [.submit { Controller.writeAt Controller.twoBanks 1 0 [9, 9, 9, 9] with hostRequestId := 1 },
    .submit { Controller.readAt Controller.twoBanks 2 0 4 with hostRequestId := 2, qosClass },
    .tick]

/-- The first two requests a history accepted, where they conflict on one stack and the second
has been handed out. -/
def conflictHanded (log : List SystemEvent) : Bool :=
  match acceptedOf log with
  | [first, second] => decide (Conflicts Controller.twoBanks first second ∧
      first.targetStack = second.targetStack ∧ second ∈ handedOf log)
  | _ => false

theorem conflictHanded_spec {log : List SystemEvent} (holds : conflictHanded log = true) :
    ∃ first second, acceptedOf log = [first, second] ∧
      Conflicts Controller.twoBanks first second ∧ first.targetStack = second.targetStack ∧
      second ∈ handedOf log := by
  unfold conflictHanded at holds
  split at holds
  next first second accepted => exact ⟨first, second, accepted, of_decide_eq_true holds⟩
  next => exact absurd holds Bool.false_ne_true

theorem handed_in_order_sameClass : ∃ start log final write read,
    create Controller.twoBanks {} {} (fun _ => Controller.imageOf Controller.twoBanks) =
        .ok start ∧
      start.run (writeThenRead 0) = .ok (log, final) ∧ Conflicts Controller.twoBanks write read ∧
      [write, read].Sublist (handedOf log) := by
  obtain ⟨start, log, final, created, returns, checks⟩ :=
    freshRun_of_passes Controller.twoBanks {} (writeThenRead 0)
      (fun result => conflictHanded result.1 &&
        (acceptedOf result.1).all fun request => decide (request.qosClass = 0))
      (by decide +kernel)
  obtain ⟨held, classes⟩ := Bool.and_eq_true_iff.mp checks
  obtain ⟨write, read, accepted, conflict, same, handed⟩ := conflictHanded_spec held
  have zero : ∀ request ∈ acceptedOf log, request.qosClass = 0 :=
    fun request member => of_decide_eq_true (List.all_eq_true.mp classes request member)
  rw [accepted] at zero
  refine ⟨start, log, final, write, read, created, returns, conflict, ?_⟩
  refine (handed_in_order created returns).2 write read (accepted ▸ List.Sublist.refl _) same
    (fun _ => ?_) handed
  rw [zero write List.mem_cons_self, zero read (List.mem_cons_of_mem _ List.mem_cons_self)]

/-- A read of a higher class is handed out before the older write of its bytes. -/
theorem handed_overtaking : ∃ start log final write read,
    create Controller.twoBanks {} {} (fun _ => Controller.imageOf Controller.twoBanks) =
        .ok start ∧
      start.run (writeThenRead 1) = .ok (log, final) ∧ Conflicts Controller.twoBanks write read ∧
      write.targetStack = read.targetStack ∧ [write, read].Sublist (acceptedOf log) ∧
      handedOf log = [read, write] ∧ ¬ [write, read].Sublist (handedOf log) := by
  obtain ⟨start, log, final, created, returns, checks⟩ :=
    freshRun_of_passes Controller.twoBanks {} (writeThenRead 1)
      (fun result => conflictHanded result.1 &&
        decide (handedOf result.1 = (acceptedOf result.1).reverse ∧
          ¬ (acceptedOf result.1).Sublist (handedOf result.1)))
      (by decide +kernel)
  obtain ⟨held, reversed⟩ := Bool.and_eq_true_iff.mp checks
  obtain ⟨write, read, accepted, conflict, same, -⟩ := conflictHanded_spec held
  obtain ⟨order, never⟩ := of_decide_eq_true reversed
  dsimp only at order never
  rw [accepted] at order never
  exact ⟨start, log, final, write, read, created, returns, conflict, same,
    accepted ▸ List.Sublist.refl _, order, never⟩

end RunningSystem

end HbmSim
