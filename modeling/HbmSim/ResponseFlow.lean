/-
What the system hands to its controllers and takes from them. A transaction that
was accepted is in an ingress queue, in a controller or among the responses of
one, and in one of them only.

A transaction is followed by its place in the host request it is a part of. The
controllers keep this place from the acceptance to the response.
-/

import HbmSim.Conservation
import HbmSim.Ingress

namespace HbmSim

/-! ### Tags -/

/-- The place of a transaction in its host request, and whether there is such a place. -/
@[ext]
structure HostTag where
  hostRequestId : Nat
  transactionIndex : Nat
  transactionCount : Nat
  type : RequestType
  placed : Bool
  deriving DecidableEq

def Identity.tag (identity : Identity) : HostTag where
  hostRequestId := identity.hostRequestId
  transactionIndex := identity.transactionIndex
  transactionCount := identity.transactionCount
  type := identity.type
  placed := identity.placed

def Request.tag (request : Request) : HostTag := request.identity.tag

def TransactionResponse.tag (response : TransactionResponse) : HostTag := response.identity.tag

/-- The tags of the reads and writes among some requests. -/
def ordinaryTags (requests : List SystemRequest) : List HostTag :=
  requests.filterMap fun request =>
    if request.type = .maintenance then none else some request.toRequest.tag

/-! ### One controller -/

namespace Controller

variable {β : Type} {c after : Controller β} {request : Request}

/-- The transactions a controller has taken and not answered to the system yet. -/
def outstanding (c : Controller β) : List HostTag :=
  c.traffic.map Request.tag ++ c.responses.map TransactionResponse.tag

/-- The responses to writes carry no data. -/
def Bare (c : Controller β) : Prop :=
  ∀ response ∈ c.responses, response.type ≠ .read →
    response.data = [] ∧ response.initializedMask = []

/-- What the system relies on in a controller. -/
structure Account (history : List ControllerEvent) (c : Controller β) : Prop where
  conserved : Conserved history c
  retains : c.options.retainResponses = true
  bare : Bare c

/-- A controller with some history. -/
def Serving (c : Controller β) : Prop := ∃ history, Account history c

theorem Account.outstanding {history : List ControllerEvent} (account : Account history c) :
    (c.outstanding ++ (respondedOf history).map TransactionResponse.tag).Perm
      ((acceptedTraffic history).map Identity.tag) := by
  have tags := (account.conserved.account account.retains).map Identity.tag
  rw [List.map_append, List.map_append, List.map_append, List.map_map, List.map_map,
    List.map_map] at tags
  unfold Controller.outstanding
  rw [List.append_assoc]
  exact (List.perm_append_comm.append_left _).trans tags

section Steps

variable [MemoryBackend β]

theorem completeWrite_bare {phyCompletion : Option MemPhyCompletion}
    {response : TransactionResponse} {memoryImage : MemoryImage β}
    (completes : c.completeWrite request phyCompletion = .ok (response, memoryImage)) :
    response.data = [] ∧ response.initializedMask = [] := by
  unfold completeWrite at completes
  split at completes
  · cases completes
    exact ⟨rfl, rfl⟩
  · obtain ⟨⟨committed, image⟩, -, completes⟩ := bind_eq_ok.mp completes
    obtain ⟨closed, -, completes⟩ := bind_eq_ok.mp completes
    cases completes
    exact ⟨rfl, rfl⟩

omit [MemoryBackend β] in
theorem Bare.keep (bare : Bare c) {response : TransactionResponse}
    (carries : response.type ≠ .read → response.data = [] ∧ response.initializedMask = []) :
    Bare (c.keepResponse response) := by
  unfold Bare keepResponse
  split
  · intro other member
    rcases List.mem_append.mp member with old | new
    · exact bare other old
    · rw [List.mem_singleton.mp new]
      exact carries
  · exact bare

omit [MemoryBackend β] in
theorem countCompleted_responses (c : Controller β) (type : RequestType) :
    (c.countCompleted type).responses = c.responses := by
  unfold countCompleted
  split <;> rfl

theorem Bare.completeOne {stays : Bool} (bare : Bare c)
    (returns : c.completeOne request = .ok (stays, after)) : Bare after := by
  have counted : ∀ type memPhy memoryImage,
      Bare (({ c with memPhy, memoryImage } : Controller β).countCompleted type) := by
    intro type memPhy memoryImage
    unfold Bare
    rw [countCompleted_responses]
    exact bare
  cases completeOne_cases returns with
  | waits => exact bare
  | read isRead ready completes =>
    refine (counted _ _ _).keep fun other => absurd ?_ other
    rw [(completeRead_answers completes).type, (readiness_completes ready).2]
    exact isRead
  | write isWrite ready completes =>
    exact (counted _ _ _).keep fun _ => completeWrite_bare completes
  | maintenance => exact bare

theorem Bare.completeEach {requests left : List Request} (bare : Bare c)
    (returns : completeEach requests c = .ok (left, after)) : Bare after := by
  induction requests generalizing c left with
  | nil =>
    cases returns
    exact bare
  | cons request rest inductionHypothesis =>
    obtain ⟨⟨stays, middle⟩, one, returns⟩ := bind_eq_ok.mp returns
    obtain ⟨⟨later, final⟩, others, returns⟩ := bind_eq_ok.mp returns
    cases returns
    exact inductionHypothesis (bare.completeOne one) others

theorem bare_kept : Kept (fun _ _ => True) (fun _ _ => True) fun _ (c : Controller β) => c.Bare where
  enqueue history c request accepted after bare _ returns := by
    have prepared := prepareAccept_housekeeping c request
    have same : (c.prepareAccept request).Bare := by
      unfold Bare
      rw [prepared.responses]
      exact bare
    cases enqueue_outcome returns with
    | refused => exact same
    | entered ordinary enters =>
      unfold Bare
      rw [enters.responses]
      exact same
    | maintenance isMaintenance => exact same
  beginTick history c begun bare returns := by
    unfold beginTick completePending at returns
    obtain ⟨⟨memPhy, memoryImage⟩, -, returns⟩ := bind_eq_ok.mp returns
    obtain ⟨⟨left, completed⟩, each, returns⟩ := bind_eq_ok.mp returns
    cases returns
    have begun : Bare ({ c with clk := c.clk + 1, memPhy, memoryImage } : Controller β) := bare
    have finished : Bare completed := begun.completeEach each
    exact finished
  upkeep history c bare _ := by
    unfold Bare
    rw [(upkeep_housekeeping c).responses]
    exact bare
  turn history c bus issued after bare _ returns := by
    unfold Bare
    rw [(turn_cases returns).turnFrame.responses]
    exact bare
  idleLowPower history c bare := by
    unfold Bare
    rw [(idleLowPower_housekeeping c).responses]
    exact bare
  popResponse history c response after bare returns := by
    unfold popResponse at returns
    split at returns
    · cases returns
    next first rest responses =>
      cases returns
      exact fun other member => bare other (responses ▸ List.mem_cons_of_mem _ member)
  flushStorage history c after bare returns := by
    obtain ⟨image, -, returned⟩ := bind_eq_ok.mp returns
    cases returned
    exact bare

variable {history : List ControllerEvent} {events : List ControllerEvent} {op : ControllerOp}

theorem Account.apply (account : Account history c) (returns : c.apply op = .ok (events, after)) :
    Account (history ++ events) after := by
  have meets : OpMeets (fun _ _ => True) (fun _ _ => True) c op :=
    (runMeets_of_forall (fun _ _ => trivial) (fun _ _ => trivial) c [op]).1
  have configured := @Staged.apply β _ _ _ _ history c after _
    (configuration_kept c.spec c.options c.requestQueues.limit) op events ⟨rfl, rfl, rfl⟩ meets
    returns
  refine ⟨conserved_kept.apply account.conserved meets returns, ?_,
    @Staged.apply β _ _ _ _ history c after _ bare_kept op events account.bare meets returns⟩
  rw [configured.2.1]
  exact account.retains

omit [MemoryBackend β] in
/-- The memory image does not matter to the account. -/
theorem Serving.withImage (serving : Serving c) (memoryImage : MemoryImage β) :
    Serving { c with memoryImage } := by
  obtain ⟨history, conserved, retains, bare⟩ := serving
  exact ⟨history, ⟨⟨conserved.kinds.read, conserved.kinds.write, conserved.kinds.active,
    conserved.kinds.pending, conserved.kinds.maintenance⟩, conserved.fresh, conserved.distinct,
    conserved.balance, conserved.account, conserved.silent⟩, retains, bare⟩

omit [MemoryBackend β] in
/-- What two accounts with the same answers differ by is what was accepted between them. -/
theorem Account.difference (account : Account history c)
    (next : Account (history ++ events) after)
    (silent : respondedOf (history ++ events) = respondedOf history)
    {entered : List Identity}
    (accepted : acceptedTraffic (history ++ events) = acceptedTraffic history ++ entered) :
    after.outstanding.Perm (entered.map Identity.tag ++ c.outstanding) := by
  have before := account.outstanding
  have later := next.outstanding
  rw [silent, accepted, List.map_append] at later
  rw [List.perm_iff_count] at before later ⊢
  intro tag
  have earlier := before tag
  have since := later tag
  rw [List.count_append] at earlier
  rw [List.count_append, List.count_append, ← earlier] at since
  rw [List.count_append]
  omega

/-- An offer adds the tag of an accepted read or write to what is outstanding. -/
theorem Serving.enqueue {accepted : Bool} (serving : Serving c)
    (returns : c.enqueue request = .ok (accepted, after)) :
    Serving after ∧ after.outstanding.Perm
      ((if accepted = true ∧ request.type ≠ .maintenance then [request.tag] else []) ++
        c.outstanding) := by
  obtain ⟨history, account⟩ := serving
  have applied : c.apply (.enqueue request) = .ok (c.acceptance accepted request, after) := by
    dsimp only [Controller.apply]
    rw [returns]
    rfl
  have next := account.apply applied
  refine ⟨⟨_, next⟩, ?_⟩
  have silent : respondedOf (history ++ c.acceptance accepted request) = respondedOf history := by
    unfold respondedOf acceptance
    rw [List.filterMap_append]
    cases accepted <;> exact List.append_nil _
  cases accepted with
  | false =>
    have nothing : acceptedTraffic (history ++ c.acceptance false request) =
        acceptedTraffic history ++ [] :=
      congrArg acceptedTraffic (List.append_nil history) |>.trans (List.append_nil _).symm
    rw [if_neg (fun both => Bool.false_ne_true both.1)]
    exact account.difference next silent nothing
  | true =>
    by_cases isMaintenance : request.type = .maintenance
    · have nothing : acceptedTraffic (history ++ c.acceptance true request) =
          acceptedTraffic history ++ [] := by
        unfold acceptedTraffic acceptance
        rw [List.filterMap_append]
        simp [isMaintenance]
      rw [if_neg (fun both => both.2 isMaintenance)]
      exact account.difference next silent nothing
    · have entered : acceptedTraffic (history ++ c.acceptance true request) =
          acceptedTraffic history ++
            [({ request with controllerSequence := c.nextControllerSequence }).identity] := by
        unfold acceptedTraffic acceptance
        rw [List.filterMap_append]
        simp [isMaintenance]
      rw [if_pos ⟨rfl, isMaintenance⟩]
      exact account.difference next silent entered

theorem Serving.tick {issued : List IssuedCommand} (serving : Serving c)
    (returns : c.tick = .ok (issued, after)) :
    Serving after ∧ after.outstanding.Perm c.outstanding := by
  obtain ⟨history, account⟩ := serving
  have applied : c.apply .tick = .ok (issued.map .issued, after) := by
    dsimp only [Controller.apply]
    rw [returns]
    rfl
  have next := account.apply applied
  refine ⟨⟨_, next⟩, ?_⟩
  have accepted : acceptedTraffic (history ++ issued.map .issued) =
      acceptedTraffic history ++ [] := by
    rw [acceptedTraffic_issued, List.append_nil]
  exact account.difference next (respondedOf_issued history issued) accepted

/-- Taking responses from the front of a controller's queue. -/
theorem Serving.collect {taken left : List TransactionResponse} (serving : Serving c)
    (responses : c.responses = taken ++ left) :
    Serving { c with responses := left } ∧
      c.outstanding.Perm (taken.map TransactionResponse.tag ++
        outstanding { c with responses := left }) := by
  refine ⟨?_, ?_⟩
  · induction taken generalizing c with
    | nil =>
      have same : { c with responses := left } = c := by rw [← List.nil_append left, ← responses]
      rw [same]
      exact serving
    | cons response rest inductionHypothesis =>
      have pops : c.popResponse = .ok (response, { c with responses := rest ++ left }) := by
        unfold popResponse
        rw [responses]
        rfl
      have applied : c.apply .popResponse =
          .ok ([.responded response], { c with responses := rest ++ left }) := by
        dsimp only [Controller.apply]
        rw [pops]
        rfl
      obtain ⟨history, account⟩ := serving
      have next : Serving ({ c with responses := rest ++ left } : Controller β) :=
        ⟨_, account.apply applied⟩
      have later := inductionHypothesis next rfl
      exact later
  · unfold outstanding
    rw [responses, List.map_append, ← List.append_assoc, ← List.append_assoc]
    exact List.perm_append_comm.append_right _

end Steps

end Controller

/-! ### The whole system -/

/-- A part of a list is replaced by one that brings more. -/
theorem flatMap_set_perm {α γ : Type} {list : List α} {index : Nat} {old new : α}
    {part : α → List γ} {extra : List γ} (found : list[index]? = some old)
    (brings : (part new).Perm (extra ++ part old)) :
    ((list.set index new).flatMap part).Perm (extra ++ list.flatMap part) := by
  induction list generalizing index with
  | nil => exact nomatch found
  | cons first rest inductionHypothesis =>
    cases index with
    | zero =>
      obtain rfl := Option.some.inj found
      rw [List.set_cons_zero, List.flatMap_cons, List.flatMap_cons, ← List.append_assoc]
      exact brings.append_right _
    | succ index =>
      rw [List.set_cons_succ, List.flatMap_cons, List.flatMap_cons]
      refine ((inductionHypothesis found).append_left _).trans ?_
      rw [← List.append_assoc, ← List.append_assoc]
      exact List.perm_append_comm.append_right _

namespace RunningSystem

variable {β : Type} {system ready : RunningSystem β} {request : SystemRequest}

/-- Every controller is in order. -/
def AllServing (system : RunningSystem β) : Prop := ∀ c ∈ system.controllers, c.Serving

/-- The transactions the controllers have. -/
def held (system : RunningSystem β) : List HostTag :=
  system.controllers.flatMap Controller.outstanding

/-- The transactions on their way, given what was accepted and handed out so far. -/
def flight (accepted handed : List SystemRequest) (system : RunningSystem β) : List HostTag :=
  ordinaryTags (accepted.diff handed) ++ system.held

theorem AllServing.controllerAt (serving : AllServing system) {index : Nat} {c : Controller β}
    (found : system.controllerAt index = some c) :
    c.Serving ∧ ∃ kept, system.controllers[index]? = some kept ∧
      c.outstanding = kept.outstanding := by
  obtain ⟨kept, there, rfl⟩ := Option.map_eq_some_iff.mp found
  exact ⟨(serving kept (List.mem_of_getElem? there)).withImage _, kept, there, rfl⟩

theorem AllServing.settle (serving : AllServing system) {index : Nat} {after : Controller β}
    (serves : after.Serving) : AllServing (system.settle index after) := by
  intro c member
  rcases List.mem_or_eq_of_mem_set member with old | rfl
  · exact serving c old
  · exact serves

variable [MemoryBackend β]

theorem AllServing.offer (serving : AllServing system) {index : Nat} {taken : Bool}
    (offers : system.offer index request = .ok (taken, ready)) :
    AllServing ready ∧ ready.held.Perm
      ((if taken = true ∧ request.type ≠ .maintenance then [request.toRequest.tag] else []) ++
        system.held) := by
  unfold RunningSystem.offer at offers
  split at offers
  · cases offers
  next c found =>
    obtain ⟨⟨accepted, after⟩, enqueues, offers⟩ := bind_eq_ok.mp offers
    cases offers
    obtain ⟨serves, kept, there, same⟩ := serving.controllerAt found
    obtain ⟨still, brings⟩ := serves.enqueue enqueues
    rw [same] at brings
    exact ⟨serving.settle still, flatMap_set_perm there brings⟩

theorem AllServing.tickControllers (serving : AllServing system) {indices : List Nat}
    (ticks : RunningSystem.tickControllers indices system = .ok ready) :
    AllServing ready ∧ ready.held.Perm system.held := by
  induction indices generalizing system with
  | nil =>
    cases ticks
    exact ⟨serving, List.Perm.refl _⟩
  | cons index rest inductionHypothesis =>
    unfold RunningSystem.tickControllers at ticks
    split at ticks
    · cases ticks
    next c found =>
      obtain ⟨⟨issued, after⟩, one, ticks⟩ := bind_eq_ok.mp ticks
      obtain ⟨serves, kept, there, same⟩ := serving.controllerAt found
      obtain ⟨still, moves⟩ := serves.tick one
      obtain ⟨all, others⟩ := inductionHypothesis (serving.settle still) ticks
      rw [same, ← List.nil_append kept.outstanding] at moves
      exact ⟨all, others.trans (flatMap_set_perm there moves)⟩

/-! ### Dispatch -/

theorem ordinaryTags_cons (request : SystemRequest) (rest : List SystemRequest) :
    ordinaryTags (request :: rest) =
      (if request.type = .maintenance then [] else [request.toRequest.tag]) ++
        ordinaryTags rest := by
  unfold ordinaryTags
  rw [List.filterMap_cons]
  split <;> simp_all

theorem ordinaryTags_perm {first second : List SystemRequest} (perm : first.Perm second) :
    (ordinaryTags first).Perm (ordinaryTags second) :=
  perm.filterMap _

/-- What is handed out waits no longer. -/
theorem waiting_hand {accepted handed : List SystemRequest} (known : request ∈ accepted)
    (apart : request ∉ handed) :
    (accepted.diff handed).Perm (request :: accepted.diff (handed ++ [request])) := by
  rw [List.diff_append, List.diff_cons, List.diff_nil]
  exact List.perm_cons_erase (List.mem_diff_of_mem known apart)

/-- What is accepted waits. -/
theorem waiting_accept {accepted handed : List SystemRequest} (fresh : request ∉ handed) :
    ((accepted ++ [request]).diff handed).Perm (request :: accepted.diff handed) := by
  rw [← List.cons_diff_of_not_mem fresh]
  exact (List.perm_append_singleton _ _).diff_right handed

variable {service : ServiceOptions} {accepted handed : List SystemRequest} {tags : List HostTag}

/-- The account of the ingress, with the transactions that are on their way. -/
def Flowing (service : ServiceOptions) (accepted handed : List SystemRequest)
    (tags : List HostTag) (system : RunningSystem β) : Prop :=
  Accounted service accepted handed system ∧ AllServing system ∧
    (flight accepted handed system).Perm tags

theorem Flowing.hands (handed : List SystemRequest) :
    HandsOut fun now (system : RunningSystem β) =>
      Flowing service accepted (handed ++ now) tags system := by
  rintro now system stack request offered ⟨accounted, serving, flows⟩ found offers
  refine ⟨Accounted.hands handed _ _ _ _ _ accounted found offers, ?_⟩
  obtain ⟨still, brings⟩ := serving.offer offers
  refine ⟨still, List.Perm.trans ?_ flows⟩
  obtain ⟨rfl, ordered⟩ := accounted
  have member : request ∈ system.stackIngressQueues stack := List.mem_of_getElem? found
  have known : request ∈ accepted := (ordered.waiting stack).subset member
  have apart : request ∉ handed ++ now := fun listed =>
    ordered.apart request listed (ordered.bound stack request member ▸ member)
  have moved := ordinaryTags_perm (waiting_hand known apart)
  rw [ordinaryTags_cons] at moved
  unfold flight
  refine ((brings.append_left _).trans ?_).trans (moved.symm.append_right _)
  rw [← List.append_assoc, ← List.append_assoc]
  refine List.Perm.append_right _ ?_
  by_cases isMaintenance : request.type = .maintenance
  · rw [if_neg (fun both => both.2 isMaintenance), if_pos isMaintenance, List.append_nil]
    exact List.Perm.refl _
  · rw [if_pos ⟨rfl, isMaintenance⟩, if_neg isMaintenance]
    exact List.perm_append_comm

theorem Flowing.refuses (handed : List SystemRequest) :
    IsRefused fun now (system : RunningSystem β) =>
      Flowing service accepted (handed ++ now) tags system := by
  rintro now system index request offered ⟨accounted, serving, flows⟩ offers
  obtain ⟨still, brings⟩ := serving.offer offers
  rw [if_neg (fun both => Bool.false_ne_true both.1), List.nil_append] at brings
  exact ⟨Accounted.refuses handed _ _ _ _ _ accounted offers, still,
    (brings.append_left _).trans flows⟩

/-- Up to the collection of the responses a tick moves transactions and keeps all of them. -/
theorem Flowing.begin (flowing : Flowing service accepted handed tags system)
    {now : List SystemRequest} (begins : system.beginTick = .ok (now, ready)) :
    Flowing service accepted (handed ++ now) tags ready := by
  obtain ⟨⟨given, dispatched⟩, dispatches, begins⟩ := bind_eq_ok.mp begins
  obtain ⟨ticked, ticks, begins⟩ := bind_eq_ok.mp begins
  cases begins
  rw [← List.append_nil handed] at flowing
  have after := dispatchStacks_keeps (Flowing.hands handed) (Flowing.refuses handed) flowing
    dispatches
  obtain ⟨accounted, serving, flows⟩ := after
  obtain ⟨still, moves⟩ := serving.tickControllers ticks
  refine ⟨?_, still, (moves.append_left _).trans flows⟩
  rw [tickControllers_eq ticks]
  exact accounted

end RunningSystem

end HbmSim
