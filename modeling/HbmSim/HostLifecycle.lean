/-
The life of a host request, from its first transaction to the handshake of its
response. Its transactions come in one by one and come back in any order; when
the last one is back the response is published, and the tag is free again when
the frontend takes it.

The lifecycle speaks of the events of one host tag. The registry, the assembly
table and the response queue of the system are what it looks like in each phase.
-/

import HbmSim.ResponseFlow

namespace HbmSim

/-! ### The lifecycle -/

/-- A host request under way: which of its transactions were accepted, and what is back of them. -/
structure HostUse where
  transactionCount : Nat
  type : RequestType
  accepted : List Bool
  results : List (Option TransactionResponse)

def HostUse.start (request : SystemRequest) : HostUse where
  transactionCount := request.transactionCount
  type := request.type
  accepted := (List.replicate request.transactionCount false).set 0 true
  results := List.replicate request.transactionCount none

def HostUse.accept (use : HostUse) (index : Nat) : HostUse :=
  { use with accepted := use.accepted.set index true }

def HostUse.record (use : HostUse) (response : TransactionResponse) : HostUse :=
  { use with results := use.results.set response.transactionIndex (some response) }

inductive HostPhase
  | idle
  | filling (use : HostUse)
  | answered (response : HostResponse)

/-- The response puts the transactions together in their order. -/
structure Assembles (transactions : List TransactionResponse) (host : HostResponse) : Prop where
  places : ∀ (index : Nat) (response : TransactionResponse), transactions[index]? = some response →
    response.transactionIndex = index ∧ response.hostRequestId = host.hostRequestId ∧
      response.type = host.type ∧ response.status ≠ .invalidTransaction
  listed : host.transactions = transactions
  transactionCount : host.transactionCount = transactions.length
  data : host.data = transactions.flatMap TransactionResponse.data
  initializedMask : host.initializedMask = transactions.flatMap TransactionResponse.initializedMask
  status : host.status =
    (transactions.map TransactionResponse.status).foldl mergeResponseStatus .ok

/-- What may happen to a host request. -/
inductive HostStep : HostPhase → SystemEvent → HostPhase → Prop
  | first {request : SystemRequest} (leads : request.transactionIndex = 0)
      (splits : 0 < request.transactionCount) :
      HostStep .idle (.accepted request) (.filling (.start request))
  | another {use : HostUse} {request : SystemRequest}
      (count : request.transactionCount = use.transactionCount) (type : request.type = use.type)
      (new : use.accepted[request.transactionIndex]? = some false) :
      HostStep (.filling use) (.accepted request) (.filling (use.accept request.transactionIndex))
  | result {use : HostUse} {response : TransactionResponse}
      (awaited : use.accepted[response.transactionIndex]? = some true)
      (missing : use.results[response.transactionIndex]? = some none) :
      HostStep (.filling use) (.collected response) (.filling (use.record response))
  | publish {use : HostUse} {transactions : List TransactionResponse} {host : HostResponse}
      (complete : use.results = transactions.map some) (assembles : Assembles transactions host) :
      HostStep (.filling use) (.published host) (.answered host)
  | pop {host : HostResponse} : HostStep (.answered host) (.popped host) .idle

/-- The host request an event is about. Maintenance is no part of one. -/
def SystemEvent.about : SystemEvent → Option Nat
  | .accepted request =>
    if request.type = .maintenance then none else some request.hostRequestId
  | .handed _ => none
  | .collected response => some response.hostRequestId
  | .published response => some response.hostRequestId
  | .popped response => some response.hostRequestId

/-- The events of a host tag lead it to a phase. -/
inductive Lifecycle (host : Nat) : List SystemEvent → HostPhase → Prop
  | new : Lifecycle host [] .idle
  | other {log : List SystemEvent} {phase : HostPhase} {event : SystemEvent}
      (earlier : Lifecycle host log phase) (apart : event.about ≠ some host) :
      Lifecycle host (log ++ [event]) phase
  | step {log : List SystemEvent} {phase next : HostPhase} {event : SystemEvent}
      (earlier : Lifecycle host log phase) (concerns : event.about = some host)
      (steps : HostStep phase event next) : Lifecycle host (log ++ [event]) next

/-- Events about other tags do not matter. -/
theorem Lifecycle.others {host : Nat} {log events : List SystemEvent} {phase : HostPhase}
    (earlier : Lifecycle host log phase) (apart : ∀ event ∈ events, event.about ≠ some host) :
    Lifecycle host (log ++ events) phase := by
  induction events generalizing log with
  | nil =>
    rw [List.append_nil]
    exact earlier
  | cons event rest inductionHypothesis =>
    rw [List.append_cons]
    exact inductionHypothesis (earlier.other (apart event List.mem_cons_self))
      fun later member => apart later (List.mem_cons_of_mem _ member)

/-- The transaction a phase waits for. -/
def HostPhase.Awaits : HostPhase → HostTag → Prop
  | .filling use, tag => tag.transactionCount = use.transactionCount ∧ tag.type = use.type ∧
      tag.placed = true ∧ use.accepted[tag.transactionIndex]? = some true ∧
      use.results[tag.transactionIndex]? = some none
  | _, _ => False

/-- Every transaction of the host request was accepted. -/
def HostPhase.AllAccepted : HostPhase → Prop
  | .idle => False
  | .filling use => ∀ index < use.transactionCount, use.accepted[index]? = some true
  | .answered _ => True

/-! ### Putting a response together -/

namespace Delivery

variable {response : TransactionResponse} {transactions : List TransactionResponse}

/-- What building a response has made of the transactions so far. -/
structure Built (id : Nat) (type : RequestType) (built : List TransactionResponse)
    (host : HostResponse) : Prop where
  transactions : host.transactions = built
  data : host.data = built.flatMap TransactionResponse.data
  initializedMask : host.initializedMask = built.flatMap TransactionResponse.initializedMask
  status : host.status = (built.map TransactionResponse.status).foldl mergeResponseStatus .ok
  named : built ≠ [] → host.hostRequestId = id ∧ host.type = type

/-- A transaction of the host request, as far as the response depends on it. -/
structure PartOf (id : Nat) (type : RequestType) (response : TransactionResponse) : Prop where
  hostRequestId : response.hostRequestId = id
  type : response.type = type
  bare : response.type ≠ .read → response.data = [] ∧ response.initializedMask = []

theorem addTransaction_lists (host : HostResponse) (response : TransactionResponse) :
    (addTransaction host response).transactions = host.transactions ++ [response] ∧
      (addTransaction host response).data =
        (if response.type = .read then host.data ++ response.data else host.data) ∧
      (addTransaction host response).initializedMask =
        (if response.type = .read then host.initializedMask ++ response.initializedMask
          else host.initializedMask) ∧
      (addTransaction host response).transactionCount = host.transactionCount := by
  unfold addTransaction
  dsimp only
  split <;> exact ⟨rfl, rfl, rfl, rfl⟩

theorem Built.add {id : Nat} {type : RequestType} {built : List TransactionResponse}
    {host : HostResponse} (holds : Built id type built host) (part : PartOf id type response) :
    Built id type (built ++ [response]) (addTransaction host response) := by
  obtain ⟨listed, data, mask, -⟩ := addTransaction_lists host response
  have carried : (addTransaction host response).data = host.data ++ response.data ∧
      (addTransaction host response).initializedMask =
        host.initializedMask ++ response.initializedMask := by
    rw [data, mask]
    by_cases isRead : response.type = .read
    · rw [if_pos isRead, if_pos isRead]
      exact ⟨rfl, rfl⟩
    · obtain ⟨noData, noMask⟩ := part.bare isRead
      rw [if_neg isRead, if_neg isRead, noData, noMask, List.append_nil, List.append_nil]
      exact ⟨rfl, rfl⟩
  have named : (addTransaction host response).hostRequestId = id ∧
      (addTransaction host response).type = type ∧
      (addTransaction host response).status = mergeResponseStatus host.status response.status := by
    unfold addTransaction
    by_cases first : host.transactions = []
    · dsimp only
      rw [if_pos first]
      exact ⟨part.hostRequestId, part.type, rfl⟩
    · obtain ⟨same, sameType⟩ := holds.named (holds.transactions ▸ first)
      dsimp only
      rw [if_neg first]
      dsimp only
      rw [if_neg (not_not.mpr (sameType.trans part.type.symm))]
      exact ⟨same, sameType, rfl⟩
  refine ⟨?_, ?_, ?_, ?_, fun _ => ⟨named.1, named.2.1⟩⟩
  · rw [listed, holds.transactions]
  · rw [carried.1, holds.data, List.flatMap_append]
    exact congrArg _ (List.append_nil _).symm
  · rw [carried.2, holds.initializedMask, List.flatMap_append]
    exact congrArg _ (List.append_nil _).symm
  · rw [named.2.2, List.map_append, List.foldl_append, holds.status]
    rfl

theorem Built.addAll {id : Nat} {type : RequestType} {built : List TransactionResponse}
    {host : HostResponse} (holds : Built id type built host)
    (parts : ∀ response ∈ transactions, PartOf id type response) :
    Built id type (built ++ transactions) ((transactions.map some).foldl addItem host) ∧
      ((transactions.map some).foldl addItem host).transactionCount = host.transactionCount := by
  induction transactions generalizing built host with
  | nil =>
    rw [List.append_nil]
    exact ⟨holds, rfl⟩
  | cons response rest inductionHypothesis =>
    rw [List.append_cons]
    obtain ⟨built, count⟩ := inductionHypothesis (holds.add (parts response List.mem_cons_self))
      fun other member => parts other (List.mem_cons_of_mem _ member)
    exact ⟨built, count.trans (addTransaction_lists host response).2.2.2⟩

/-- A complete assembly is put together in the order of its places. -/
theorem buildHostResponse_assembles {id : Nat} {type : RequestType} {assembly : HostAssembly}
    (complete : assembly.transactions = transactions.map some)
    (count : assembly.transactionCount = transactions.length) (some : transactions ≠ [])
    (parts : ∀ response ∈ transactions, PartOf id type response)
    (placed : ∀ (index : Nat) (response : TransactionResponse),
      transactions[index]? = .some response →
      response.transactionIndex = index ∧ response.status ≠ .invalidTransaction) :
    (buildHostResponse assembly).hostRequestId = id ∧
      Assembles transactions (buildHostResponse assembly) := by
  have empty : Built id type [] {
      transactionCount := assembly.transactionCount
      forwarded := true
      coalesced := true
      arrivalCycle := uint64Max
      firstIssuedCycle := uint64Max } :=
    ⟨rfl, rfl, rfl, rfl, fun other => absurd rfl other⟩
  obtain ⟨built, counted⟩ := empty.addAll parts
  rw [List.nil_append, ← complete] at built
  rw [← complete] at counted
  obtain ⟨named, typed⟩ := built.named some
  refine ⟨named, ?_, built.transactions, counted.trans count, built.data, built.initializedMask,
    built.status⟩
  intro index response there
  have part := parts response (List.mem_of_getElem? there)
  exact ⟨(placed index response there).1, part.hostRequestId.trans named.symm,
    part.type.trans typed.symm, (placed index response there).2⟩

/-! ### What a phase looks like -/

/-- What is back of a host request is part of it and was accepted. -/
structure Sound (id : Nat) (use : HostUse) : Prop where
  accepted : use.accepted.length = use.transactionCount
  results : use.results.length = use.transactionCount
  back : ∀ (index : Nat) (response : TransactionResponse),
    use.results[index]? = some (some response) → use.accepted[index]? = some true ∧
      response.transactionIndex = index ∧ response.status ≠ .invalidTransaction ∧
      PartOf id use.type response

def received (use : HostUse) : Nat := use.results.countP Option.isSome

/-- The responses to a host tag that the frontend has not taken. -/
def queued (delivery : Delivery) (id : Nat) : List HostResponse :=
  delivery.hostResponses.filter fun response => decide (response.hostRequestId = id)

/-- The registry, the assemblies and the response queue show a host tag in a phase. -/
def Agrees (delivery : Delivery) (id : Nat) : HostPhase → Prop
  | .idle => delivery.hostSubmissions id = none ∧ delivery.hostAssemblies id = none ∧
      delivery.queued id = []
  | .filling use => Sound id use ∧ received use < use.transactionCount ∧
      delivery.hostSubmissions id = some {
        transactionCount := use.transactionCount
        type := use.type
        accepted := use.accepted
        completed := received use } ∧
      delivery.hostAssemblies id = (if received use = 0 then none else some {
        transactionCount := use.transactionCount
        transactions := use.results
        received := received use }) ∧
      delivery.queued id = []
  | .answered host => (∃ submission, delivery.hostSubmissions id = some submission ∧
      submission.transactionCount ≤ submission.completed ∧
      ∀ index < submission.transactionCount, submission.accepted[index]? = some true) ∧
      delivery.hostAssemblies id = none ∧ delivery.queued id = [host]

variable {delivery after : Delivery} {id : Nat} {phase : HostPhase}

/-- A phase is seen in what belongs to its tag. -/
theorem Agrees.congr (agrees : Agrees delivery id phase)
    (submissions : after.hostSubmissions id = delivery.hostSubmissions id)
    (assemblies : after.hostAssemblies id = delivery.hostAssemblies id)
    (queue : after.queued id = delivery.queued id) : Agrees after id phase := by
  cases phase <;> unfold Agrees at * <;> rw [submissions, assemblies, queue] <;> exact agrees

/-! ### Submission -/

section Submission

variable {request : Request} {routed : SystemRequest}

/-- The accepted request names the same part of the same host request. -/
structure SamePart (request : Request) (routed : SystemRequest) : Prop where
  type : routed.type = request.type
  hostRequestId : routed.hostRequestId = request.hostRequestId
  transactionIndex : routed.transactionIndex = request.transactionIndex
  transactionCount : routed.transactionCount = request.transactionCount

theorem checkSubmission_spec (checks : delivery.checkSubmission request = .ok ()) :
    request.type ≠ .maintenance ∧ request.transactionIndex < request.transactionCount ∧
      (delivery.hostSubmissions request.hostRequestId = none → request.transactionIndex = 0) ∧
      ∀ host, delivery.hostSubmissions request.hostRequestId = some host →
        host.transactionCount = request.transactionCount ∧ host.type = request.type ∧
          host.accepted[request.transactionIndex]? ≠ some true := by
  obtain ⟨_, ordinary, rest⟩ := bind_eq_ok.mp checks
  obtain ⟨_, splits, rest⟩ := bind_eq_ok.mp rest
  rw [throwIf_eq_ok] at ordinary splits
  refine ⟨ordinary, by omega, fun new => ?_, fun host registered => ?_⟩
  · rw [new] at rest
    exact not_not.mp (throwIf_eq_ok.mp rest)
  · rw [registered] at rest
    have allowed := throwIf_eq_ok.mp rest
    simp only [not_or, ne_eq, not_not] at allowed
    exact allowed

/-- The responses are put together for the frontend, or none is on its way before the first
submission, which has them put together. -/
def Delivers (delivery : Delivery) (tags : List HostTag) : Prop :=
  delivery.mode = .hostOnly ∨ delivery.mode = .both ∨ delivery.mode = .disabled ∧ tags = []

theorem Delivers.enabled {tag : HostTag} {tags : List HostTag}
    (delivers : Delivers delivery (tag :: tags)) :
    delivery.mode = .hostOnly ∨ delivery.mode = .both :=
  delivers.imp_right fun rest => rest.resolve_right fun none => List.cons_ne_nil _ _ none.2

theorem Delivers.enableHost {tags : List HostTag} (delivers : Delivers delivery tags) :
    delivery.enableHost.mode = .hostOnly ∨ delivery.enableHost.mode = .both := by
  unfold Delivery.enableHost
  split
  next => exact Or.inl rfl
  next on => exact delivers.imp_right fun rest => rest.resolve_right fun off => on off.1

/-- Putting the responses together changes no account. -/
theorem Agrees.enableHost {id : Nat} (agrees : Agrees delivery id phase) :
    Agrees delivery.enableHost id phase := by
  unfold Delivery.enableHost
  split
  · exact agrees.congr rfl rfl rfl
  · exact agrees

theorem checkSubmission_enableHost :
    delivery.enableHost.checkSubmission request = delivery.checkSubmission request := by
  unfold enableHost
  split <;> rfl

theorem tag_placed (splits : request.transactionIndex < request.transactionCount) :
    request.tag = {
      hostRequestId := request.hostRequestId
      transactionIndex := request.transactionIndex
      transactionCount := request.transactionCount
      type := request.type
      placed := true } := by
  have count : max 1 request.transactionCount = request.transactionCount :=
    Nat.max_eq_right (Nat.lt_of_le_of_lt (Nat.zero_le _) splits)
  have placed : decide (request.transactionCount ≠ 0 ∧
      request.transactionIndex < request.transactionCount) = true :=
    decide_eq_true ⟨Nat.ne_of_gt (Nat.lt_of_le_of_lt (Nat.zero_le _) splits), splits⟩
  unfold Request.tag Identity.tag Request.identity
  dsimp only
  rw [count, placed]

theorem start_sound (splits : 0 < routed.transactionCount) : Sound id (.start routed) ∧
    received (.start routed) = 0 ∧ (HostUse.start routed).accepted[0]? = some true := by
  have none : ∀ (index : Nat) (response : TransactionResponse),
      (HostUse.start routed).results[index]? ≠ some (some response) := by
    intro index response there
    have member := List.mem_of_getElem? there
    exact nomatch List.eq_of_mem_replicate member
  refine ⟨⟨?_, ?_, fun index response there => absurd there (none index response)⟩, ?_, ?_⟩
  · exact (List.length_set ..).trans List.length_replicate
  · exact List.length_replicate
  · unfold received HostUse.start
    rw [List.countP_replicate]
    rfl
  · refine List.getElem?_set_self ?_
    rwa [List.length_replicate]

theorem accept_sound {use : HostUse} (sound : Sound id use) (index : Nat) :
    Sound id (use.accept index) where
  accepted := (List.length_set ..).trans sound.accepted
  results := sound.results
  back place response there := by
    obtain ⟨accepted, rest⟩ := sound.back place response there
    refine ⟨?_, rest⟩
    show (use.accepted.set index true)[place]? = some true
    rw [List.getElem?_set]
    split
    · next same =>
      obtain ⟨inRange, -⟩ := List.getElem?_eq_some_iff.mp accepted
      subst same
      rw [if_pos inRange]
    · exact accepted

/-- An accepted transaction is one more the host request waits for. -/
theorem Agrees.submit (agrees : Agrees delivery request.hostRequestId phase)
    (checks : delivery.checkSubmission request = .ok ()) (same : SamePart request routed) :
    ∃ next, HostStep phase (.accepted routed) next ∧
      Agrees (delivery.recordSubmitted request) request.hostRequestId next ∧
      ¬ phase.Awaits request.tag ∧
      ∀ tag, tag.hostRequestId = request.hostRequestId →
        (next.Awaits tag ↔ tag = request.tag ∨ phase.Awaits tag) := by
  obtain ⟨-, splits, leads, registered⟩ := checkSubmission_spec checks
  have named := tag_placed splits
  cases phase with
  | answered host =>
    obtain ⟨⟨submission, there, -, all⟩, -, -⟩ := agrees
    obtain ⟨count, -, fresh⟩ := registered submission there
    exact absurd (all _ (count ▸ splits)) fresh
  | idle =>
    obtain ⟨free, noAssembly, noResponse⟩ := agrees
    have first := leads free
    have positive : 0 < routed.transactionCount := by
      rw [same.transactionCount]
      exact Nat.lt_of_le_of_lt (Nat.zero_le _) splits
    have started : Sound request.hostRequestId (.start routed) ∧ _ := start_sound positive
    obtain ⟨sound, nothing, accepted⟩ := started
    refine ⟨.filling (.start routed), .first (same.transactionIndex.trans first) positive,
      ⟨sound, nothing ▸ positive, ?_, ?_, noResponse⟩, fun awaits => awaits, fun tag host => ?_⟩
    · unfold recordSubmitted
      dsimp only
      rw [Function.update_self, free, Option.getD_none, first, nothing]
      unfold HostUse.start
      rw [same.transactionCount, same.type]
    · rw [if_pos nothing]
      exact noAssembly
    · refine ⟨fun awaits => Or.inl ?_, ?_⟩
      · obtain ⟨count, type, placed, taken, -⟩ := awaits
        have leading : tag.transactionIndex = 0 := by
          by_contra later
          have blank : (List.replicate routed.transactionCount false)[tag.transactionIndex]? =
              some true := (List.getElem?_set_ne (Ne.symm later)).symm.trans taken
          exact nomatch List.eq_of_mem_replicate (List.mem_of_getElem? blank)
        rw [named]
        exact HostTag.ext host (leading.trans first.symm) (count.trans same.transactionCount)
          (type.trans same.type) placed
      · rintro (rfl | never)
        · rw [named]
          refine ⟨same.transactionCount.symm, same.type.symm, rfl, ?_, ?_⟩
          · rw [first]
            exact accepted
          · rw [first]
            exact List.getElem?_replicate_of_lt positive
        · exact never.elim
  | filling use =>
    obtain ⟨sound, under, there, assembly, noResponse⟩ := agrees
    obtain ⟨count, type, fresh⟩ := registered _ there
    dsimp only at count type fresh
    have inRange : request.transactionIndex < use.accepted.length := by
      rw [sound.accepted, count]
      exact splits
    have unaccepted : use.accepted[request.transactionIndex]? = some false := by
      rw [List.getElem?_eq_getElem inRange] at fresh ⊢
      cases value : use.accepted[request.transactionIndex] with
      | false => rfl
      | true => exact absurd (congrArg some value) fresh
    have unanswered : use.results[request.transactionIndex]? = some none := by
      have within : request.transactionIndex < use.results.length := by
        rw [sound.results, count]
        exact splits
      rw [List.getElem?_eq_getElem within]
      cases value : use.results[request.transactionIndex] with
      | none => rfl
      | some response =>
        have back := sound.back request.transactionIndex response
          (by rw [List.getElem?_eq_getElem within, value])
        exact absurd back.1 fresh
    refine ⟨.filling (use.accept request.transactionIndex), ?_,
      ⟨accept_sound sound _, under, ?_, assembly, noResponse⟩, ?_, fun tag host => ?_⟩
    · rw [← same.transactionIndex] at unaccepted ⊢
      exact .another (same.transactionCount.trans count.symm) (same.type.trans type.symm) unaccepted
    · unfold recordSubmitted
      dsimp only
      rw [Function.update_self, there, Option.getD_some]
      rfl
    · rintro ⟨-, -, -, taken, -⟩
      rw [named] at taken
      exact fresh taken
    · by_cases here : tag.transactionIndex = request.transactionIndex
      · refine ⟨fun awaits => Or.inl ?_, ?_⟩
        · obtain ⟨sameCount, sameType, placed, -, -⟩ := awaits
          rw [named]
          exact HostTag.ext host here (sameCount.trans count) (sameType.trans type) placed
        · rintro (rfl | awaits)
          · rw [named]
            exact ⟨count.symm, type.symm, rfl, List.getElem?_set_self inRange, unanswered⟩
          · exact absurd (here ▸ awaits.2.2.2.1) fresh
      · have elsewhere : (use.accept request.transactionIndex).accepted[tag.transactionIndex]? =
            use.accepted[tag.transactionIndex]? := List.getElem?_set_ne (Ne.symm here)
        refine ⟨fun awaits => Or.inr ?_, ?_⟩
        · obtain ⟨sameCount, sameType, placed, taken, missing⟩ := awaits
          exact ⟨sameCount, sameType, placed, elsewhere.symm.trans taken, missing⟩
        · rintro (rfl | ⟨sameCount, sameType, placed, taken, missing⟩)
          · rw [named] at here
            exact absurd rfl here
          · exact ⟨sameCount, sameType, placed, elsewhere.trans taken, missing⟩

/-- Submitting for one tag leaves the others. -/
theorem recordSubmitted_others (delivery : Delivery) (request : Request) {other : Nat}
    (differs : other ≠ request.hostRequestId) (agrees : Agrees delivery other phase) :
    Agrees (delivery.recordSubmitted request) other phase :=
  agrees.congr (Function.update_of_ne differs ..) rfl rfl

/-- A host request with all its transactions accepted takes no more. -/
theorem Agrees.rejects (agrees : Agrees delivery request.hostRequestId phase)
    (all : phase.AllAccepted) : ∃ error, delivery.checkSubmission request = .error error := by
  cases checks : delivery.checkSubmission request with
  | error error => exact ⟨error, rfl⟩
  | ok checked =>
    obtain ⟨-, splits, -, registered⟩ := checkSubmission_spec checks
    cases phase with
    | idle => exact all.elim
    | filling use =>
      obtain ⟨-, -, there, -⟩ := agrees
      obtain ⟨count, -, fresh⟩ := registered _ there
      have counted : use.transactionCount = request.transactionCount := count
      exact absurd (all _ (counted ▸ splits)) fresh
    | answered host =>
      obtain ⟨⟨submission, there, -, taken⟩, -⟩ := agrees
      obtain ⟨count, -, fresh⟩ := registered _ there
      exact absurd (taken _ (count ▸ splits)) fresh

end Submission

/-! ### Collection -/

section Collection

/-- Where every place is filled, the list is one of what fills them. -/
theorem eq_map_some {results : List (Option TransactionResponse)}
    (filled : ∀ item ∈ results, item.isSome = true) :
    ∃ transactions : List TransactionResponse, results = transactions.map some := by
  refine ⟨results.filterMap id, ?_⟩
  induction results with
  | nil => rfl
  | cons item rest inductionHypothesis =>
    obtain ⟨response, rfl⟩ := Option.isSome_iff_exists.mp (filled item List.mem_cons_self)
    have rests := inductionHypothesis fun other member =>
      filled other (List.mem_cons_of_mem _ member)
    show some response :: rest = some response :: (rest.filterMap id).map some
    rw [← rests]

variable {use : HostUse}

theorem received_record (missing : use.results[response.transactionIndex]? = some none) :
    received (use.record response) = received use + 1 := by
  obtain ⟨inRange, value⟩ := List.getElem?_eq_some_iff.mp missing
  unfold received HostUse.record
  rw [List.countP_set inRange, value]
  rfl

theorem record_sound (sound : Sound id use)
    (accepted : use.accepted[response.transactionIndex]? = some true)
    (valid : response.status ≠ .invalidTransaction) (part : PartOf id use.type response) :
    Sound id (use.record response) where
  accepted := sound.accepted
  results := (List.length_set ..).trans sound.results
  back index other there := by
    have set : (use.results.set response.transactionIndex (some response))[index]? =
        some (some other) := there
    rw [List.getElem?_set] at set
    split at set
    · next same =>
      split at set
      · cases set
        subst same
        exact ⟨accepted, rfl, valid, part⟩
      · cases set
    · exact sound.back index other set

/-- With nothing back every place is empty. -/
theorem results_of_none (sound : Sound id use) (nothing : received use = 0) :
    use.results = List.replicate use.transactionCount none := by
  refine List.eq_replicate_iff.mpr ⟨sound.results, fun item member => ?_⟩
  have empty := List.countP_eq_zero.mp nothing item member
  exact Option.not_isSome_iff_eq_none.mp empty

/-- A host request that is all back was all accepted, and its results are its transactions. -/
theorem complete_of_received (sound : Sound id use)
    (all : received use = use.transactionCount) :
    (∀ index < use.transactionCount, use.accepted[index]? = some true) ∧
      ∃ transactions : List TransactionResponse, use.results = transactions.map some ∧
        transactions.length = use.transactionCount ∧
        ∀ (index : Nat) (response : TransactionResponse), transactions[index]? = some response →
          response.transactionIndex = index ∧ response.status ≠ .invalidTransaction ∧
            PartOf id use.type response := by
  have filled : ∀ item ∈ use.results, item.isSome = true :=
    List.countP_eq_length.mp (all.trans sound.results.symm)
  obtain ⟨transactions, complete⟩ := eq_map_some filled
  have length : transactions.length = use.transactionCount := by
    rw [← sound.results, complete, List.length_map]
  have back : ∀ (index : Nat) (response : TransactionResponse),
      transactions[index]? = some response → use.results[index]? = some (some response) := by
    intro index response there
    rw [complete, List.getElem?_map, there]
    rfl
  refine ⟨fun index inRange => ?_, transactions, complete, length, fun index response there =>
    (sound.back index response (back index response there)).2⟩
  have there := List.getElem?_eq_getElem (length ▸ inRange : index < transactions.length)
  exact (sound.back index _ (back index _ there)).1

/-- The delivery with a completion counted and the transaction shown. -/
def entered (delivery : Delivery) (response : TransactionResponse) : Delivery :=
  let delivery := delivery.recordCompleted response
  if delivery.retainsTransactionResponses then
    { delivery with transactionResponses := delivery.transactionResponses ++ [response] }
  else delivery

theorem retainsHostResponses_iff :
    delivery.retainsHostResponses = true ↔ delivery.mode = .hostOnly ∨ delivery.mode = .both :=
  decide_eq_true_iff

theorem entered_eq (response : TransactionResponse)
    (retains : delivery.mode = .hostOnly ∨ delivery.mode = .both) {host : HostSubmission}
    (there : delivery.hostSubmissions response.hostRequestId = some host) :
    delivery.entered response = { delivery with
      transactionResponses := (delivery.entered response).transactionResponses
      hostSubmissions := Function.update delivery.hostSubmissions response.hostRequestId
        (some { host with completed := host.completed + 1 }) } := by
  have kept : ¬ (host.transactionCount ≤ host.completed + 1 ∧
      delivery.retainsHostResponses = false) := fun both =>
    Bool.false_ne_true (both.2.symm.trans (retainsHostResponses_iff.mpr retains))
  have recorded : delivery.recordCompleted response = { delivery with
      hostSubmissions := Function.update delivery.hostSubmissions response.hostRequestId
        (some { host with completed := host.completed + 1 }) } := by
    unfold recordCompleted
    rw [there]
    dsimp only
    rw [if_neg kept]
  unfold entered
  rw [recorded]
  dsimp only
  split <;> rfl

theorem collect_eq (retains : delivery.mode = .hostOnly ∨ delivery.mode = .both)
    {host : HostSubmission}
    (there : delivery.hostSubmissions response.hostRequestId = some host) :
    delivery.collect response = (delivery.entered response).aggregate response := by
  have mode : (delivery.entered response).retainsHostResponses = true := by
    rw [entered_eq response retains there]
    exact retainsHostResponses_iff.mpr retains
  show (if (delivery.entered response).retainsHostResponses = true then
    (delivery.entered response).aggregate response else _) = _
  rw [if_pos mode]

/-- The assembly a response is entered into, whether it is the first one or not. -/
theorem assembly_eq (agrees : Agrees delivery id (.filling use)) :
    (delivery.hostAssemblies id).getD {
      transactionCount := use.transactionCount
      transactions := List.replicate use.transactionCount none } = {
      transactionCount := use.transactionCount
      transactions := use.results
      received := received use } := by
  obtain ⟨sound, -, -, assembly, -⟩ := agrees
  rw [assembly]
  by_cases nothing : received use = 0
  · rw [if_pos nothing, Option.getD_none, results_of_none sound nothing, nothing]
  · rw [if_neg nothing, Option.getD_some]

/-- What a response does to the host request it is awaited by. -/
inductive Collected (delivery : Delivery) (use : HostUse) (response : TransactionResponse) :
    List HostResponse → Delivery → HostPhase → Prop
  | more {after : Delivery}
      (agrees : Agrees after response.hostRequestId (.filling (use.record response))) :
      Collected delivery use response [] after (.filling (use.record response))
  | last {after : Delivery} {host : HostResponse} {transactions : List TransactionResponse}
      (named : host.hostRequestId = response.hostRequestId)
      (complete : (use.record response).results = transactions.map some)
      (assembles : Assembles transactions host)
      (agrees : Agrees after response.hostRequestId (.answered host)) :
      Collected delivery use response [host] after (.answered host)

theorem publish_eq {host : HostResponse} (room : delivery.hostResponseQueueFull = false) :
    delivery.publish host =
      .ok { delivery with hostResponses := delivery.hostResponses ++ [host] } := by
  unfold publish throwIf
  rw [if_neg (by rw [room]; exact Bool.false_ne_true)]
  rfl

/-- An awaited response finds its empty place. -/
theorem aggregate_eq (agrees : Agrees delivery response.hostRequestId (.filling use))
    (counted : max 1 response.transactionCount = use.transactionCount)
    (valid : response.status ≠ .invalidTransaction)
    (missing : use.results[response.transactionIndex]? = some none)
    {entered : Delivery} (assemblies : entered.hostAssemblies = delivery.hostAssemblies)
    (room : entered.hostResponseQueueFull = false) :
    entered.aggregate response =
      if received use + 1 = use.transactionCount then
        let host := buildHostResponse {
          transactionCount := use.transactionCount
          transactions := (use.record response).results
          received := received use + 1 }
        .ok ([host], { entered with
          hostResponses := entered.hostResponses ++ [host]
          hostAssemblies := Function.update entered.hostAssemblies response.hostRequestId none })
      else .ok ([], { entered with
        hostAssemblies := Function.update entered.hostAssemblies response.hostRequestId (some {
          transactionCount := use.transactionCount
          transactions := (use.record response).results
          received := received use + 1 }) }) := by
  obtain ⟨inRange, empty⟩ := List.getElem?_eq_some_iff.mp missing
  have within : ¬ use.transactionCount ≤ response.transactionIndex :=
    Nat.not_le.mpr (agrees.1.results ▸ inRange)
  have unfit : ¬ (use.transactionCount ≠ use.transactionCount ∨
      use.results.length ≤ response.transactionIndex ∨
      (use.results[response.transactionIndex]?.join).isSome = true) := by
    rintro (differs | outside | filled)
    · exact differs rfl
    · exact Nat.not_le.mpr inRange outside
    · rw [missing] at filled
      exact Bool.false_ne_true filled
  unfold aggregate
  dsimp only
  rw [if_neg (fun bad => bad.elim valid (counted ▸ within)), counted, assemblies,
    assembly_eq agrees]
  dsimp only
  rw [if_neg unfit]
  by_cases full : received use + 1 = use.transactionCount
  · rw [if_pos full, if_pos full, publish_eq room, assemblies]
    rfl
  · rw [if_neg full, if_neg full]
    rfl

/-- A response that is awaited is taken, and the last one publishes the answer. -/
theorem Agrees.collect (retains : delivery.mode = .hostOnly ∨ delivery.mode = .both)
    (room : delivery.hostResponseQueueFull = false)
    (agrees : Agrees delivery response.hostRequestId (.filling use))
    (awaits : (HostPhase.filling use).Awaits response.tag)
    (bare : response.type ≠ .read → response.data = [] ∧ response.initializedMask = []) :
    ∃ published after next, delivery.collect response = .ok (published, after) ∧
      Collected delivery use response published after next ∧ after.mode = delivery.mode ∧
      ∀ other phase, other ≠ response.hostRequestId → Agrees delivery other phase →
        Agrees after other phase := by
  obtain ⟨count, type, placed, accepted, missing⟩ := awaits
  have valid : response.status ≠ .invalidTransaction := of_decide_eq_true placed
  have whole := agrees
  obtain ⟨sound, under, there, -, noResponse⟩ := agrees
  have counted : max 1 response.transactionCount = use.transactionCount := by
    have same : response.transactionCount = use.transactionCount := count
    omega
  have part : PartOf response.hostRequestId use.type response := ⟨rfl, type, bare⟩
  have recorded := record_sound sound accepted valid part
  have more := received_record missing
  have frame := entered_eq response retains there
  have space : (delivery.entered response).hostResponseQueueFull = false := by
    rw [frame]
    exact room
  have assemblies : (delivery.entered response).hostAssemblies = delivery.hostAssemblies := by
    rw [frame]
  have submission : (delivery.entered response).hostSubmissions response.hostRequestId = some {
      transactionCount := use.transactionCount
      type := use.type
      accepted := use.accepted
      completed := received use + 1 } := by
    rw [frame]
    exact Function.update_self ..
  have others : ∀ other, other ≠ response.hostRequestId →
      (delivery.entered response).hostSubmissions other = delivery.hostSubmissions other := by
    intro other differs
    rw [frame]
    exact Function.update_of_ne differs ..
  have queue : (delivery.entered response).hostResponses = delivery.hostResponses := by
    rw [frame]
  have mode : (delivery.entered response).mode = delivery.mode := by rw [frame]
  rw [collect_eq retains there, aggregate_eq whole counted valid missing assemblies space]
  generalize delivery.entered response = entered at *
  by_cases full : received use + 1 = use.transactionCount
  · rw [if_pos full]
    obtain ⟨all, transactions, complete, length, places⟩ :=
      complete_of_received recorded (more.trans full)
    have nonempty : transactions ≠ [] := by
      rintro rfl
      exact Nat.not_lt_zero _ (length.symm ▸ under)
    have parts : ∀ part ∈ transactions, PartOf response.hostRequestId use.type part := by
      intro part member
      obtain ⟨index, here⟩ := List.mem_iff_getElem?.mp member
      exact (places index part here).2.2
    obtain ⟨named, assembles⟩ := @buildHostResponse_assembles _ response.hostRequestId use.type {
        transactionCount := use.transactionCount
        transactions := (use.record response).results
        received := received use + 1 } complete length.symm nonempty parts
      fun index part here => ⟨(places index part here).1, (places index part here).2.1⟩
    generalize buildHostResponse _ = host at named assembles ⊢
    refine ⟨_, _, _, rfl, .last named complete assembles
      ⟨⟨_, submission, Nat.le_of_eq full.symm, all⟩, Function.update_self .., ?_⟩, mode,
      fun other phase differs holds => ?_⟩
    · unfold queued at *
      dsimp only
      rw [queue, List.filter_append, noResponse, List.nil_append]
      rw [List.filter_singleton, decide_eq_true named]
      rfl
    · refine holds.congr (others other differs) ?_ ?_
      · rw [← assemblies]
        exact Function.update_of_ne differs ..
      · unfold queued
        dsimp only
        rw [queue, List.filter_append]
        have apart : ¬ host.hostRequestId = other := fun same => differs (same.symm.trans named)
        rw [List.filter_singleton, decide_eq_false apart]
        exact List.append_nil _
  · rw [if_neg full]
    refine ⟨_, _, _, rfl, .more ⟨recorded, ?_, ?_, ?_, ?_⟩, mode, fun other phase differs holds => ?_⟩
    · rw [more]
      exact Nat.lt_of_le_of_ne under full
    · rw [more]
      exact submission
    · rw [more, if_neg (Nat.succ_ne_zero _)]
      exact Function.update_self ..
    · unfold queued at *
      rw [queue]
      exact noResponse
    · refine holds.congr (others other differs) ?_ ?_
      · rw [← assemblies]
        exact Function.update_of_ne differs ..
      · unfold queued
        rw [queue]

end Collection

/-! ### Handshakes -/

/-- The frontend takes the answer to a host request, whose tag is free then. -/
theorem Agrees.pop {phases : Nat → HostPhase} {host : HostResponse}
    (agrees : ∀ id, Agrees delivery id (phases id))
    (pops : delivery.popResponse = .ok (host, after)) :
    phases host.hostRequestId = .answered host ∧ after.mode = delivery.mode ∧
      ∀ id, Agrees after id (Function.update phases host.hostRequestId .idle id) := by
  unfold popResponse at pops
  split at pops
  · cases pops
  next first rest responses =>
    cases pops
    have waits : host ∈ delivery.queued host.hostRequestId := by
      unfold queued
      rw [responses]
      exact List.mem_filter.mpr ⟨List.mem_cons_self, decide_eq_true rfl⟩
    have here := agrees host.hostRequestId
    cases phase : phases host.hostRequestId with
    | idle =>
      rw [phase] at here
      rw [here.2.2] at waits
      exact absurd waits List.not_mem_nil
    | filling use =>
      rw [phase] at here
      rw [here.2.2.2.2] at waits
      exact absurd waits List.not_mem_nil
    | answered answer =>
      rw [phase] at here
      obtain ⟨⟨submission, there, done, -⟩, noAssembly, only⟩ := here
      rw [only] at waits
      obtain rfl := List.mem_singleton.mp waits
      refine ⟨rfl, rfl, fun id => ?_⟩
      by_cases same : id = host.hostRequestId
      · subst same
        rw [Function.update_self]
        refine ⟨?_, noAssembly, ?_⟩
        · dsimp only
          rw [there]
          dsimp only
          rw [if_pos done]
          exact Function.update_self ..
        · unfold queued at *
          have kept : decide (host.hostRequestId = host.hostRequestId) = true := decide_eq_true rfl
          rw [responses, List.filter_cons, if_pos kept] at only
          exact (List.cons.inj only).2
      · rw [Function.update_of_ne same]
        refine (agrees id).congr ?_ rfl ?_
        · dsimp only
          rw [there]
          dsimp only
          rw [if_pos done]
          exact Function.update_of_ne same ..
        · unfold queued
          have dropped : ¬ decide (host.hostRequestId = id) = true :=
            fun is => same (of_decide_eq_true is).symm
          rw [responses, List.filter_cons, if_neg dropped]

theorem popTransactionResponse_eq {response : TransactionResponse}
    (pops : delivery.popTransactionResponse = .ok (response, after)) :
    after = { delivery with transactionResponses := after.transactionResponses } := by
  unfold popTransactionResponse at pops
  split at pops
  · cases pops
  · cases pops
    rfl

end Delivery

end HbmSim
