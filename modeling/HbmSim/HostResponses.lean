/-
Every host request is answered once. Over a whole run each host tag follows its
lifecycle, and a host request with all its transactions accepted has its response
as soon as none of them is on its way.

The transactions on their way are just the ones the phases wait for. So whatever
a controller hands back is awaited, and the collection never fails.
-/

import HbmSim.HostLifecycle

namespace HbmSim

namespace RunningSystem

variable {β : Type} {log events : List SystemEvent} {delivery after : Delivery}
variable {tags : List HostTag} {phases : Nat → HostPhase} {response : TransactionResponse}

/-! ### The invariant -/

/-- Each host tag is in a phase that its events lead to and the delivery shows, and the phases
wait for the transactions on their way. -/
structure Attuned (log : List SystemEvent) (delivery : Delivery) (tags : List HostTag)
    (phases : Nat → HostPhase) : Prop where
  delivers : delivery.Delivers tags
  lifecycle : ∀ host, Lifecycle host log (phases host)
  agrees : ∀ host, delivery.Agrees host (phases host)
  once : tags.Nodup
  awaited : ∀ tag, tag ∈ tags ↔ (phases tag.hostRequestId).Awaits tag

theorem Attuned.perm {others : List HostTag} (attuned : Attuned log delivery tags phases)
    (same : tags.Perm others) : Attuned log delivery others phases :=
  ⟨attuned.delivers.imp_right (Or.imp_right (And.imp_right fun none =>
      (none ▸ same).nil_eq.symm)), attuned.lifecycle, attuned.agrees, same.nodup_iff.mp attuned.once,
    fun tag => same.mem_iff.symm.trans (attuned.awaited tag)⟩

/-- Putting the responses together changes nothing else. -/
theorem Attuned.enableHost (attuned : Attuned log delivery tags phases) :
    Attuned log delivery.enableHost tags phases :=
  ⟨attuned.delivers.enableHost.imp_right Or.inl, attuned.lifecycle,
    fun host => (attuned.agrees host).enableHost, attuned.once, attuned.awaited⟩

/-- Events about no host request. -/
theorem Attuned.others (attuned : Attuned log delivery tags phases)
    (apart : ∀ event ∈ events, event.about = none) :
    Attuned (log ++ events) delivery tags phases :=
  have silent : ∀ host, ∀ event ∈ events, event.about ≠ some host := fun _ event member same =>
    Option.some_ne_none _ (same.symm.trans (apart event member))
  ⟨attuned.delivers, fun host => (attuned.lifecycle host).others (silent host), attuned.agrees,
    attuned.once, attuned.awaited⟩

/-- The events of one host request lead its tag to the next phase and leave the others. -/
theorem lifecycle_update {host : Nat} {next : HostPhase}
    (lifecycle : ∀ other, Lifecycle other log (phases other))
    (concerns : ∀ event ∈ events, event.about = some host)
    (leads : Lifecycle host (log ++ events) next) (other : Nat) :
    Lifecycle other (log ++ events) (Function.update phases host next other) := by
  by_cases same : other = host
  · subst same
    rw [Function.update_self]
    exact leads
  · rw [Function.update_of_ne same]
    exact (lifecycle other).others fun event member about =>
      same (Option.some.inj (about.symm.trans (concerns event member)))

/-! ### Collection -/

/-- A phase that lost the response it was handed waits for the rest. -/
theorem awaits_collected {use : HostUse} {published : List HostResponse} {next : HostPhase}
    (collected : Delivery.Collected delivery use response published after next)
    (awaits : (HostPhase.filling use).Awaits response.tag) {tag : HostTag}
    (host : tag.hostRequestId = response.hostRequestId) :
    next.Awaits tag ↔ (HostPhase.filling use).Awaits tag ∧ tag ≠ response.tag := by
  have whole : ∀ {tag : HostTag}, tag.hostRequestId = response.hostRequestId →
      (HostPhase.filling use).Awaits tag → tag.transactionIndex = response.transactionIndex →
      tag = response.tag := by
    rintro tag host ⟨count, type, placed, -, -⟩ index
    exact HostTag.ext host index (count.trans awaits.1.symm) (type.trans awaits.2.1.symm)
      (placed.trans awaits.2.2.1.symm)
  have elsewhere : tag.transactionIndex ≠ response.transactionIndex →
      (use.record response).results[tag.transactionIndex]? = use.results[tag.transactionIndex]? :=
    fun differs => List.getElem?_set_ne (Ne.symm differs)
  have inRange : response.transactionIndex < use.results.length :=
    (List.getElem?_eq_some_iff.mp awaits.2.2.2.2).1
  cases collected with
  | more =>
    refine ⟨?_, ?_⟩
    · rintro ⟨count, type, placed, accepted, missing⟩
      have differs : tag.transactionIndex ≠ response.transactionIndex := by
        intro same
        rw [same] at missing
        have filled : (use.record response).results[response.transactionIndex]? =
            some (some response) := List.getElem?_set_self inRange
        exact nomatch Option.some.inj (missing.symm.trans filled)
      exact ⟨⟨count, type, placed, accepted, (elsewhere differs).symm.trans missing⟩,
        fun same => differs (congrArg HostTag.transactionIndex same)⟩
    · rintro ⟨waits, other⟩
      have differs : tag.transactionIndex ≠ response.transactionIndex :=
        fun same => other (whole host waits same)
      obtain ⟨count, type, placed, accepted, missing⟩ := waits
      exact ⟨count, type, placed, accepted, (elsewhere differs).trans missing⟩
  | last named complete =>
    refine ⟨fun never => never.elim, ?_⟩
    rintro ⟨waits, other⟩
    have differs : tag.transactionIndex ≠ response.transactionIndex :=
      fun same => other (whole host waits same)
    have missing := (elsewhere differs).trans waits.2.2.2.2
    rw [complete, List.getElem?_map] at missing
    obtain ⟨_, -, filled⟩ := Option.map_eq_some_iff.mp missing
    exact nomatch filled

theorem Attuned.collect (attuned : Attuned log delivery (response.tag :: tags) phases)
    (room : delivery.hostResponseQueueFull = false)
    (bare : response.type ≠ .read → response.data = [] ∧ response.initializedMask = []) :
    ∃ published after next, delivery.collect response = .ok (published, after) ∧
      Attuned (log ++ .collected response :: published.map .published) after tags next := by
  have awaits : (phases response.hostRequestId).Awaits response.tag :=
    (attuned.awaited response.tag).mp List.mem_cons_self
  have agrees := attuned.agrees response.hostRequestId
  have lifecycle := attuned.lifecycle response.hostRequestId
  cases phase : phases response.hostRequestId with
  | idle =>
    rw [phase] at awaits
    exact awaits.elim
  | answered host =>
    rw [phase] at awaits
    exact awaits.elim
  | filling use =>
    rw [phase] at awaits agrees lifecycle
    obtain ⟨published, after, next, collects, collected, mode, others⟩ :=
      agrees.collect attuned.delivers.enabled room awaits bare
    have taken : Lifecycle response.hostRequestId (log ++ [.collected response])
        (.filling (use.record response)) :=
      lifecycle.step rfl (.result awaits.2.2.2.1 awaits.2.2.2.2)
    have leads : Lifecycle response.hostRequestId
        (log ++ .collected response :: published.map .published) next ∧
        Delivery.Agrees after response.hostRequestId next ∧
        ∀ event ∈ .collected response :: published.map SystemEvent.published,
          event.about = some response.hostRequestId := by
      cases collected with
      | more agrees =>
        refine ⟨taken, agrees, fun event member => ?_⟩
        rw [List.mem_singleton.mp member]
        rfl
      | @last after host transactions named complete assembles agrees =>
        have about : SystemEvent.about (.published host) = some response.hostRequestId :=
          congrArg some named
        refine ⟨?_, agrees, fun event member => ?_⟩
        · rw [List.map_singleton, List.append_cons]
          exact taken.step about (.publish complete assembles)
        · rcases List.mem_cons.mp member with rfl | publishes
          · rfl
          · rw [List.mem_singleton.mp publishes]
            exact about
    obtain ⟨leads, agreesNext, concerns⟩ := leads
    refine ⟨published, after, Function.update phases response.hostRequestId next, collects,
      (mode ▸ attuned.delivers.enabled).imp_right Or.inl,
      lifecycle_update attuned.lifecycle concerns leads, ?_,
      (List.nodup_cons.mp attuned.once).2, fun tag => ?_⟩
    · intro host
      by_cases same : host = response.hostRequestId
      · subst same
        rw [Function.update_self]
        exact agreesNext
      · rw [Function.update_of_ne same]
        exact others host _ same (attuned.agrees host)
    · have apart : response.tag ∉ tags := (List.nodup_cons.mp attuned.once).1
      have listed : tag ∈ tags ↔ tag ∈ response.tag :: tags ∧ tag ≠ response.tag := by
        refine ⟨fun member => ⟨List.mem_cons_of_mem _ member, fun is => apart (is ▸ member)⟩, ?_⟩
        rintro ⟨member, differs⟩
        exact (List.mem_cons.mp member).resolve_left differs
      rw [listed, attuned.awaited tag]
      by_cases same : tag.hostRequestId = response.hostRequestId
      · rw [same, Function.update_self, phase]
        exact (awaits_collected collected awaits same).symm
      · rw [Function.update_of_ne same]
        exact ⟨fun both => both.1, fun waits =>
          ⟨waits, fun is => same (congrArg HostTag.hostRequestId is)⟩⟩

theorem Attuned.collectFrom {responses : List TransactionResponse}
    (attuned : Attuned log delivery (responses.map TransactionResponse.tag ++ tags) phases)
    (bare : ∀ response ∈ responses, response.type ≠ .read →
      response.data = [] ∧ response.initializedMask = []) :
    ∃ events left after room taken next,
      HbmSim.collectFrom responses delivery = .ok (events, left, after, room) ∧
      responses = taken ++ left ∧
      Attuned (log ++ events) after (left.map TransactionResponse.tag ++ tags) next := by
  induction responses generalizing log delivery phases with
  | nil =>
    refine ⟨[], [], delivery, true, [], phases, rfl, rfl, ?_⟩
    rw [List.append_nil]
    exact attuned
  | cons response rest inductionHypothesis =>
    unfold HbmSim.collectFrom
    split
    · refine ⟨[], _, delivery, false, [], phases, rfl, rfl, ?_⟩
      rw [List.append_nil]
      exact attuned
    next proceeds =>
      have retains := attuned.delivers.enabled
      have enabled : delivery.mode ≠ .disabled := by
        rcases retains with only | both
        · rw [only]
          intro is
          cases is
        · rw [both]
          intro is
          cases is
      have room : delivery.hostResponseQueueFull = false := by
        by_contra full
        refine proceeds ⟨enabled, ?_⟩
        unfold Delivery.stalled
        rw [Delivery.retainsHostResponses_iff.mpr retains, (Bool.not_eq_false _).mp full]
        exact Bool.or_true _
      obtain ⟨published, collected, next, collects, tuned⟩ :=
        attuned.collect room (bare response List.mem_cons_self)
      obtain ⟨events, left, after, more, taken, last, others, same, settled⟩ :=
        inductionHypothesis tuned fun other member => bare other (List.mem_cons_of_mem _ member)
      refine ⟨.collected response :: published.map .published ++ events, left, after, more,
        response :: taken, last, ?_, congrArg _ same, ?_⟩
      · rw [collects]
        dsimp only [bind, Except.bind]
        rw [others]
        rfl
      · rw [← List.append_assoc]
        exact settled

theorem Attuned.collectEach {controllers : List (Controller β)} [MemoryBackend β]
    (attuned : Attuned log delivery (controllers.flatMap Controller.outstanding ++ tags) phases)
    (serving : ∀ c ∈ controllers, c.Serving) :
    ∃ events left after next,
      RunningSystem.collectEach controllers delivery = .ok (events, left, after) ∧
      (∀ c ∈ left, c.Serving) ∧
      Attuned (log ++ events) after (left.flatMap Controller.outstanding ++ tags) next := by
  induction controllers generalizing log delivery phases tags with
  | nil =>
    refine ⟨[], [], delivery, phases, rfl, fun _ member => absurd member List.not_mem_nil, ?_⟩
    rw [List.append_nil]
    exact attuned
  | cons c rest inductionHypothesis =>
    have serves := serving c List.mem_cons_self
    have bare := serves.choose_spec.bare
    have apart : ((c :: rest).flatMap Controller.outstanding ++ tags).Perm
        (c.responses.map TransactionResponse.tag ++
          (c.traffic.map Request.tag ++ (rest.flatMap Controller.outstanding ++ tags))) := by
      rw [List.flatMap_cons]
      unfold Controller.outstanding
      rw [List.append_assoc, ← List.append_assoc (c.responses.map _)]
      exact List.perm_append_comm.append_right _
    obtain ⟨events, left, middle, room, taken, next, collects, same, tuned⟩ :=
      (attuned.perm apart).collectFrom bare
    obtain ⟨still, -⟩ := serves.collect same
    have kept : (left.map TransactionResponse.tag ++
        (c.traffic.map Request.tag ++ (rest.flatMap Controller.outstanding ++ tags))).Perm
        (Controller.outstanding { c with responses := left } ++
          (rest.flatMap Controller.outstanding ++ tags)) := by
      rw [← List.append_assoc]
      exact List.perm_append_comm.append_right _
    have now := tuned.perm kept
    unfold RunningSystem.collectEach
    rw [collects]
    dsimp only [bind, Except.bind]
    cases room with
    | false =>
      refine ⟨events, _, middle, next, rfl, ?_, ?_⟩
      · intro other member
        rcases List.mem_cons.mp member with rfl | later
        · exact still
        · exact serving other (List.mem_cons_of_mem _ later)
      · rw [List.flatMap_cons, List.append_assoc]
        exact now
    | true =>
      have moved : ∀ others : List HostTag,
          (Controller.outstanding { c with responses := left } ++ (others ++ tags)).Perm
            (others ++ (Controller.outstanding { c with responses := left } ++ tags)) := by
        intro others
        rw [← List.append_assoc, ← List.append_assoc]
        exact List.perm_append_comm.append_right _
      obtain ⟨more, others, after, last, rests, stays, settled⟩ :=
        inductionHypothesis (now.perm (moved _)) fun other member =>
          serving other (List.mem_cons_of_mem _ member)
      refine ⟨events ++ more, { c with responses := left } :: others, after, last, ?_, ?_, ?_⟩
      · rw [if_pos rfl, rests]
        rfl
      · intro other member
        rcases List.mem_cons.mp member with rfl | later
        · exact still
        · exact stays other later
      · rw [← List.append_assoc log, List.flatMap_cons,
          List.append_assoc (Controller.outstanding _)]
        exact settled.perm (moved _).symm

/-! ### Runs -/

section Runs

variable [MemoryBackend β] {service : ServiceOptions} {system ready : RunningSystem β}
variable {request routed : SystemRequest} {routing : MemorySystem}

/-- The account of the requests on their way, and the phases that wait for them. -/
def Hosted (service : ServiceOptions) (log : List SystemEvent) (system : RunningSystem β) : Prop :=
  ∃ tags phases, Flowing service (acceptedOf log) (handedOf log) tags system ∧
    Attuned log system.delivery tags phases

omit [MemoryBackend β] in
theorem routed_samePart (enters : system.toMemorySystem.enqueue request = .ok (some routed, routing)) :
    Delivery.SamePart request.toRequest routed := by
  rw [(MemorySystem.enqueue_accepts enters).1]
  exact ⟨rfl, rfl, rfl, rfl⟩

omit [MemoryBackend β] in
/-- An accepted request is on its way. -/
theorem Flowing.accept (flowing : Flowing service (acceptedOf log) (handedOf log) tags system)
    (delivery : Delivery)
    (enters : system.toMemorySystem.enqueue request = .ok (some routed, routing)) :
    Flowing service (acceptedOf (log ++ [.accepted routed])) (handedOf (log ++ [.accepted routed]))
      ((if routed.type = .maintenance then [] else [request.toRequest.tag]) ++ tags)
      { system with toMemorySystem := routing, delivery } := by
  obtain ⟨accounted, serving, flows⟩ := flowing
  have tracked : Tracked service log system := accounted
  refine ⟨tracked.accept enters, serving, ?_⟩
  obtain ⟨rfl, ordered⟩ := accounted
  have frame := (MemorySystem.enqueue_accepts enters).1
  have tag : routed.toRequest.tag = request.toRequest.tag := by
    rw [frame]
    rfl
  have fresh : routed ∉ handedOf log := by
    intro handed
    have older := ordered.fresh routed (ordered.known routed handed)
    rw [frame] at older
    exact Nat.lt_irrefl _ older
  have handed : handedOf (log ++ [.accepted routed]) = handedOf log := by
    rw [handedOf_append]
    exact List.append_nil _
  have accepted : acceptedOf (log ++ [.accepted routed]) = acceptedOf log ++ [routed] := by
    rw [acceptedOf_append]
    rfl
  have waiting : ((acceptedOf log ++ [routed]).diff (handedOf log)).Perm
      (routed :: (acceptedOf log).diff (handedOf log)) := waiting_accept fresh
  have waits := ordinaryTags_perm waiting
  rw [ordinaryTags_cons, tag] at waits
  unfold flight at *
  rw [handed, accepted]
  refine (waits.append_right _).trans ?_
  rw [List.append_assoc]
  exact flows.append_left _

omit [MemoryBackend β] in
theorem Hosted.submit (hosted : Hosted service log system)
    (checks : system.delivery.checkSubmission request.toRequest = .ok ())
    (enters : system.toMemorySystem.enqueue request = .ok (some routed, routing)) :
    Hosted service (log ++ [.accepted routed]) { system with
      toMemorySystem := routing
      delivery := system.delivery.enableHost.recordSubmitted request.toRequest } := by
  obtain ⟨tags, phases, flowing, attuned⟩ := hosted
  have part := routed_samePart enters
  have ordinary : routed.type ≠ .maintenance := by
    rw [part.type]
    exact (Delivery.checkSubmission_spec checks).1
  have enabled := attuned.enableHost
  obtain ⟨next, steps, agrees, fresh, awaits⟩ :=
    (enabled.agrees request.hostRequestId).submit
      (Delivery.checkSubmission_enableHost.trans checks) part
  have moved :=
    flowing.accept (system.delivery.enableHost.recordSubmitted request.toRequest) enters
  rw [if_neg ordinary] at moved
  have about : SystemEvent.about (.accepted routed) = some request.hostRequestId :=
    (if_neg ordinary).trans (congrArg some part.hostRequestId)
  refine ⟨_, Function.update phases request.hostRequestId next, moved, ?_⟩
  refine ⟨attuned.delivers.enableHost.imp_right Or.inl,
    lifecycle_update attuned.lifecycle ?_ ?_, fun host => ?_, ?_, ?_⟩
  · intro event member
    rw [List.mem_singleton.mp member]
    exact about
  · exact (attuned.lifecycle _).step about steps
  · by_cases same : host = request.hostRequestId
    · subst same
      rw [Function.update_self]
      exact agrees
    · rw [Function.update_of_ne same]
      exact Delivery.recordSubmitted_others _ _ same (enabled.agrees host)
  · refine List.nodup_cons.mpr ⟨fun listed => ?_, attuned.once⟩
    exact fresh ((attuned.awaited _).mp listed)
  · intro tag
    rw [List.singleton_append, List.mem_cons, attuned.awaited tag]
    by_cases same : tag.hostRequestId = request.hostRequestId
    · rw [same, Function.update_self]
      exact (awaits tag same).symm
    · rw [Function.update_of_ne same]
      refine ⟨fun either => either.resolve_left fun is => same ?_, Or.inr⟩
      rw [is]
      rfl

omit [MemoryBackend β] in
theorem Hosted.maintain (hosted : Hosted service log system)
    (isMaintenance : request.type = .maintenance)
    (enters : system.toMemorySystem.enqueue request = .ok (some routed, routing)) :
    Hosted service (log ++ [.accepted routed]) { system with toMemorySystem := routing } := by
  obtain ⟨tags, phases, flowing, attuned⟩ := hosted
  have type : routed.type = .maintenance := (routed_samePart enters).type.trans isMaintenance
  have moved := flowing.accept system.delivery enters
  rw [if_pos type, List.nil_append] at moved
  refine ⟨tags, phases, moved, attuned.others fun event member => ?_⟩
  rw [List.mem_singleton.mp member]
  exact if_pos type

theorem Hosted.begin (hosted : Hosted service log system) {now : List SystemRequest}
    (begins : system.beginTick = .ok (now, ready)) :
    Hosted service (log ++ now.map .handed) ready := by
  obtain ⟨tags, phases, flowing, attuned⟩ := hosted
  have delivery : ready.delivery = system.delivery := by
    obtain ⟨⟨given, dispatched⟩, dispatches, begins⟩ := bind_eq_ok.mp begins
    obtain ⟨ticked, ticks, begins⟩ := bind_eq_ok.mp begins
    cases begins
    rw [tickControllers_eq ticks]
    dsimp only
    rw [dispatchStacks_eq dispatches]
  refine ⟨tags, phases, ?_, delivery ▸ attuned.others fun event member => ?_⟩
  · rw [acceptedOf_append, acceptedOf_map_handed, List.append_nil, handedOf_append,
      handedOf_map_handed]
    exact flowing.begin begins
  · obtain ⟨request, -, rfl⟩ := List.mem_map.mp member
    rfl

/-- The collection of the responses never fails. -/
theorem Hosted.collect (hosted : Hosted service log system) :
    ∃ events after, system.collectResponses = .ok (events, after) ∧
      Hosted service (log ++ events) after := by
  obtain ⟨tags, phases, ⟨accounted, serving, flows⟩, attuned⟩ := hosted
  have apart : tags.Perm (system.controllers.flatMap Controller.outstanding ++
      ordinaryTags ((acceptedOf log).diff (handedOf log))) :=
    flows.symm.trans List.perm_append_comm
  obtain ⟨events, left, after, next, collects, still, settled⟩ :=
    (attuned.perm apart).collectEach serving
  have responses := collectEach_ofResponse collects
  refine ⟨events, { system with controllers := left, delivery := after }, ?_, _, next, ⟨?_, still, ?_⟩,
    settled⟩
  · unfold collectResponses
    rw [collects]
    rfl
  · have tracked : Tracked service log system := accounted
    exact tracked.respond responses rfl rfl
  · rw [acceptedOf_append, acceptedOf_responses responses, handedOf_append,
      handedOf_responses responses, List.append_nil, List.append_nil]
    exact List.perm_append_comm

theorem Hosted.tick (hosted : Hosted service log system)
    (ticks : system.tick = .ok (events, ready)) : Hosted service (log ++ events) ready := by
  obtain ⟨⟨now, ticked⟩, begins, ticks⟩ := bind_eq_ok.mp ticks
  obtain ⟨⟨responses, collected⟩, collects, ticks⟩ := bind_eq_ok.mp ticks
  cases ticks
  obtain ⟨_, _, same, after⟩ := (hosted.begin begins).collect
  obtain ⟨rfl, rfl⟩ := Prod.mk.inj (Except.ok.inj (collects.symm.trans same))
  rw [← List.append_assoc]
  exact after

omit [MemoryBackend β] in
theorem Hosted.pop (hosted : Hosted service log system) {host : HostResponse}
    (pops : system.delivery.popResponse = .ok (host, delivery)) :
    Hosted service (log ++ [.popped host]) { system with delivery } := by
  obtain ⟨tags, phases, ⟨accounted, serving, flows⟩, attuned⟩ := hosted
  have responses : ∀ event ∈ [SystemEvent.popped host], event.OfResponse := by
    intro event member
    rw [List.mem_singleton.mp member]
    trivial
  obtain ⟨phase, mode, agrees⟩ := Delivery.Agrees.pop attuned.agrees pops
  refine ⟨tags, Function.update phases host.hostRequestId .idle, ⟨?_, serving, ?_⟩,
    ?_, lifecycle_update attuned.lifecycle ?_ ?_, agrees, attuned.once,
    fun tag => ?_⟩
  · have tracked : Tracked service log system := accounted
    exact tracked.respond responses rfl rfl
  · rw [acceptedOf_append, acceptedOf_responses responses, handedOf_append,
      handedOf_responses responses, List.append_nil, List.append_nil]
    exact flows
  · unfold Delivery.Delivers
    rw [mode]
    exact attuned.delivers
  · intro event member
    rw [List.mem_singleton.mp member]
    rfl
  · exact (phase ▸ attuned.lifecycle host.hostRequestId).step rfl .pop
  · rw [attuned.awaited tag]
    by_cases same : tag.hostRequestId = host.hostRequestId
    · rw [same, phase, Function.update_self]
      exact Iff.rfl
    · rw [Function.update_of_ne same]

/-- Every operation of a frontend that registers its requests keeps the account. -/
theorem Hosted.apply (hosted : Hosted service log system) {op : FrontendOp}
    (registered : ∀ request, op ≠ .inject request)
    (returns : system.apply op = .ok (events, ready)) : Hosted service (log ++ events) ready := by
  cases apply_cases returns with
  | nothing =>
    rw [List.append_nil]
    exact hosted
  | turnedAway =>
    obtain ⟨tags, phases, flowing, attuned⟩ := hosted
    rw [List.append_nil]
    exact ⟨tags, phases, flowing, attuned.enableHost⟩
  | submitted checks enters => exact hosted.submit checks enters
  | maintained isMaintenance enters => exact hosted.maintain isMaintenance enters
  | injected enters => exact absurd rfl (registered _)
  | ticked ticks => exact hosted.tick ticks
  | collected collects =>
    obtain ⟨_, _, same, after⟩ := hosted.collect
    obtain ⟨rfl, rfl⟩ := Prod.mk.inj (Except.ok.inj (collects.symm.trans same))
    exact after
  | popped pops => exact hosted.pop pops
  | poppedTransaction pops =>
    obtain ⟨tags, phases, flowing, attuned⟩ := hosted
    have frame := Delivery.popTransactionResponse_eq pops
    rw [List.append_nil]
    refine ⟨tags, phases, flowing, ?_, attuned.lifecycle, fun host => ?_, attuned.once,
      attuned.awaited⟩
    · unfold Delivery.Delivers
      rw [frame]
      exact attuned.delivers
    · refine (attuned.agrees host).congr ?_ ?_ ?_
      · rw [frame]
      · rw [frame]
      · rw [frame]
        rfl

/-! ### The first state -/

/-- A transaction of the host request is in an ingress queue, in a controller or among the
responses of one. -/
def OnItsWay (system : RunningSystem β) (host : Nat) : Prop :=
  (∃ stack, ∃ request ∈ system.stackIngressQueues stack,
      request.type ≠ .maintenance ∧ request.hostRequestId = host) ∨
    ∃ c ∈ system.controllers, (∃ request ∈ c.traffic,
        request.type ≠ .maintenance ∧ request.hostRequestId = host) ∨
      ∃ response ∈ c.responses, response.hostRequestId = host

omit [MemoryBackend β] in
/-- What is on its way in the account is somewhere in the system. -/
theorem Flowing.onItsWay {accepted handed : List SystemRequest}
    (flowing : Flowing service accepted handed tags system) {tag : HostTag} (member : tag ∈ tags) :
    system.OnItsWay tag.hostRequestId := by
  obtain ⟨⟨-, ordered⟩, serving, flows⟩ := flowing
  rcases List.mem_append.mp (flows.mem_iff.mpr member) with waiting | held
  · obtain ⟨request, listed, tagged⟩ := List.mem_filterMap.mp waiting
    have once : accepted.Nodup := by
      refine ordered.increasing.imp fun {first second} before same => ?_
      subst same
      exact Nat.lt_irrefl _ before
    obtain ⟨known, apart⟩ := (List.Nodup.mem_sdiff_iff once).mp listed
    have waits := (ordered.placed request known).resolve_left apart
    split at tagged
    · cases tagged
    next ordinary =>
      cases tagged
      exact Or.inl ⟨_, request, waits, ordinary, rfl⟩
  · obtain ⟨c, listed, outstanding⟩ := List.mem_flatMap.mp held
    rcases List.mem_append.mp outstanding with traffic | responses
    · obtain ⟨request, inside, rfl⟩ := List.mem_map.mp traffic
      obtain ⟨history, account⟩ := serving c listed
      exact Or.inr ⟨c, listed, Or.inl
        ⟨request, inside, account.conserved.kinds.ordinary inside, rfl⟩⟩
    · obtain ⟨response, inside, rfl⟩ := List.mem_map.mp responses
      exact Or.inr ⟨c, listed, Or.inr ⟨response, inside, rfl⟩⟩

omit [MemoryBackend β] in
/-- A host request with all its transactions accepted waits for one of them. -/
theorem filling_awaits {host : Nat} {use : HostUse}
    (agrees : delivery.Agrees host (.filling use))
    (all : (HostPhase.filling use).AllAccepted) :
    ∃ tag : HostTag, tag.hostRequestId = host ∧ (HostPhase.filling use).Awaits tag := by
  obtain ⟨sound, under, -⟩ := agrees
  rw [← sound.results] at under
  obtain ⟨item, member, missing⟩ := List.countP_lt_length_iff.mp under
  obtain ⟨index, there⟩ := List.mem_iff_getElem?.mp member
  obtain ⟨inRange, -⟩ := List.getElem?_eq_some_iff.mp there
  refine ⟨⟨host, index, use.transactionCount, use.type, true⟩, rfl, rfl, rfl, rfl,
    all index (sound.results ▸ inRange), ?_⟩
  rw [there]
  exact congrArg some (Option.isSome_eq_false_iff.mp missing |> Option.isNone_iff_eq_none.mp)

omit [MemoryBackend β] in
/-- A rejected submission leaves the system as it was. -/
theorem trySubmit_rejects {error : Exception}
    (checks : system.delivery.checkSubmission request.toRequest = .error error) :
    system.trySubmit request = (.error error, system) := by
  unfold trySubmit
  rw [checks]

omit [MemoryBackend β] in
/-- A host request with all its transactions accepted takes no more, and is answered unless one
of them is on its way. -/
theorem Hosted.answers (hosted : Hosted service log system) (host : Nat) :
    ∃ phase, Lifecycle host log phase ∧ (phase.AllAccepted →
      (∀ request : SystemRequest, request.hostRequestId = host →
        ∃ error, system.trySubmit request = (.error error, system)) ∧
      (system.OnItsWay host ∨
        ∃ response ∈ system.delivery.hostResponses, phase = .answered response)) := by
  obtain ⟨tags, phases, flowing, attuned⟩ := hosted
  refine ⟨phases host, attuned.lifecycle host, fun all => ⟨?_, ?_⟩⟩
  · rintro request rfl
    obtain ⟨error, checks⟩ := (attuned.agrees _).rejects all
    exact ⟨error, trySubmit_rejects checks⟩
  · have agrees := attuned.agrees host
    cases phase : phases host with
    | idle =>
      rw [phase] at all
      exact all.elim
    | filling use =>
      rw [phase] at all agrees
      obtain ⟨tag, rfl, awaits⟩ := filling_awaits agrees all
      refine Or.inl (flowing.onItsWay ((attuned.awaited tag).mpr ?_))
      rw [phase]
      exact awaits
    | answered response =>
      rw [phase] at agrees
      have waits : response ∈ system.delivery.queued host := by
        rw [agrees.2.2]
        exact List.mem_singleton_self _
      exact Or.inr ⟨response, (List.mem_filter.mp waits).1, rfl⟩

/-- A host read in two transactions, ticks until both are back, and a last collection. -/
def splitRead : List FrontendOp :=
  let part (id address index : Nat) : FrontendOp := .submit {
    Controller.readAt Controller.twoBanks id address 4 with
    hostRequestId := 5, transactionIndex := index, transactionCount := 2 }
  [part 1 0 0, part 2 4 1] ++ List.replicate 60 .tick ++ [.collectResponses]

end Runs

end RunningSystem

end HbmSim
