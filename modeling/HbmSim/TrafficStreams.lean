/-
The traffic of a run: synthetic requests or those of a trace, after an optional
sequence of control requests. It is made in two ways. The batch splits the requests
of the workload first and puts the control sequence in front of the transactions;
the stream puts it in front of the requests and splits all of them.

The two ways number transactions alike and let them in at the same cycles. They do
not agree on the host request a transaction belongs to, because the batch leaves
the numbers of the hosts as they were.

The random numbers of the synthetic workload are a parameter: both ways seed the
generator alike, so they draw the same numbers.
-/

import HbmSim.StackSpace
import HbmSim.TraceStream
import HbmSim.Lib.PullStream

namespace HbmSim.Frontend

open PullStream

/-! ### Options -/

def validateOptions (options : TrafficOptions) : Except Exception Unit := do
  throwIf (options.readRatio < 0 ∨ 100 < options.readRatio)
    (invalidArgument "read_ratio must be in [0, 100]")
  throwIf (options.trace = none ∧ options.pattern ≠ "stream" ∧ options.pattern ≠ "random")
    (invalidArgument ("unsupported pattern: " ++ options.pattern))
  throwIf (options.trace = none ∧ options.addrStride = 0 ∧ options.pattern = "stream")
    (invalidArgument "addr_stride must be > 0 for stream traffic")

/-! ### Workloads -/

/-- The numbers drawn for each request: one between 1 and 100, and the number of a line. -/
structure Draws where
  ratio : Nat → Nat
  line : Nat → Nat

structure SyntheticTrafficStream where
  spec : DramSpec
  options : TrafficOptions
  draws : Draws
  nextId : Nat := 0

def SyntheticTrafficStream.open (spec : DramSpec) (options : TrafficOptions) (draws : Draws) :
    Except Exception SyntheticTrafficStream := do
  validateSpec spec
  let _ ← randomStartCount spec options.stackCount options.randomAddressSpaceBytes
  return { spec, options, draws }

/-- The next request of the pattern. -/
def SyntheticTrafficStream.request (stream : SyntheticTrafficStream) : TrafficRequest :=
  let id := stream.nextId
  let address :=
    if stream.options.pattern = "random" then stream.draws.line id * stream.spec.org.lineSize
    else id * stream.options.addrStride % 2 ^ 64
  let isRead := decide ((stream.draws.ratio id : Int) ≤ stream.options.readRatio)
  { id
    address
    type := if isRead then .read else .write
    decoded := decode stream.spec address
    injectCycle := id * stream.options.injectInterval % 2 ^ 64
    payload := if isRead then [] else makeRequestPayload address id (max 1 stream.spec.org.lineSize)
    hasPayload := !isRead }

def SyntheticTrafficStream.next (stream : SyntheticTrafficStream) :
    Except Exception (Option TrafficRequest × SyntheticTrafficStream) :=
  if stream.options.requests ≤ stream.nextId then .ok (none, stream)
  else .ok (some stream.request, { stream with nextId := stream.nextId + 1 })

/-- A workload without control requests. -/
inductive BaseTrafficStream
  | synthetic (stream : SyntheticTrafficStream)
  | trace (stream : TraceTrafficStream)

def makeBaseTrafficStream (spec : DramSpec) (options : TrafficOptions) (draws : Draws) :
    Except Exception BaseTrafficStream :=
  match options.trace with
  | some lines => do
    let stream ← TraceTrafficStream.open spec options lines
    return .trace stream
  | none => do
    let stream ← SyntheticTrafficStream.open spec options draws
    return .synthetic stream

namespace BaseTrafficStream

def next : BaseTrafficStream → Except Exception (Option TrafficRequest × BaseTrafficStream)
  | .synthetic stream => do
    let (request, stream) ← stream.next
    return (request, .synthetic stream)
  | .trace stream => do
    let (request, stream) ← stream.next
    return (request, .trace stream)

def nextId : BaseTrafficStream → Nat
  | .synthetic stream => stream.nextId
  | .trace stream => stream.nextId

end BaseTrafficStream

/-! ### Control sequences -/

/-- The control requests so far, with the number and the cycle of the next one. -/
structure ControlSequence where
  id : Nat := 0
  injectCycle : Nat := 0
  out : List TrafficRequest := []

def appendControl (interval stack channel : Nat) (sequence : ControlSequence) (command : Command) :
    ControlSequence where
  id := sequence.id + 1
  injectCycle := (sequence.injectCycle + max 1 interval) % 2 ^ 64
  out := sequence.out ++ [{
    id := sequence.id
    type := .maintenance
    next := command
    address := 0
    targetStack := (stack : Int)
    decoded := { channel }
    injectCycle := sequence.injectCycle }]

def hbmSequences : List String := ["hbm", "hbm3", "hbm4"]

def lpddrSequences : List String := ["lpddr", "lpddr5", "lpddr6", "lpddr6_full"]

/-- A command that is part of a sequence on a condition. -/
def commandIf (wanted : Bool) (command : Command) : List Command := if wanted then [command] else []

def hbmControlCommands (spec : DramSpec) : List Command :=
  .mrw :: .mrr :: (commandIf spec.supportsEcc .eccscrub ++
    commandIf (spec.hbmLinkRetryEnabled || decide (0 < spec.hbmLinkCrcBitsPerRequest) ||
      decide (0 < spec.hbmRasMetadataBitsPerRequest)) .raserr)

def lpddrControlCommands (spec : DramSpec) (full : Bool) : List Command :=
  .mrw :: .mrr :: (commandIf (decide (spec.lpddrDvfsMode ≠ .disabled)) .dvfs ++
    (commandIf spec.lpddrWckTrainingRequired .wcktrain ++
      (commandIf spec.lpddrLinkEccEnabled .eccscrub ++
        (commandIf spec.lpddrLinkProtection .raserr ++
          if full then [.pde, .pdx, .srefen, .srefex] else []))))

/-- The commands of a sequence for one channel. -/
def controlCommands (spec : DramSpec) (sequence : String) : List Command :=
  if sequence ∈ hbmSequences then hbmControlCommands spec
  else lpddrControlCommands spec (decide (sequence = "lpddr6_full"))

/-- Whether the options ask for no control sequence. -/
def noControls (options : TrafficOptions) : Bool :=
  decide (lowerToken options.initSequence ∈ ["", "none", "off"])

/-- The sequence that is asked for; `auto` leaves it to the standard. -/
def controlSequenceName (spec : DramSpec) (options : TrafficOptions) : String :=
  let sequence := lowerToken options.initSequence
  if sequence = "auto" then
    if spec.lpddrFamily then if spec.name = "LPDDR6" then "lpddr6" else "lpddr"
    else if spec.name = "HBM4" then "hbm4" else "hbm"
  else sequence

def generateControlSequence (spec : DramSpec) (options : TrafficOptions) :
    Except Exception (List TrafficRequest) :=
  if noControls options = true then .ok []
  else do
    let sequence := controlSequenceName spec options
    throwIf (sequence ∉ hbmSequences ∧ sequence ∉ lpddrSequences)
      (invalidArgument ("unsupported init_sequence: " ++ options.initSequence))
    throwIf ((sequence ∈ hbmSequences ∧ spec.lpddrFamily = true) ∨
        (sequence ∈ lpddrSequences ∧ spec.lpddrFamily = false))
      (invalidArgument ("init_sequence '" ++ options.initSequence ++
        "' is incompatible with base standard " ++ spec.name))
    let places := (List.range (max 1 options.stackCount).toNat).flatMap fun stack =>
      (List.range (max 1 spec.org.channels)).map fun channel => (stack, channel)
    return (places.foldl (fun (sequences : ControlSequence) place =>
      (controlCommands spec sequence).foldl
        (appendControl options.initSequenceInterval place.1 place.2) sequences) {}).out

/-- Move the workload behind a number of control requests. -/
def shiftWorkload (controls interval : Nat) (request : TrafficRequest) : TrafficRequest :=
  { request with
    id := request.id + controls
    injectCycle := (request.injectCycle + (controls + 1) * max 1 interval) % 2 ^ 64 }

/-! ### Batch and stream -/

/-- `TransactionSplitTrafficStream`: the transactions of the requests of a source, in order. -/
def splitNext {Source : Type} (spec : DramSpec)
    (next : Source → Except Exception (Option TrafficRequest × Source)) :=
  expanded next (splitHostRequest spec) fun id transaction => { transaction with id }

/-- `generate_traffic` returns the transactions of the workload. -/
def GeneratesTraffic (spec : DramSpec) (options : TrafficOptions) (draws : Draws)
    (requests : List TrafficRequest) : Prop :=
  validateOptions options = .ok () ∧
    ∃ base, makeBaseTrafficStream spec options draws = .ok base ∧
      Drains (splitNext spec BaseTrafficStream.next) (base, [], 0) requests

def prependControlSequence (spec : DramSpec) (options : TrafficOptions)
    (requests : List TrafficRequest) : Except Exception (List TrafficRequest) := do
  let control ← generateControlSequence spec options
  return if control = [] then requests
    else control ++ requests.map (shiftWorkload control.length options.initSequenceInterval)

/-- The workload in batch, behind its control sequence. -/
def Batches (spec : DramSpec) (options : TrafficOptions) (draws : Draws)
    (requests : List TrafficRequest) : Prop :=
  ∃ workload, GeneratesTraffic spec options draws workload ∧
    prependControlSequence spec options workload = .ok requests

/-- `ControlPrefixedTrafficStream`, and the plain workload where there is no control request. -/
def prefixedNext (controls interval : Nat) :=
  prefixed BaseTrafficStream.next (if controls = 0 then id else shiftWorkload controls interval)

/-- `make_traffic_stream` makes a stream that drains to the requests. -/
def Streams (spec : DramSpec) (options : TrafficOptions) (draws : Draws)
    (requests : List TrafficRequest) : Prop :=
  validateOptions options = .ok () ∧
    ∃ base control, makeBaseTrafficStream spec options draws = .ok base ∧
      generateControlSequence spec options = .ok control ∧
      Drains (splitNext spec (prefixedNext control.length options.initSequenceInterval))
        ((control, base), [], 0) requests

/-! ### Splitting shifted requests -/

section Split

variable {spec : DramSpec} {host : TrafficRequest} {parts : List TrafficRequest}

/-- The hosts of transactions, in order: the host of every first transaction. -/
def hosts (transactions : List TrafficRequest) : List Nat :=
  (transactions.filter fun transaction => decide (transaction.transactionIndex = 0)).map
    (·.hostRequestId)

theorem hosts_append (front back : List TrafficRequest) :
    hosts (front ++ back) = hosts front ++ hosts back := by
  unfold hosts
  rw [List.filter_append, List.map_append]

theorem split_maintenance (maintenance : host.type = .maintenance) :
    splitHostRequest spec host = .ok [{ host with
      hostRequestId := host.id, transactionIndex := 0, transactionCount := 1,
      transferBytes := 0 }] :=
  if_pos maintenance

/-- The transactions of a request belong to it, and one of them is the first. -/
theorem hosts_split (splits : splitHostRequest spec host = .ok parts) :
    hosts parts = [host.id] := by
  by_cases maintenance : host.type = .maintenance
  · rw [split_maintenance maintenance] at splits
    cases splits
    rfl
  · obtain ⟨-, rfl⟩ := (splitHostRequest_eq_ok maintenance).mp splits
    obtain ⟨count, pieces⟩ := Nat.exists_eq_succ_of_ne_zero (Nat.ne_of_gt
      (Nat.lt_of_lt_of_le Nat.zero_lt_one (Nat.le_add_right 1 _) :
        0 < Slices.pieces (hostRequestBytes spec host.toRequest) spec.transactionBytes))
    have later : ((List.range count).map (cutAt spec host ∘ Nat.succ)).filter
        (fun transaction => decide (transaction.transactionIndex = 0)) = [] := by
      refine List.filter_eq_nil_iff.mpr fun transaction member => ?_
      obtain ⟨index, -, rfl⟩ := List.mem_map.mp member
      exact fun first => Nat.succ_ne_zero index (of_decide_eq_true first)
    unfold hosts cut
    rw [pieces, List.range_succ_eq_map, List.map_cons, List.map_map, List.filter_cons, later]
    rfl

theorem split_ne_nil (splits : splitHostRequest spec host = .ok parts) : parts ≠ [] := by
  rintro rfl
  cases hosts_split splits

/-- A transaction of a request that is moved behind control requests. -/
def shiftTransaction (controls interval : Nat) (transaction : TrafficRequest) : TrafficRequest :=
  { shiftWorkload controls interval transaction with
    hostRequestId := transaction.hostRequestId + controls }

/-- A request is split alike wherever it stands. -/
theorem split_shift {controls interval : Nat} :
    splitHostRequest spec (shiftWorkload controls interval host) = .ok parts ↔
      ∃ own, splitHostRequest spec host = .ok own ∧
        parts = own.map (shiftTransaction controls interval) := by
  by_cases maintenance : host.type = .maintenance
  · rw [split_maintenance maintenance,
      @split_maintenance spec (shiftWorkload controls interval host) maintenance]
    constructor
    · intro same
      cases same
      exact ⟨_, rfl, rfl⟩
    · rintro ⟨own, same, rfl⟩
      cases same
      rfl
  · rw [@splitHostRequest_eq_ok spec (shiftWorkload controls interval host) parts maintenance]
    have cuts : cut spec (shiftWorkload controls interval host) =
        (cut spec host).map (shiftTransaction controls interval) := by
      unfold cut
      rw [List.map_map]
      rfl
    constructor
    · rintro ⟨splittable, rfl⟩
      exact ⟨cut spec host, (splitHostRequest_eq_ok maintenance).mpr
        ⟨⟨splittable.countable, splittable.inside, splittable.spec⟩, rfl⟩, cuts⟩
    · rintro ⟨own, splits, rfl⟩
      obtain ⟨splittable, rfl⟩ := (splitHostRequest_eq_ok maintenance).mp splits
      exact ⟨⟨splittable.countable, splittable.inside, splittable.spec⟩, cuts.symm⟩

end Split

/-! ### The numbers of requests -/

section Numbers

variable {spec : DramSpec} {options : TrafficOptions} {draws : Draws}

/-- A control request is one transaction of no host. -/
structure IsControl (request : TrafficRequest) : Prop where
  type : request.type = .maintenance
  host : request.hostRequestId = 0
  index : request.transactionIndex = 0
  count : request.transactionCount = 1
  bytes : request.transferBytes = 0

/-- The control requests are numbered in order. -/
structure ControlSequence.Numbered (sequence : ControlSequence) : Prop where
  id : sequence.id = sequence.out.length
  ids : sequence.out.map (fun request : TrafficRequest => request.id) =
    List.range sequence.out.length
  controls : ∀ request ∈ sequence.out, IsControl request

theorem ControlSequence.Numbered.appendControl {sequence : ControlSequence}
    (numbered : sequence.Numbered) (interval stack channel : Nat) (command : Command) :
    (Frontend.appendControl interval stack channel sequence command).Numbered := by
  obtain ⟨id, ids, controls⟩ := numbered
  refine ⟨?_, ?_, ?_⟩
  · show sequence.id + 1 = (sequence.out ++ [_]).length
    rw [List.length_append, id]
    rfl
  · show (sequence.out ++ [_]).map _ = List.range (sequence.out ++ [_]).length
    rw [List.map_append, ids, List.length_append, List.length_singleton, List.range_succ, ← id]
    rfl
  · intro request member
    rcases List.mem_append.mp member with before | new
    · exact controls request before
    · obtain rfl := List.mem_singleton.mp new
      exact ⟨rfl, rfl, rfl, rfl, rfl⟩

theorem ControlSequence.Numbered.commands {sequence : ControlSequence}
    (numbered : sequence.Numbered) (interval stack channel : Nat) (commands : List Command) :
    (commands.foldl (Frontend.appendControl interval stack channel) sequence).Numbered ∧
      (commands.foldl (Frontend.appendControl interval stack channel) sequence).out.length =
        sequence.out.length + commands.length := by
  induction commands generalizing sequence with
  | nil => exact ⟨numbered, rfl⟩
  | cons command rest inductionHypothesis =>
    obtain ⟨kept, length⟩ :=
      inductionHypothesis (numbered.appendControl interval stack channel command)
    refine ⟨kept, length.trans ?_⟩
    show (sequence.out ++ [_]).length + rest.length = sequence.out.length + (rest.length + 1)
    rw [List.length_append, List.length_singleton, Nat.add_assoc, Nat.add_comm 1]

theorem ControlSequence.Numbered.places {sequence : ControlSequence}
    (numbered : sequence.Numbered) (interval : Nat) (commands : List Command)
    (places : List (Nat × Nat)) :
    (places.foldl (fun (sequences : ControlSequence) place => commands.foldl
        (Frontend.appendControl interval place.1 place.2) sequences) sequence).Numbered ∧
      (places.foldl (fun (sequences : ControlSequence) place => commands.foldl
          (Frontend.appendControl interval place.1 place.2) sequences) sequence).out.length =
        sequence.out.length + places.length * commands.length := by
  induction places generalizing sequence with
  | nil => exact ⟨numbered, by rw [List.length_nil, Nat.zero_mul]; rfl⟩
  | cons place rest inductionHypothesis =>
    obtain ⟨here, added⟩ := numbered.commands interval place.1 place.2 commands
    obtain ⟨kept, length⟩ := inductionHypothesis here
    refine ⟨kept, length.trans ?_⟩
    rw [added, List.length_cons, Nat.succ_mul, Nat.add_assoc, Nat.add_comm commands.length]

theorem two_le_controlCommands (spec : DramSpec) (sequence : String) :
    2 ≤ (controlCommands spec sequence).length := by
  unfold controlCommands
  split
  · exact Nat.le_add_left 2 _
  · exact Nat.le_add_left 2 _

/-- A control sequence is numbered from zero, and is at least two requests long where one is asked
for. -/
theorem generateControlSequence_spec {control : List TrafficRequest}
    (generates : generateControlSequence spec options = .ok control) :
    control.map (fun request : TrafficRequest => request.id) = List.range control.length ∧
      (∀ request ∈ control, IsControl request) ∧
      (noControls options = true → control = []) ∧
      (noControls options = false → 2 ≤ control.length) := by
  unfold generateControlSequence at generates
  split at generates
  next none =>
    cases generates
    exact ⟨rfl, fun _ member => absurd member List.not_mem_nil, fun _ => rfl,
      fun some => Bool.noConfusion (none.symm.trans some)⟩
  next some =>
    dsimp only at generates
    obtain ⟨_, -, generates⟩ := bind_eq_ok.mp generates
    obtain ⟨_, -, returned⟩ := bind_eq_ok.mp generates
    have start : ControlSequence.Numbered {} :=
      ⟨rfl, rfl, fun _ member => absurd member List.not_mem_nil⟩
    obtain ⟨numbered, length⟩ := start.places options.initSequenceInterval
      (controlCommands spec (controlSequenceName spec options))
      ((List.range (max 1 options.stackCount).toNat).flatMap fun stack =>
        (List.range (max 1 spec.org.channels)).map fun channel => (stack, channel))
    have same := Except.ok.inj returned
    rw [same] at length
    refine ⟨same ▸ numbered.ids, same ▸ numbered.controls, fun none => absurd none some,
      fun _ => ?_⟩
    have channels : 1 ≤ max 1 spec.org.channels := Nat.le_max_left 1 _
    have stackCount : 1 ≤ (max 1 options.stackCount).toNat := by omega
    rw [length, List.length_flatMap]
    simp only [List.length_map, List.length_range, List.map_const', List.sum_replicate,
      smul_eq_mul, List.length_nil, Nat.zero_add]
    have commands := two_le_controlCommands spec (controlSequenceName spec options)
    exact le_mul_of_one_le_of_le (Nat.mul_le_mul stackCount channels) commands

end Numbers

/-! ### The numbers of a workload -/

/-- The requests of a workload are numbered in order. -/
theorem BaseTrafficStream.next_id {base later : BaseTrafficStream} {request : TrafficRequest}
    (gives : base.next = .ok (some request, later)) :
    request.id = base.nextId ∧ later.nextId = base.nextId + 1 := by
  cases base with
  | synthetic stream =>
    obtain ⟨⟨pulled, next⟩, pulls, returned⟩ := bind_eq_ok.mp gives
    cases returned
    unfold SyntheticTrafficStream.next at pulls
    split at pulls
    next => cases pulls
    next =>
      cases pulls
      exact ⟨rfl, rfl⟩
  | trace stream =>
    obtain ⟨⟨pulled, next⟩, pulls, returned⟩ := bind_eq_ok.mp gives
    cases returned
    unfold TraceTrafficStream.next at pulls
    split at pulls
    next => cases pulls
    split at pulls
    next =>
      obtain ⟨⟨request', next'⟩, emits, returned⟩ := bind_eq_ok.mp pulls
      cases returned
      exact emitBurst_id emits
    next => exact readLines_id pulls

theorem BaseTrafficStream.ids {base : BaseTrafficStream} {items : List TrafficRequest}
    (drains : Drains BaseTrafficStream.next base items) :
    items.map (fun request : TrafficRequest => request.id) =
      List.range' base.nextId items.length := by
  induction drains with
  | done => rfl
  | more gives _ inductionHypothesis =>
    obtain ⟨id, nextId⟩ := BaseTrafficStream.next_id gives
    rw [List.map_cons, inductionHypothesis, id, nextId]
    rfl

/-! ### What both ways make -/

section Both

variable {spec : DramSpec} {options : TrafficOptions} {draws : Draws}
variable {control items : List TrafficRequest} {parts : List (List TrafficRequest)}

/-- Every request with the transactions it is split into. -/
def SplitInto (spec : DramSpec) (items : List TrafficRequest) (parts : List (List TrafficRequest)) :
    Prop :=
  List.Forall₂ (fun item part => splitHostRequest spec item = .ok part) items parts

theorem SplitInto.unique {others : List (List TrafficRequest)} (splits : SplitInto spec items parts)
    (splits' : SplitInto spec items others) : parts = others := by
  induction splits generalizing others with
  | nil =>
    cases splits'
    rfl
  | cons here _ inductionHypothesis =>
    obtain ⟨part, more, here', rest', rfl⟩ := List.forall₂_cons_left_iff.mp splits'
    rw [Except.ok.inj (here.symm.trans here'), inductionHypothesis rest']

/-- The hosts of the transactions are the requests that were split. -/
theorem SplitInto.hosts (splits : SplitInto spec items parts) :
    hosts parts.flatten = items.map fun request : TrafficRequest => request.id := by
  induction splits with
  | nil => rfl
  | cons here _ inductionHypothesis =>
    rw [List.flatten_cons, hosts_append, hosts_split here, inductionHypothesis]
    rfl

/-- A control request as the stream hands it on. -/
def ownHost (request : TrafficRequest) : TrafficRequest :=
  { request with hostRequestId := request.id }

theorem splitInto_control (controls : ∀ request ∈ control, IsControl request) :
    SplitInto spec (control ++ items) parts ↔
      ∃ rest, SplitInto spec items rest ∧
        parts = control.map (fun request => [ownHost request]) ++ rest := by
  induction control generalizing parts with
  | nil => exact ⟨fun splits => ⟨parts, splits, rfl⟩, fun ⟨_, splits, same⟩ => same ▸ splits⟩
  | cons request rest inductionHypothesis =>
    have here : splitHostRequest spec request = .ok [ownHost request] := by
      obtain ⟨type, -, index, count, bytes⟩ := controls request List.mem_cons_self
      have own : ownHost request = { request with
          hostRequestId := request.id, transactionIndex := 0, transactionCount := 1,
          transferBytes := 0 } := by
        unfold ownHost
        rw [index, count, bytes]
      rw [split_maintenance type, own]
    have later := fun parts => @inductionHypothesis parts fun other member =>
      controls other (List.mem_cons_of_mem _ member)
    unfold SplitInto at later ⊢
    rw [List.cons_append, List.forall₂_cons_left_iff]
    constructor
    · rintro ⟨part, more, splits, others, rfl⟩
      obtain ⟨own, splitsOwn, rfl⟩ := (later more).mp others
      obtain rfl : [ownHost request] = part := Except.ok.inj (here.symm.trans splits)
      exact ⟨own, splitsOwn, rfl⟩
    · rintro ⟨own, splitsOwn, rfl⟩
      exact ⟨_, _, here, (later _).mpr ⟨own, splitsOwn, rfl⟩, rfl⟩

theorem splitInto_shift {controls interval : Nat} :
    SplitInto spec (items.map (shiftWorkload controls interval)) parts ↔
      ∃ own, SplitInto spec items own ∧
        parts = own.map (List.map (shiftTransaction controls interval)) := by
  unfold SplitInto
  induction items generalizing parts with
  | nil =>
    rw [List.map_nil, List.forall₂_nil_left_iff]
    constructor
    · rintro rfl
      exact ⟨[], List.Forall₂.nil, rfl⟩
    · rintro ⟨own, splits, rfl⟩
      cases splits
      rfl
  | cons request rest inductionHypothesis =>
    rw [List.map_cons, List.forall₂_cons_left_iff]
    constructor
    · rintro ⟨part, more, splits, others, rfl⟩
      obtain ⟨here, cuts, rfl⟩ := split_shift.mp splits
      obtain ⟨own, later, rfl⟩ := inductionHypothesis.mp others
      exact ⟨here :: own, List.Forall₂.cons cuts later, rfl⟩
    · rintro ⟨own, splits, rfl⟩
      obtain ⟨here, more, cuts, others, rfl⟩ := List.forall₂_cons_left_iff.mp splits
      exact ⟨_, _, split_shift.mpr ⟨here, cuts, rfl⟩,
        inductionHypothesis.mpr ⟨more, others, rfl⟩, rfl⟩

/-- The numbering of transactions. -/
def numberTransactions (transactions : List TrafficRequest) : List TrafficRequest :=
  numbered (fun id (transaction : TrafficRequest) => { transaction with id }) 0 transactions

/-- What the traffic of the options is made of: the control sequence, and the requests of the
workload with their transactions. -/
structure MadeOf (spec : DramSpec) (options : TrafficOptions) (draws : Draws)
    (control items : List TrafficRequest) (parts : List (List TrafficRequest)) : Prop where
  valid : validateOptions options = .ok ()
  generates : generateControlSequence spec options = .ok control
  workload : ∃ base, makeBaseTrafficStream spec options draws = .ok base ∧
    Drains BaseTrafficStream.next base items
  splits : SplitInto spec items parts

theorem MadeOf.unique {control' items' : List TrafficRequest} {parts' : List (List TrafficRequest)}
    (made : MadeOf spec options draws control items parts)
    (made' : MadeOf spec options draws control' items' parts') :
    control = control' ∧ items = items' ∧ parts = parts' := by
  obtain ⟨base, opens, drains⟩ := made.workload
  obtain ⟨base', opens', drains'⟩ := made'.workload
  obtain rfl : base = base' := Except.ok.inj (opens.symm.trans opens')
  obtain rfl := drains.unique drains'
  exact ⟨Except.ok.inj (made.generates.symm.trans made'.generates), rfl,
    made.splits.unique made'.splits⟩

/-- The batch, put together. -/
def batchOf (options : TrafficOptions) (control : List TrafficRequest)
    (parts : List (List TrafficRequest)) : List TrafficRequest :=
  if control = [] then numberTransactions parts.flatten
  else control ++ (numberTransactions parts.flatten).map
    (shiftWorkload control.length options.initSequenceInterval)

/-- The stream, put together. -/
def streamOf (options : TrafficOptions) (control : List TrafficRequest)
    (parts : List (List TrafficRequest)) : List TrafficRequest :=
  if control = [] then numberTransactions parts.flatten
  else numberTransactions (control.map ownHost ++
    parts.flatten.map (shiftTransaction control.length options.initSequenceInterval))

theorem batches_iff {batch : List TrafficRequest} :
    Batches spec options draws batch ↔
      ∃ control items parts, MadeOf spec options draws control items parts ∧
        batch = batchOf options control parts := by
  constructor
  · rintro ⟨workload, ⟨valid, base, opens, drains⟩, prepends⟩
    obtain ⟨items, parts, pulls, splits, rfl⟩ := (drains_expanded fun _ _ => split_ne_nil).mp drains
    obtain ⟨control, generates, returned⟩ := bind_eq_ok.mp prepends
    exact ⟨control, items, parts, ⟨valid, generates, ⟨base, opens, pulls⟩, splits⟩,
      (Except.ok.inj returned).symm⟩
  · rintro ⟨control, items, parts, made, rfl⟩
    obtain ⟨base, opens, drains⟩ := made.workload
    exact ⟨_, ⟨made.valid, base, opens, (drains_expanded fun _ _ => split_ne_nil).mpr
      ⟨items, parts, drains, made.splits, rfl⟩⟩, bind_eq_ok.mpr ⟨control, made.generates, rfl⟩⟩

theorem flatten_singletons (control : List TrafficRequest) :
    (control.map fun request => [ownHost request]).flatten = control.map ownHost := by
  induction control with
  | nil => rfl
  | cons request rest inductionHypothesis =>
    rw [List.map_cons, List.flatten_cons, inductionHypothesis]
    rfl

/-- The stream with its control requests drains to the transactions put together. -/
theorem splitInto_stream (controls : ∀ request ∈ control, IsControl request) {interval : Nat}
    {whole : List (List TrafficRequest)} :
    SplitInto spec (control ++ items.map
        (if control.length = 0 then id else shiftWorkload control.length interval)) whole ↔
      ∃ parts, SplitInto spec items parts ∧
        whole = control.map (fun request => [ownHost request]) ++
          if control = [] then parts
          else parts.map (List.map (shiftTransaction control.length interval)) := by
  rw [splitInto_control controls]
  by_cases none : control = []
  · subst none
    rw [if_pos (show ([] : List TrafficRequest).length = 0 from rfl), List.map_id]
    simp only [if_true]
  · rw [if_neg fun empty => none (List.length_eq_zero_iff.mp empty)]
    simp only [if_neg none, splitInto_shift]
    constructor
    · rintro ⟨_, ⟨parts, splits, rfl⟩, rfl⟩
      exact ⟨parts, splits, rfl⟩
    · rintro ⟨parts, splits, rfl⟩
      exact ⟨_, ⟨parts, splits, rfl⟩, rfl⟩

theorem streamOf_eq (options : TrafficOptions) (control : List TrafficRequest)
    (parts : List (List TrafficRequest)) :
    streamOf options control parts = numberTransactions
      (control.map (fun request => [ownHost request]) ++
        if control = [] then parts
        else parts.map (List.map (shiftTransaction control.length
          options.initSequenceInterval))).flatten := by
  unfold streamOf
  rw [List.flatten_append, flatten_singletons]
  by_cases none : control = []
  · subst none
    rw [if_pos rfl, if_pos rfl]
    rfl
  · rw [if_neg none, if_neg none, ← List.map_flatten]

theorem streams_iff {streamed : List TrafficRequest} :
    Streams spec options draws streamed ↔
      ∃ control items parts, MadeOf spec options draws control items parts ∧
        streamed = streamOf options control parts := by
  constructor
  · rintro ⟨valid, base, control, opens, generates, drains⟩
    obtain ⟨whole, split, pulls, splits, rfl⟩ :=
      (drains_expanded fun _ _ => split_ne_nil).mp drains
    obtain ⟨items, workload, rfl⟩ := drains_prefixed.mp pulls
    obtain ⟨parts, cuts, rfl⟩ :=
      (splitInto_stream (generateControlSequence_spec generates).2.1).mp splits
    exact ⟨control, items, parts, ⟨valid, generates, ⟨base, opens, workload⟩, cuts⟩,
      (streamOf_eq options control parts).symm⟩
  · rintro ⟨control, items, parts, made, rfl⟩
    obtain ⟨base, opens, drains⟩ := made.workload
    refine ⟨made.valid, base, control, opens, made.generates, ?_⟩
    rw [streamOf_eq]
    exact (drains_expanded fun _ _ => split_ne_nil).mpr ⟨_, _, drains_prefixed.mpr
      ⟨items, drains, rfl⟩, (splitInto_stream (generateControlSequence_spec made.generates).2.1).mpr
        ⟨parts, made.splits, rfl⟩, rfl⟩

/-! ### Where they differ -/

/-- A transaction without its host. -/
def unhosted (transaction : TrafficRequest) : TrafficRequest :=
  { transaction with hostRequestId := 0 }

theorem hosts_cons (transaction : TrafficRequest) (rest : List TrafficRequest) :
    hosts (transaction :: rest) = hosts [transaction] ++ hosts rest :=
  hosts_append [transaction] rest

theorem hosts_singleton (transaction : TrafficRequest) :
    hosts [transaction] =
      if transaction.transactionIndex = 0 then [transaction.hostRequestId] else [] := by
  unfold hosts
  rw [List.filter_singleton]
  by_cases first : transaction.transactionIndex = 0
  · rw [decide_eq_true first, if_pos first]
    rfl
  · rw [decide_eq_false first, if_neg first]
    rfl

theorem hosts_numbered (count : Nat) (transactions : List TrafficRequest) :
    hosts (numbered (fun id (transaction : TrafficRequest) => { transaction with id }) count
      transactions) = hosts transactions := by
  induction transactions generalizing count with
  | nil => rfl
  | cons transaction rest inductionHypothesis =>
    rw [numbered_cons, hosts_cons, inductionHypothesis, hosts_cons transaction, hosts_singleton,
      hosts_singleton]

theorem hosts_ownHost (controls : ∀ request ∈ control, IsControl request) :
    hosts (control.map ownHost) = control.map fun request : TrafficRequest => request.id := by
  induction control with
  | nil => rfl
  | cons request rest inductionHypothesis =>
    have first : hosts [ownHost request] = [request.id] :=
      (hosts_singleton _).trans (if_pos (controls request List.mem_cons_self).index)
    rw [List.map_cons, hosts_cons, first, inductionHypothesis fun other member =>
      controls other (List.mem_cons_of_mem _ member)]
    rfl

theorem hosts_shiftTransaction (controls interval : Nat) (transactions : List TrafficRequest) :
    hosts (transactions.map (shiftTransaction controls interval)) =
      (hosts transactions).map (· + controls) := by
  unfold hosts
  rw [List.filter_map, List.map_map, List.map_map]
  rfl

/-- In the batch the control requests all have one host. -/
theorem hosts_control (controls : ∀ request ∈ control, IsControl request) :
    hosts control = List.replicate control.length 0 := by
  induction control with
  | nil => rfl
  | cons request rest inductionHypothesis =>
    obtain ⟨-, host, index, -, -⟩ := controls request List.mem_cons_self
    have first : hosts [request] = [0] := by
      rw [hosts_singleton, if_pos index, host]
    rw [hosts_cons, first, inductionHypothesis fun other member =>
      controls other (List.mem_cons_of_mem _ member)]
    rfl

theorem unhosted_control {count : Nat}
    (ids : control.map (fun request : TrafficRequest => request.id) =
      List.range' count control.length) :
    (numbered (fun id (transaction : TrafficRequest) => { transaction with id }) count
      (control.map ownHost)).map unhosted = control.map unhosted := by
  induction control generalizing count with
  | nil => rfl
  | cons request rest inductionHypothesis =>
    obtain ⟨here, later⟩ := List.cons.inj ids
    rw [List.map_cons, numbered_cons, List.map_cons, inductionHypothesis later, ← here]
    rfl

theorem unhosted_shift {controls interval : Nat} (count : Nat)
    (transactions : List TrafficRequest) :
    (numbered (fun id (transaction : TrafficRequest) => { transaction with id })
        (count + controls) (transactions.map (shiftTransaction controls interval))).map unhosted =
      ((numbered (fun id (transaction : TrafficRequest) => { transaction with id }) count
        transactions).map (shiftWorkload controls interval)).map unhosted := by
  induction transactions generalizing count with
  | nil => rfl
  | cons transaction rest inductionHypothesis =>
    rw [List.map_cons, numbered_cons, List.map_cons, numbered_cons, List.map_cons, List.map_cons,
      Nat.add_right_comm, inductionHypothesis (count + 1)]
    rfl

/-- The two ways agree on everything but the hosts. -/
theorem unhosted_agree
    (ids : control.map (fun request : TrafficRequest => request.id) =
      List.range control.length) :
    (batchOf options control parts).map unhosted =
      (streamOf options control parts).map unhosted := by
  unfold batchOf streamOf
  by_cases none : control = []
  · rw [if_pos none, if_pos none]
  · rw [if_neg none, if_neg none]
    unfold numberTransactions
    rw [numbered_append, List.map_append, List.map_append, List.length_map, unhosted_control
      (ids.trans List.range_eq_range'), unhosted_shift]

theorem MadeOf.ids (made : MadeOf spec options draws control items parts) :
    ∃ first, items.map (fun request : TrafficRequest => request.id) =
      List.range' first items.length := by
  obtain ⟨base, -, drains⟩ := made.workload
  exact ⟨base.nextId, BaseTrafficStream.ids drains⟩

/-- In the stream every request has a host of its own. -/
theorem MadeOf.hosts_stream (made : MadeOf spec options draws control items parts) :
    (hosts (streamOf options control parts)).Nodup := by
  obtain ⟨ids, controls, -, -⟩ := generateControlSequence_spec made.generates
  obtain ⟨first, itemIds⟩ := made.ids
  unfold streamOf numberTransactions
  split
  next =>
    rw [hosts_numbered, made.splits.hosts, itemIds]
    exact List.nodup_range'
  next =>
    rw [hosts_numbered, hosts_append, hosts_ownHost controls, hosts_shiftTransaction,
      made.splits.hosts, itemIds, ids]
    refine List.nodup_append.mpr ⟨List.nodup_range,
      List.Nodup.map (add_left_injective _) List.nodup_range', ?_⟩
    intro id member other member' same
    obtain ⟨own, -, rfl⟩ := List.mem_map.mp member'
    have below := List.mem_range.mp member
    omega

/-- With a control sequence the batch gives several requests one host. -/
theorem MadeOf.hosts_batch (made : MadeOf spec options draws control items parts)
    (asked : noControls options = false) : ¬ (hosts (batchOf options control parts)).Nodup := by
  obtain ⟨-, controls, -, long⟩ := generateControlSequence_spec made.generates
  have long := long asked
  have some : control ≠ [] := by
    rintro rfl
    exact absurd long (by decide)
  intro nodup
  unfold batchOf at nodup
  rw [if_neg some, hosts_append, hosts_control controls] at nodup
  have short := List.nodup_replicate.mp (List.nodup_append.mp nodup).1
  omega

/-- Batch and stream make traffic of the same options, and it differs in hosts only. The stream
gives every request a host of its own; the batch is the stream, and does so too, exactly when the
options ask for no control sequence. -/
theorem batch_streams_iff (spec : DramSpec) (options : TrafficOptions) (draws : Draws) :
    ((∃ batch, Batches spec options draws batch) ↔
      ∃ streamed, Streams spec options draws streamed) ∧
    ∀ batch streamed, Batches spec options draws batch → Streams spec options draws streamed →
      batch.map unhosted = streamed.map unhosted ∧ (hosts streamed).Nodup ∧
        ((batch = streamed ∧ (hosts batch).Nodup) ↔ noControls options = true) := by
  constructor
  · constructor
    · rintro ⟨batch, batches⟩
      obtain ⟨control, items, parts, made, -⟩ := batches_iff.mp batches
      exact ⟨_, streams_iff.mpr ⟨control, items, parts, made, rfl⟩⟩
    · rintro ⟨streamed, streams⟩
      obtain ⟨control, items, parts, made, -⟩ := streams_iff.mp streams
      exact ⟨_, batches_iff.mpr ⟨control, items, parts, made, rfl⟩⟩
  · intro batch streamed batches streams
    obtain ⟨control, items, parts, made, rfl⟩ := batches_iff.mp batches
    obtain ⟨control', items', parts', made', rfl⟩ := streams_iff.mp streams
    obtain ⟨rfl, rfl, rfl⟩ := made.unique made'
    obtain ⟨ids, controls, empty, long⟩ := generateControlSequence_spec made.generates
    refine ⟨unhosted_agree ids, made.hosts_stream, ?_⟩
    cases asked : noControls options with
    | true =>
      have same : batchOf options control parts = streamOf options control parts := by
        unfold batchOf streamOf
        rw [if_pos (empty asked), if_pos (empty asked)]
      exact ⟨fun _ => rfl, fun _ => ⟨same, same ▸ made.hosts_stream⟩⟩
    | false =>
      exact ⟨fun both => absurd both.2 (made.hosts_batch asked),
        fun absurd => Bool.noConfusion absurd⟩

end Both

/-- One synthetic read behind the control sequence of a device with three channels. -/
def bootOptions : TrafficOptions where
  requests := 1
  initSequence := "hbm"

def firstDraws : Draws where
  ratio _ := 1
  line _ := 0

def bootStream : SyntheticTrafficStream where
  spec := oddSpec
  options := bootOptions
  draws := firstDraws

/-- The control requests of the batch all have host 0. -/
theorem booted_batch_differs :
    ∃ batch streamed, Batches oddSpec bootOptions firstDraws batch ∧
      Streams oddSpec bootOptions firstDraws streamed ∧ batch ≠ streamed ∧
        ¬ (hosts batch).Nodup := by
  have some : (generateControlSequence oddSpec bootOptions).toOption.isSome = true := by
    decide +kernel
  obtain ⟨control, generates⟩ := Option.isSome_iff_exists.mp some
  have splits : splitHostRequest oddSpec bootStream.request =
      .ok (cut oddSpec bootStream.request) :=
    (splitHostRequest_eq_ok (by decide)).mpr ⟨⟨by decide +kernel, by decide +kernel, rfl⟩, rfl⟩
  have made : MadeOf oddSpec bootOptions firstDraws control [bootStream.request]
      [cut oddSpec bootStream.request] :=
    ⟨rfl, toOption_eq_some.mp generates, ⟨.synthetic bootStream, rfl,
      Drains.more rfl (Drains.done rfl)⟩, List.Forall₂.cons splits List.Forall₂.nil⟩
  have shared := made.hosts_batch rfl
  refine ⟨_, _, batches_iff.mpr ⟨_, _, _, made, rfl⟩, streams_iff.mpr ⟨_, _, _, made, rfl⟩, ?_,
    shared⟩
  intro same
  exact shared (same ▸ made.hosts_stream)

end HbmSim.Frontend
