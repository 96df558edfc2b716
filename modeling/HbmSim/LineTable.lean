/-
What a line store is for: a table with one optional line a slot. A store is used
through five operations and three observations; one that simulates the table,
operation by operation, cannot be told from it by any run.
-/

import HbmSim.Backend
import HbmSim.Lib.Slots

namespace HbmSim

/-! ### Using a line store -/

/-- One use of a line store. -/
inductive BackendOp where
  | store (base : Nat) (line : BackendLine)
  | load (base : Nat)
  | clear
  | flush
  /-- A flush, and a new store on what the old one left. -/
  | reopen

inductive BackendAnswer where
  | stored (inserted : Bool)
  | loaded (found : Option BackendLine)
  | done

/-- A line store as its users see it. -/
structure LineStore (σ : Type) where
  step : BackendOp → σ → Except Exception (BackendAnswer × σ)
  allocatedLines : σ → Nat
  uniqueWrittenLines : σ → Nat
  allAddresses : σ → List Nat

/-- What a use answers or throws, and what the store says of itself then. -/
structure BackendRecord where
  answer : Except Exception BackendAnswer
  allocatedLines : Nat
  uniqueWrittenLines : Nat
  allAddresses : List Nat

namespace LineStore

variable {σ τ : Type}

/-- The state a use leaves: one that throws changes nothing. -/
def kept (state : σ) : Except Exception (BackendAnswer × σ) → σ
  | .ok (_, after) => after
  | .error _ => state

def next (implementation : LineStore σ) (op : BackendOp) (state : σ) : σ :=
  kept state (implementation.step op state)

def record (implementation : LineStore σ) (op : BackendOp) (state : σ) : BackendRecord where
  answer := (implementation.step op state).map Prod.fst
  allocatedLines := implementation.allocatedLines (implementation.next op state)
  uniqueWrittenLines := implementation.uniqueWrittenLines (implementation.next op state)
  allAddresses := implementation.allAddresses (implementation.next op state)

/-- The records of a run. -/
def run (implementation : LineStore σ) : List BackendOp → σ → List BackendRecord
  | [], _ => []
  | op :: rest, state =>
    implementation.record op state :: implementation.run rest (implementation.next op state)

/-! ### One store simulates another -/

/-- Both throw the same exception, or both answer the same and the states stay related. -/
inductive SameOutcome (related : σ → τ → Prop) :
    Except Exception (BackendAnswer × σ) → Except Exception (BackendAnswer × τ) → Prop where
  | threw (thrown : Exception) : SameOutcome related (.error thrown) (.error thrown)
  | answered {state : σ} {image : τ} (answer : BackendAnswer) (stays : related state image) :
      SameOutcome related (.ok (answer, state)) (.ok (answer, image))

/-- Related states are observed alike, and a permitted use keeps them related. -/
structure Simulates (permitted : BackendOp → Prop) (related : σ → τ → Prop)
    (implementation : LineStore σ) (specification : LineStore τ) : Prop where
  outcome (op : BackendOp) (state : σ) (image : τ) : permitted op → related state image →
    SameOutcome related (implementation.step op state) (specification.step op image)
  allocatedLines (state : σ) (image : τ) : related state image →
    implementation.allocatedLines state = specification.allocatedLines image
  uniqueWrittenLines (state : σ) (image : τ) : related state image →
    implementation.uniqueWrittenLines state = specification.uniqueWrittenLines image
  allAddresses (state : σ) (image : τ) : related state image →
    implementation.allAddresses state = specification.allAddresses image

variable {permitted : BackendOp → Prop} {related : σ → τ → Prop}
variable {implementation : LineStore σ} {specification : LineStore τ}
variable {op : BackendOp} {state : σ} {image : τ}

theorem SameOutcome.kept {first : Except Exception (BackendAnswer × σ)}
    {second : Except Exception (BackendAnswer × τ)} (same : SameOutcome related first second)
    (here : related state image) :
    related (LineStore.kept state first) (LineStore.kept image second) := by
  cases same with
  | threw thrown => exact here
  | answered answer stays => exact stays

theorem SameOutcome.answer {first : Except Exception (BackendAnswer × σ)}
    {second : Except Exception (BackendAnswer × τ)} (same : SameOutcome related first second) :
    first.map Prod.fst = second.map Prod.fst := by
  cases same with
  | threw thrown => rfl
  | answered answer stays => rfl

theorem Simulates.next (simulates : Simulates permitted related implementation specification)
    (allowed : permitted op) (here : related state image) :
    related (implementation.next op state) (specification.next op image) :=
  (simulates.outcome op state image allowed here).kept here

theorem Simulates.record (simulates : Simulates permitted related implementation specification)
    (allowed : permitted op) (here : related state image) :
    implementation.record op state = specification.record op image := by
  have later := simulates.next allowed here
  unfold LineStore.record
  rw [(simulates.outcome op state image allowed here).answer, simulates.allocatedLines _ _ later,
    simulates.uniqueWrittenLines _ _ later, simulates.allAddresses _ _ later]

/-- No run of permitted uses tells the two apart. -/
theorem Simulates.run (simulates : Simulates permitted related implementation specification)
    {ops : List BackendOp} (allowed : ∀ op ∈ ops, permitted op) (here : related state image) :
    implementation.run ops state = specification.run ops image := by
  induction ops generalizing state image with
  | nil => rfl
  | cons op rest inductionHypothesis =>
    have first := allowed op List.mem_cons_self
    unfold LineStore.run
    rw [simulates.record first here, inductionHypothesis
      (fun later member => allowed later (List.mem_cons_of_mem _ member)) (simulates.next first here)]

end LineStore

/-! ### The table -/

/-- A use inside a store of so many lines: at the start of a line, with a mask of `0` and `0xff`
only. -/
def BackendOp.Inside (lineSize capacityBytes : Nat) : BackendOp → Prop
  | .store base line => base % lineSize = 0 ∧ base + lineSize ≤ capacityBytes ∧
      ∀ byte ∈ line.initializedMask, byte = 0 ∨ byte = 0xff
  | .load base => base % lineSize = 0 ∧ base + lineSize ≤ capacityBytes
  | .clear | .flush | .reopen => True

/-- A line that has been written carries a version. -/
def hasVersion (found : Option BackendLine) : Bool := found.any fun line => decide (0 < line.version)

/-- The table of lines: what a store of that line size and capacity is to be. -/
def lineTable (lineSize capacityBytes : Nat) : LineStore (Nat → Option BackendLine) where
  step op slots :=
    match op with
    | .store base line => do
      validateLine base line lineSize capacityBytes
      return (.stored (slots (base / lineSize)).isNone, Slots.put slots (base / lineSize) line)
    | .load base => return (.loaded (slots (base / lineSize)), slots)
    | .clear => return (.done, fun _ => none)
    | .flush | .reopen => return (.done, slots)
  allocatedLines := Slots.count (capacityBytes / lineSize) Option.isSome
  uniqueWrittenLines := Slots.count (capacityBytes / lineSize) hasVersion
  allAddresses slots := (Slots.used (capacityBytes / lineSize) slots).map (· * lineSize)

variable {lineSize capacityBytes base : Nat}

/-- The slot of a line inside, and the line's address again. -/
theorem slot_of_base (aligned : base % lineSize = 0)
    (room : base + lineSize ≤ capacityBytes) (positive : 0 < lineSize) :
    base / lineSize < capacityBytes / lineSize ∧ base / lineSize * lineSize = base := by
  have whole : base / lineSize * lineSize = base :=
    Nat.div_mul_cancel (Nat.dvd_of_mod_eq_zero aligned)
  refine ⟨(Nat.le_div_iff_mul_le positive).mpr ?_, whole⟩
  rw [Nat.succ_mul, whole]
  exact room

/-- A store that throws what the validation throws, and else answers and puts the line, does what
the table does. -/
theorem LineStore.SameOutcome.stored {σ : Type} {related : σ → (Nat → Option BackendLine) → Prop}
    {slots : Nat → Option BackendLine} {line : BackendLine} {outcome : Except Exception (Bool × σ)}
    (throws : ∀ thrown, validateLine base line lineSize capacityBytes = .error thrown →
      outcome = .error thrown)
    (stores : validateLine base line lineSize capacityBytes = .ok () → ∃ after,
      outcome = .ok ((slots (base / lineSize)).isNone, after) ∧
        related after (Slots.put slots (base / lineSize) line)) :
    LineStore.SameOutcome related
      (do let (inserted, after) ← outcome; return (BackendAnswer.stored inserted, after))
      ((lineTable lineSize capacityBytes).step (.store base line) slots) := by
  unfold lineTable
  dsimp only
  cases valid : validateLine base line lineSize capacityBytes with
  | error thrown =>
    rw [throws thrown valid]
    exact LineStore.SameOutcome.threw thrown
  | ok checked =>
    obtain ⟨after, answers, stays⟩ := stores valid
    rw [answers]
    exact LineStore.SameOutcome.answered _ stays

/-- A line that is validated has the line size. -/
theorem validateLine_fits {line : BackendLine}
    (valid : validateLine base line lineSize capacityBytes = .ok ())
    (canonical : ∀ byte ∈ line.initializedMask, byte = 0 ∨ byte = 0xff) : line.Fits lineSize := by
  obtain ⟨_, -, rest⟩ := bind_eq_ok.mp valid
  obtain ⟨_, lengths, -⟩ := bind_eq_ok.mp rest
  rw [throwIf_eq_ok, not_or, not_not, not_not] at lengths
  exact ⟨lengths.1, lengths.2, canonical⟩

end HbmSim
