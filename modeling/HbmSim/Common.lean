/-
This file fixes the vocabulary every other file speaks: cycles, byte addresses
and byte vectors, the command set of the controller with the table that says
what each command does, and the policy enumerations of the configuration.

Cycles, addresses and counters are natural numbers. The source keeps them in
64-bit words, and the few places where a word can saturate (`range_end`, the
geometry products) carry the bound explicitly.
-/

import Mathlib

namespace HbmSim

abbrev ByteVector := List UInt8

/-- The largest value of a 64-bit word. -/
def uint64Max : Nat := 2 ^ 64 - 1

/-- The largest value of an `int`. -/
def intMax : Nat := 2 ^ 31 - 1

/-- The white space of a text. -/
def isSpace (c : Char) : Bool :=
  decide (c ∈ [' ', '\t', '\n', '\x0b', '\x0c', '\r'])

/-! ### Exceptions -/

/-- The standard exception classes the modelled functions throw. -/
inductive ExceptionKind
  | invalidArgument
  | outOfRange
  | overflowError
  | runtimeError
  | logicError
  deriving DecidableEq, Repr

/-- A thrown exception: its class and its message. -/
structure Exception where
  kind : ExceptionKind
  what : String
  deriving DecidableEq, Repr

def invalidArgument (what : String) : Exception := ⟨.invalidArgument, what⟩
def outOfRange (what : String) : Exception := ⟨.outOfRange, what⟩
def overflowError (what : String) : Exception := ⟨.overflowError, what⟩
def runtimeError (what : String) : Exception := ⟨.runtimeError, what⟩
def logicError (what : String) : Exception := ⟨.logicError, what⟩

/-- Throw `error` when `bad` holds. -/
def throwIf (bad : Prop) [Decidable bad] (error : Exception) : Except Exception Unit :=
  if bad then .error error else .ok ()

@[simp] theorem throwIf_eq_ok {bad : Prop} [Decidable bad] {error : Exception} {value : Unit} :
    throwIf bad error = .ok value ↔ ¬ bad := by
  unfold throwIf
  split <;> simp_all

/-- A sequence of two computations returns when the first returns and the second returns on
its result. -/
theorem bind_eq_ok {α β : Type} {first : Except Exception α} {next : α → Except Exception β}
    {result : β} :
    (first >>= next) = .ok result ↔ ∃ value, first = .ok value ∧ next value = .ok result := by
  cases first with
  | error error => exact ⟨nofun, fun ⟨_, absurd, _⟩ => nomatch absurd⟩
  | ok value =>
    constructor
    · intro returns
      exact ⟨value, rfl, returns⟩
    · rintro ⟨other, equal, returns⟩
      cases equal
      exact returns

/-- What every step of a fold keeps, the fold keeps. -/
theorem foldlM_keeps {α σ : Type} {step : σ → α → Except Exception σ} (kept : σ → Prop)
    (keeps : ∀ state item next, kept state → step state item = .ok next → kept next)
    (items : List α) {state final : σ} (start : kept state)
    (returns : items.foldlM step state = .ok final) : kept final := by
  induction items generalizing state with
  | nil =>
    cases returns
    exact start
  | cons item rest inductionHypothesis =>
    rw [List.foldlM_cons] at returns
    obtain ⟨middle, steps, remaining⟩ := bind_eq_ok.mp returns
    exact inductionHypothesis (keeps _ _ _ start steps) remaining

/-! ### Enumerations -/

inductive RequestType
  | read
  | write
  | maintenance
  deriving DecidableEq, Repr

/-- The abstract DRAM command set, in the order of the source's enumeration. -/
inductive Command
  | act
  | act1
  | act2
  | pre
  | prepb
  | preab
  | casrd
  | caswr
  | rd
  | wr
  | rda
  | wra
  | refab
  | refpb
  | refdb
  | rfmab
  | rfmpb
  | mrw
  | mrr
  | wcksync
  | wcktrain
  | dvfs
  | pde
  | pdx
  | srefen
  | srefex
  | eccscrub
  | raserr
  | nop
  deriving DecidableEq, Repr

inductive BusClass
  | row
  | column
  | unified
  deriving DecidableEq, Repr

inductive SchedulerKind
  | frfcfs
  | fcfs
  deriving DecidableEq, Repr

inductive RowPolicyKind
  | openPage
  | closedPage
  | closedCap
  deriving DecidableEq, Repr

inductive AddressMappingKind
  | default
  | roBaRaCoCh
  | chRaBaRoCo
  | roCoRaBaCh
  deriving DecidableEq, Repr

/-- How the system chooses the channel of a read or write. -/
inductive ChannelMapperKind
  | decoded
  | roundRobin
  | xor
  deriving DecidableEq, Repr

inductive LpddrEfficiencyMode
  | normal
  | static
  | dynamic
  deriving DecidableEq, Repr

inductive LpddrDvfsMode
  | nominal
  | low
  | disabled
  deriving DecidableEq, Repr

inductive LpddrWckMode
  | casSync
  | alwaysOn
  | burstSync
  deriving DecidableEq, Repr

inductive LowPowerMode
  | off
  | powerDown
  | selfRefresh
  deriving DecidableEq, Repr

inductive MaintenancePolicyKind
  | perBank
  | allBank
  deriving DecidableEq, Repr

inductive RefreshTemperatureMode
  | normal
  | high
  | extended
  deriving DecidableEq, Repr

inductive TimingScope
  | channel
  | pseudoChannel
  | sid
  | rank
  | bankGroup
  | bank
  deriving DecidableEq, Repr

/-! ### Command semantics -/

/-- One row of the command table: the classes a command belongs to. -/
structure CommandMeta where
  rowCommand : Bool
  columnCommand : Bool
  activate : Bool
  precharge : Bool
  cas : Bool
  data : Bool
  refresh : Bool
  rfm : Bool
  opening : Bool
  closing : Bool
  accessing : Bool
  allBank : Bool
  autoPrecharge : Bool
  modeRegister : Bool
  training : Bool
  power : Bool
  ras : Bool
  deriving DecidableEq, Repr

/-- The command table. The columns follow the fields of `CommandMeta`. -/
def commandMeta : Command → CommandMeta
  | .act => ⟨true, false, true, false, false, false, false, false, true, false,
      false, false, false, false, false, false, false⟩
  | .act1 => ⟨true, false, true, false, false, false, false, false, true, false,
      false, false, false, false, false, false, false⟩
  | .act2 => ⟨true, false, false, false, false, false, false, false, false,
      false, false, false, false, false, false, false, false⟩
  | .pre => ⟨true, false, false, true, false, false, false, false, false, true,
      false, false, false, false, false, false, false⟩
  | .prepb => ⟨true, false, false, true, false, false, false, false, false, true,
      false, false, false, false, false, false, false⟩
  | .preab => ⟨true, false, false, true, false, false, false, false, false, true,
      false, true, false, false, false, false, false⟩
  | .casrd => ⟨false, true, false, false, true, false, false, false, false,
      false, false, false, false, false, false, false, false⟩
  | .caswr => ⟨false, true, false, false, true, false, false, false, false,
      false, false, false, false, false, false, false, false⟩
  | .rd => ⟨false, true, false, false, false, true, false, false, false, false,
      true, false, false, false, false, false, false⟩
  | .wr => ⟨false, true, false, false, false, true, false, false, false, false,
      true, false, false, false, false, false, false⟩
  | .rda => ⟨false, true, false, false, false, true, false, false, false, true,
      true, false, true, false, false, false, false⟩
  | .wra => ⟨false, true, false, false, false, true, false, false, false, true,
      true, false, true, false, false, false, false⟩
  | .refab => ⟨true, false, false, false, false, false, true, false, false,
      false, false, true, false, false, false, false, false⟩
  | .refpb => ⟨true, false, false, false, false, false, true, false, false,
      false, false, false, false, false, false, false, false⟩
  | .refdb => ⟨true, false, false, false, false, false, true, false, false,
      false, false, false, false, false, false, false, false⟩
  | .rfmab => ⟨true, false, false, false, false, false, false, true, false,
      false, false, true, false, false, false, false, false⟩
  | .rfmpb => ⟨true, false, false, false, false, false, false, true, false,
      false, false, false, false, false, false, false, false⟩
  | .mrw => ⟨true, false, false, false, false, false, false, false, false, false,
      false, true, false, true, false, false, false⟩
  | .mrr => ⟨true, false, false, false, false, false, false, false, false, false,
      false, true, false, true, false, false, false⟩
  | .wcksync => ⟨false, true, false, false, true, false, false, false, false,
      false, false, false, false, false, true, false, false⟩
  | .wcktrain => ⟨true, false, false, false, false, false, false, false, false,
      false, false, true, false, false, true, false, false⟩
  | .dvfs => ⟨true, false, false, false, false, false, false, false, false,
      false, false, true, false, false, false, true, false⟩
  | .pde => ⟨true, false, false, false, false, false, false, false, false, false,
      false, true, false, false, false, true, false⟩
  | .pdx => ⟨true, false, false, false, false, false, false, false, false, false,
      false, true, false, false, false, true, false⟩
  | .srefen => ⟨true, false, false, false, false, false, false, false, false,
      false, false, true, false, false, false, true, false⟩
  | .srefex => ⟨true, false, false, false, false, false, false, false, false,
      false, false, true, false, false, false, true, false⟩
  | .eccscrub => ⟨true, false, false, false, false, false, false, false, false,
      false, false, true, false, false, false, false, true⟩
  | .raserr => ⟨true, false, false, false, false, false, false, false, false,
      false, false, true, false, false, false, false, true⟩
  | .nop => ⟨false, false, false, false, false, false, false, false, false,
      false, false, false, false, false, false, false, false⟩

def readCommandFor (rowPolicy : RowPolicyKind) : Command :=
  if rowPolicy = .closedPage then .rda else .rd

def writeCommandFor (rowPolicy : RowPolicyKind) : Command :=
  if rowPolicy = .closedPage then .wra else .wr

/-- The data commands are the four column accesses. -/
theorem commandMeta_data_iff (command : Command) :
    (commandMeta command).data = true ↔
      command = .rd ∨ command = .wr ∨ command = .rda ∨ command = .wra := by
  cases command <;> decide

end HbmSim
