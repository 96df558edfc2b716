/-
The banks as the issued commands tell it. Which row a bank has open follows
from the activates, the precharges and the auto precharges issued so far, and in
every run the device agrees.
-/

import HbmSim.CommandHistory

namespace HbmSim

variable {spec : DramSpec} {request : Request} {issued : Command} {clk : Nat}
variable {banks : Nat → BankState} {flat : Nat}

/-! ### A bank by the commands -/

inductive BankPhase
  | closed
  | activating
  | opened (row : Nat)
  deriving DecidableEq, Repr

def BankState.phase (bank : BankState) : BankPhase :=
  if bank.activating then .activating
  else match bank.openRow with
    | some row => .opened row
    | none => .closed

theorem BankState.phase_opened {bank : BankState} {row : Nat} (opened : bank.phase = .opened row) :
    bank.openRow = some row := by
  unfold phase at opened
  split at opened
  · cases opened
  · split at opened
    next found =>
      cases opened
      exact found
    next => cases opened

theorem BankState.phase_closed_iff {bank : BankState} : bank.phase = .closed ↔ bank.busy = false := by
  unfold phase busy
  cases bank.activating with
  | true => exact ⟨nofun, nofun⟩
  | false => cases bank.openRow <;> simp

/-- The bank is one of the rank of the coordinates. -/
def inRank (spec : DramSpec) (decoded : DecodedAddress) (flat : Nat) : Prop :=
  (rankBankRange spec decoded).1 ≤ flat ∧ flat < (rankBankRange spec decoded).2

instance (decoded : DecodedAddress) : Decidable (inRank spec decoded flat) :=
  inferInstanceAs (Decidable (_ ∧ _))

/-- What a command makes of a bank. -/
def phaseAfter (spec : DramSpec) (decoded : DecodedAddress) (issued : Command) (flat : Nat)
    (phase : BankPhase) : BankPhase :=
  let here := decoded.flatBank spec = flat
  match issued with
  | .act | .act2 => if here then .opened decoded.row else phase
  | .act1 => if here then .activating else phase
  | .pre | .prepb | .rda | .wra => if here then .closed else phase
  | .preab => if inRank spec decoded flat then .closed else phase
  | _ => phase

/-- A bank after the commands so far. -/
def bankPhase (spec : DramSpec) (commands : List IssuedCommand) (flat : Nat) : BankPhase :=
  commands.foldl (fun phase issued => phaseAfter spec issued.decoded issued.command flat phase)
    .closed

theorem bankPhase_concat (commands : List IssuedCommand) (record : IssuedCommand) :
    bankPhase spec (commands ++ [record]) flat =
      phaseAfter spec record.decoded record.command flat (bankPhase spec commands flat) := by
  unfold bankPhase
  rw [List.foldl_append]
  rfl

/-- The banks as the executor leaves them after the commands so far. -/
def banksAfter (spec : DramSpec) (commands : List IssuedCommand) : Nat → BankState :=
  commands.foldl (fun banks issued =>
    issueBanks spec { decoded := issued.decoded } issued.command issued.cycle banks) fun _ => {}

theorem banksAfter_concat (commands : List IssuedCommand) (record : IssuedCommand) :
    banksAfter spec (commands ++ [record]) =
      issueBanks spec { decoded := record.decoded } record.command record.cycle
        (banksAfter spec commands) := by
  unfold banksAfter
  rw [List.foldl_append]
  rfl

/-! ### A bank by the device -/

/-- The commands that change the bank of their address alone. -/
def touchesOneBank (issued : Command) : Bool :=
  decide (issued ≠ .preab ∧ issued ≠ .refab ∧ issued ≠ .rfmab ∧ issued ≠ .refdb)

theorem not_touchesOneBank (wide : touchesOneBank issued = false) :
    issued = .preab ∨ issued = .refab ∨ issued = .rfmab ∨ issued = .refdb := by
  have not := of_decide_eq_false wide
  tauto

theorem issueBanks_one (one : touchesOneBank issued = true) :
    issueBanks spec request issued clk banks flat =
      if request.decoded.flatBank spec = flat then targetBank spec request issued clk (banks flat)
      else banks flat := by
  obtain ⟨notPreab, notRefab, notRfmab, notRefdb⟩ := of_decide_eq_true one
  unfold issueBanks
  split
  · exact absurd rfl notPreab
  · exact absurd rfl notRefab
  · exact absurd rfl notRfmab
  · dsimp only
    rw [if_neg notRefdb, Function.update_apply]
    split
    next here => rw [if_pos here.symm, here]
    next elsewhere => rw [if_neg fun here => elsewhere here.symm]

theorem issueBanks_preab : issueBanks spec request .preab clk banks flat =
    if inRank spec request.decoded flat then { banks flat with
      openRow := none
      activating := false
      nextAct := max (banks flat).nextAct (clk + timingDelay spec
        (if 0 < spec.timing.nRPab then spec.timing.nRPab else spec.timing.nRP)) }
    else banks flat := rfl

theorem issueBanks_refab : issueBanks spec request .refab clk banks flat =
    if inRank spec request.decoded flat then { banks flat with
      nextAct := max (banks flat).nextAct (clk + timingDelay spec spec.timing.nRFC) }
    else banks flat := rfl

theorem issueBanks_rfmab : issueBanks spec request .rfmab clk banks flat =
    if inRank spec request.decoded flat then { banks flat with
      nextAct := max (banks flat).nextAct (clk + timingDelay spec
        (if 0 < spec.timing.nRFMab then spec.timing.nRFMab else spec.timing.nRFC)) }
    else banks flat := rfl

/-- A dual-bank refresh holds the activates of both banks back. -/
theorem issueBanks_refdb : ∃ nextAct,
    issueBanks spec request .refdb clk banks flat = { banks flat with nextAct } ∧
      ((request.decoded.flatBank spec = flat ∨
          (lpddrRefdbPartner spec request.decoded).flatBank spec = flat) →
        clk + timingDelay spec spec.timing.nRFCpb ≤ nextAct) ∧
      (request.decoded.flatBank spec ≠ flat → (banks flat).nextAct ≤ nextAct) := by
  unfold issueBanks targetBank
  dsimp only
  rw [if_pos rfl]
  generalize (lpddrRefdbPartner spec request.decoded).flatBank spec = partner
  generalize request.decoded.flatBank spec = here
  by_cases isPartner : partner = flat
  · subst isPartner
    rw [Function.update_self]
    by_cases isHere : here = partner
    · subst isHere
      rw [Function.update_self]
      exact ⟨_, rfl, fun _ => Nat.le_max_right .., fun other => absurd rfl other⟩
    · rw [Function.update_of_ne (Ne.symm isHere)]
      exact ⟨_, rfl, fun _ => Nat.le_max_right .., fun _ => Nat.le_max_left ..⟩
  · rw [Function.update_of_ne (Ne.symm isPartner)]
    by_cases isHere : here = flat
    · subst isHere
      rw [Function.update_self]
      exact ⟨_, rfl, fun _ => Nat.le_refl _, fun other => absurd rfl other⟩
    · rw [Function.update_of_ne (Ne.symm isHere)]
      exact ⟨_, rfl, fun touched => absurd touched (not_or.mpr ⟨isHere, isPartner⟩),
        fun _ => Nat.le_refl _⟩

/-- The bank under an activate or an auto precharge is not activating already. -/
def NotActivating (issued : Command) (bank : BankState) : Prop :=
  issued = .act ∨ issued = .rda ∨ issued = .wra → bank.activating = false

theorem targetBank_phase {bank : BankState} (one : touchesOneBank issued = true)
    (idle : NotActivating issued bank) :
    (targetBank spec request issued clk bank).phase =
      phaseAfter spec request.decoded issued (request.decoded.flatBank spec) bank.phase := by
  unfold phaseAfter
  dsimp only
  cases issued with
  | act | rda | wra =>
    have notActivating : bank.activating = false := idle (by simp)
    dsimp only
    rw [if_pos rfl]
    unfold targetBank BankState.phase
    simp [activatedBank, autoPrecharged, notActivating]
  | act1 | act2 | pre | prepb =>
    dsimp only
    rw [if_pos rfl]
    rfl
  | preab | refab | rfmab | refdb => cases one
  | _ => rfl

theorem phaseAfter_elsewhere {phase : BankPhase} (one : touchesOneBank issued = true)
    (elsewhere : request.decoded.flatBank spec ≠ flat) :
    phaseAfter spec request.decoded issued flat phase = phase := by
  unfold phaseAfter
  dsimp only
  cases issued with
  | preab => cases one
  | act | act1 | act2 | pre | prepb | rda | wra => exact if_neg elsewhere
  | _ => rfl

/-- The device changes every bank the way the command says. -/
theorem issueBanks_phase (idle : NotActivating issued (banks (request.decoded.flatBank spec))) :
    (issueBanks spec request issued clk banks flat).phase =
      phaseAfter spec request.decoded issued flat (banks flat).phase := by
  cases one : touchesOneBank issued with
  | true =>
    rw [issueBanks_one one]
    split
    next here =>
      subst here
      exact targetBank_phase one idle
    next elsewhere => rw [phaseAfter_elsewhere one elsewhere]
  | false =>
    rcases not_touchesOneBank one with rfl | rfl | rfl | rfl
    · rw [issueBanks_preab]
      unfold phaseAfter
      dsimp only
      split <;> rfl
    · rw [issueBanks_refab]
      split <;> rfl
    · rw [issueBanks_rfmab]
      split <;> rfl
    · obtain ⟨nextAct, after, -⟩ := @issueBanks_refdb spec request clk banks flat
      rw [after]
      rfl

/-! ### Every run -/

namespace Controller

variable {β : Type} {c before after : Controller β} {commands : List IssuedCommand}
variable {candidate : Candidate}

/-- Every bank of the device is as the commands say. -/
def PhasesTracked (commands : List IssuedCommand) (c : Controller β) : Prop :=
  ∀ flat, (c.banks flat).phase = bankPhase c.spec commands flat

theorem PhasesTracked.quiet (tracked : PhasesTracked commands before)
    (keeps : DeviceKept before after) : PhasesTracked commands after := by
  unfold PhasesTracked
  rw [keeps.banks, keeps.spec]
  exact tracked

theorem stateSnapshot_bankState (c : Controller β) (request : Request) (command : Command) :
    (c.stateSnapshot request command).bankState = match (c.bankOf request).phase with
      | .closed => .closed
      | .activating => .activating
      | .opened _ => .opened := by
  unfold stateSnapshot BankState.phase
  dsimp only
  split
  · rfl
  · cases (c.bankOf request).openRow <;> rfl

theorem notActivating_of_legal {command : Command}
    (legal : (checkCommandState (c.stateSnapshot request command) command).legal = true) :
    NotActivating command (c.bankOf request) := by
  intro which
  unfold checkCommandState legalOutsideSelfRefresh at legal
  rw [stateSnapshot_bankState] at legal
  unfold BankState.phase at legal
  by_contra activating
  rw [Bool.not_eq_false] at activating
  rw [activating] at legal
  rcases which with rfl | rfl | rfl <;> split at legal <;> simp at legal

theorem Issuable.notActivating (issuable : Issuable c candidate request) :
    NotActivating candidate.command (c.bankOf request) := notActivating_of_legal issuable.legal

theorem PhasesTracked.issue (tracked : PhasesTracked commands c)
    (issuable : Issuable c candidate request) {memPhy : MemPhy} {memoryImage : MemoryImage β} :
    PhasesTracked (commands ++ [c.issuedRecord request candidate])
      (c.issueEffects candidate request memPhy memoryImage) := by
  intro flat
  rw [issueEffects_banks, issueEffects_spec, bankPhase_concat,
    issueBanks_phase issuable.notActivating, tracked flat]
  rfl

end Controller

end HbmSim
