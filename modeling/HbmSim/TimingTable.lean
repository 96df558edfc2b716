/-
The constraint tables of the two device families and `finalizeSpec`, which gives
an accepted spec the table of its family. The names and notes of the entries,
which only reports print, are left out.
-/

import HbmSim.Spec

namespace HbmSim

/-! ### The tables -/

/-- `tc`: in one bucket of the scope, each following command waits for the latency after each
preceding one. -/
def tc (scope : TimingScope) (preceding following : List Command) (latency : Int)
    (window : Int := 0) : TimingConstraint where
  scope := scope
  preceding := preceding
  following := following
  latency := latency
  window := window

/-- `tc_sibling`: the same, in the other buckets of the parent. -/
def tcSibling (scope : TimingScope) (preceding following : List Command) (latency : Int) :
    TimingConstraint :=
  { tc scope preceding following latency with sibling := true }

/-- `make_hbm_constraints`. -/
def makeHbmConstraints (t : Timing) : List TimingConstraint :=
  let nccdr := if 0 < t.nCCDR then t.nCCDR else t.nCCDS
  let nrrefd := if 0 < t.nRREFD then t.nRREFD else t.nRFCpb
  [tc .pseudoChannel [.rd, .rda] [.rd, .rda] t.nBL,
   tc .pseudoChannel [.wr, .wra] [.wr, .wra] t.nBL,
   tc .pseudoChannel [.rd, .rda] [.wr, .wra] t.nRTW,
   tc .pseudoChannel [.wr, .wra] [.rd, .rda] (t.nCWL + t.nBL + t.nWTRS),
   tc .pseudoChannel [.act] [.act] t.nRRDS,
   tc .pseudoChannel [.act] [.act] t.nFAW 4,
   tc .sid [.rd, .rda] [.rd, .rda] t.nCCDS,
   tcSibling .sid [.rd, .rda] [.rd, .rda] nccdr,
   tc .sid [.wr, .wra] [.wr, .wra] t.nCCDS,
   tc .bankGroup [.rd, .rda] [.rd, .rda] t.nCCDL,
   tc .bankGroup [.wr, .wra] [.wr, .wra] t.nCCDL,
   tc .bankGroup [.wr, .wra] [.rd, .rda] (t.nCWL + t.nBL + t.nWTRL),
   tc .bankGroup [.act] [.act] t.nRRDL,
   tc .pseudoChannel [.pre, .prepb, .preab] [.pre, .prepb, .preab] t.nPPD,
   tc .bank [.act] [.act] t.nRC,
   tc .bank [.act] [.rd, .rda] t.nRCDRD,
   tc .bank [.act] [.wr, .wra] t.nRCDWR,
   tc .bank [.act] [.prepb] t.nRAS,
   tc .bank [.prepb] [.act] t.nRP,
   tc .bank [.rd] [.prepb] t.nRTP,
   tc .bank [.wr] [.prepb] (t.nCWL + t.nBL + t.nWR),
   tc .bank [.refpb] [.act] t.nRFCpb,
   tc .pseudoChannel [.refpb] [.act] nrrefd,
   tc .pseudoChannel [.refab] [.act, .prepb, .refpb] t.nRFC,
   tc .bank [.rfmpb] [.act] t.nRFMpb,
   tc .pseudoChannel [.rfmab] [.act, .prepb, .rfmpb] t.nRFMab,
   tc .channel [.mrw] [.act, .rd, .wr, .mrw, .mrr] t.nMRW,
   tc .channel [.mrr] [.act, .rd, .wr, .mrw, .mrr] t.nMRR,
   tc .channel [.eccscrub, .raserr] [.act, .refpb, .rfmpb, .mrw, .mrr]
     (max t.nECCSCRUB t.nRASERR),
   tc .channel [.raserr] [.rd, .wr] t.nLINKRETRY]

/-- `make_lpddr_constraints`. -/
def makeLpddrConstraints (t : Timing) : List TimingConstraint :=
  let nrefdb2act :=
    if 0 < t.nREFDB2ACT then t.nREFDB2ACT else if 0 < t.nRREFD then t.nRREFD else t.nRRDS
  [tc .channel [.rd, .rda] [.rd, .rda] t.nBL,
   tc .channel [.wr, .wra] [.wr, .wra] t.nBL,
   tc .bank [.casrd] [.rd, .rda] (max 0 t.nCAS),
   tc .bank [.caswr] [.wr, .wra] (max 0 t.nCAS),
   tc .rank [.rd, .rda] [.rd, .rda] t.nCCDS,
   tc .rank [.wr, .wra] [.wr, .wra] t.nCCDS,
   tc .rank [.rd, .rda] [.wr, .wra] (t.nCL + t.nBL + 2 - t.nCWL),
   tc .rank [.wr, .wra] [.rd, .rda] (t.nCWL + t.nBL + t.nWTRS),
   tc .rank [.act1] [.act1] t.nRRDS,
   tc .rank [.act1] [.act1] t.nFAW 4,
   tc .bankGroup [.rd, .rda] [.rd, .rda] t.nCCDL,
   tc .bankGroup [.wr, .wra] [.wr, .wra] t.nCCDL,
   tc .bankGroup [.wr, .wra] [.rd, .rda] (t.nCWL + t.nBL + t.nWTRL),
   tc .bankGroup [.act1] [.act1] t.nRRDL,
   tc .channel [.pre, .prepb, .preab] [.pre, .prepb, .preab] t.nPPD,
   tc .bank [.act1] [.act1] t.nRC,
   tc .bank [.act1] [.rd, .rda] t.nRCDRD,
   tc .bank [.act1] [.wr, .wra] t.nRCDWR,
   tc .bank [.act1] [.prepb] t.nRAS,
   tc .bank [.prepb] [.act1] t.nRP,
   tc .bank [.prepb] [.refdb] t.nRP,
   tc .rank [.preab] [.refdb] t.nRPab,
   tc .bank [.rd] [.prepb] t.nRTP,
   tc .bank [.wr] [.prepb] (t.nCWL + t.nBL + t.nWR),
   tc .bank [.refpb] [.act1] t.nRFCpb,
   tc .bank [.refdb] [.act1] t.nRFCpb,
   tc .bank [.rfmpb] [.act1] (if 0 < t.nRFMpb then t.nRFMpb else t.nRFCpb),
   tc .pseudoChannel [.refdb] [.act1] nrefdb2act,
   tc .bank [.refdb] [.refdb] t.nRFCpb,
   tc .rank [.refdb] [.refab] t.nRFCpb,
   tc .rank [.refab] [.refdb, .refab] t.nRFC,
   tc .pseudoChannel [.rfmpb] [.act1] nrefdb2act,
   tc .pseudoChannel [.rfmpb] [.rfmpb] t.nRRDL,
   tc .rank [.refab] [.act1, .preab] t.nRFC,
   tc .rank [.rfmab] [.act1, .preab, .rfmpb] (if 0 < t.nRFMab then t.nRFMab else t.nRFC),
   tc .channel [.mrw] [.act1, .casrd, .caswr, .mrw, .mrr] t.nMRW,
   tc .channel [.mrr] [.act1, .casrd, .caswr, .mrw, .mrr] t.nMRR,
   tc .pseudoChannel [.wcksync] [.rd, .wr] t.nWCKSYNC,
   tc .channel [.wcktrain] [.act1, .casrd, .caswr] t.nWCKTRAIN,
   tc .channel [.dvfs] [.act1, .casrd, .caswr, .mrw] t.nDVFS,
   tc .channel [.pde, .pdx] [.act1, .casrd, .caswr] t.nPDEX,
   tc .channel [.srefen, .srefex] [.act1, .refdb, .rfmpb] t.nSREFEX,
   tc .channel [.eccscrub, .raserr] [.act1, .refdb, .rfmpb, .casrd, .caswr]
     (max t.nECCSCRUB t.nRASERR)]

/-- `finalize_spec`: an accepted spec with the table of its family. -/
def finalizeSpec (spec : DramSpec) : Except Exception DramSpec := do
  validateSpec spec
  return { spec with
    timingConstraints :=
      if spec.lpddrFamily then makeLpddrConstraints spec.timing
      else makeHbmConstraints spec.timing }

/-! ### What the tables have in common -/

/-- The form of an entry: no window is negative, and the only rule between siblings is between
stack ids. -/
def TimingConstraint.WellFormed (constraint : TimingConstraint) : Prop :=
  0 ≤ constraint.window ∧ (constraint.sibling = true → constraint.scope = .sid)

instance (constraint : TimingConstraint) : Decidable constraint.WellFormed :=
  inferInstanceAs (Decidable (0 ≤ constraint.window ∧
    (constraint.sibling = true → constraint.scope = .sid)))

theorem makeHbmConstraints_wellFormed (t : Timing) :
    ∀ constraint ∈ makeHbmConstraints t, constraint.WellFormed := by
  have all : ((makeHbmConstraints t).all fun constraint =>
      decide constraint.WellFormed) = true := rfl
  simpa only [List.all_eq_true, decide_eq_true_eq] using all

theorem makeLpddrConstraints_wellFormed (t : Timing) :
    ∀ constraint ∈ makeLpddrConstraints t, constraint.WellFormed := by
  have all : ((makeLpddrConstraints t).all fun constraint =>
      decide constraint.WellFormed) = true := rfl
  simpa only [List.all_eq_true, decide_eq_true_eq] using all

variable {spec final : DramSpec}

theorem validateSpec_tickMultiplier {checked : Unit} (accepted : validateSpec spec = .ok checked) :
    spec.tickMultiplier ≠ 0 := by
  unfold validateSpec at accepted
  obtain ⟨_, -, accepted⟩ := bind_eq_ok.mp accepted
  obtain ⟨_, -, accepted⟩ := bind_eq_ok.mp accepted
  obtain ⟨_, rates, -⟩ := bind_eq_ok.mp accepted
  rw [throwIf_eq_ok] at rates
  simp only [not_or] at rates
  exact rates.2.2.2.2

theorem finalizeSpec_eq (finalized : finalizeSpec spec = .ok final) :
    (∃ checked, validateSpec spec = .ok checked) ∧ final = { spec with
      timingConstraints :=
        if spec.lpddrFamily then makeLpddrConstraints spec.timing
        else makeHbmConstraints spec.timing } := by
  unfold finalizeSpec at finalized
  obtain ⟨checked, accepted, finalized⟩ := bind_eq_ok.mp finalized
  cases finalized
  exact ⟨⟨checked, accepted⟩, rfl⟩

theorem finalizeSpec_wellFormed (finalized : finalizeSpec spec = .ok final) :
    ∀ constraint ∈ final.timingConstraints, constraint.WellFormed := by
  rw [(finalizeSpec_eq finalized).2]
  dsimp only
  split
  · exact makeLpddrConstraints_wellFormed spec.timing
  · exact makeHbmConstraints_wellFormed spec.timing

end HbmSim
