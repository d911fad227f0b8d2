import StonksPaper.Domain.Calendar
import StonksPaper.Domain.Journal
import StonksPaper.Domain.Signal

/-!
# Inputs of the hard risk gate

`risk_evaluation.py`: the policy, the marks and sessions of the instruments, and the command that a
risk decision is built from.
-/

namespace StonksPaper

open Chain

inductive AssetClass where
  | equity
  | etf
  | fund
  | index
  | fx
  | crypto
  | future
  | option
deriving DecidableEq, Repr

def AssetClass.value : AssetClass → String
  | equity => "equity"
  | etf => "etf"
  | fund => "fund"
  | index => "index"
  | fx => "fx"
  | crypto => "crypto"
  | future => "future"
  | option => "option"

instance : Dump AssetClass := ⟨fun c => .text c.value⟩

structure HardRiskPolicy where
  policyVersion : String
  decisionValidSeconds : ℕ
  maxDataAgeSeconds : ℕ
  maxKillSwitchAgeSeconds : ℕ
  allowedAssetClasses : List AssetClass
  maxPendingOrders : ℕ
  maxSinglePositionWeight : Decimal
  maxSectorWeight : Decimal
  maxAssetClassWeight : Decimal
  maxGrossExposure : Decimal
  minNetExposure : Decimal
  maxNetExposure : Decimal
  maxTurnover : Decimal
  maxAdvParticipation : Decimal
  maxDrawdown : Decimal
  maxDailyLoss : Decimal
  requireMarketOpen : Bool
deriving DecidableEq

def HardRiskPolicy.policyHash [Hashing] (self : HardRiskPolicy) : Sha256 :=
  stablePayloadHash <| .record "HardRiskPolicy"
    [dump self.policyVersion, dump self.decisionValidSeconds, dump self.maxDataAgeSeconds,
      dump self.maxKillSwitchAgeSeconds, dump self.allowedAssetClasses, dump self.maxPendingOrders,
      dump self.maxSinglePositionWeight, dump self.maxSectorWeight, dump self.maxAssetClassWeight,
      dump self.maxGrossExposure, dump self.minNetExposure, dump self.maxNetExposure,
      dump self.maxTurnover, dump self.maxAdvParticipation, dump self.maxDrawdown,
      dump self.maxDailyLoss, dump self.requireMarketOpen]

def HardRiskPolicy.upperLimits (self : HardRiskPolicy) : List Decimal :=
  [self.maxSinglePositionWeight, self.maxSectorWeight, self.maxAssetClassWeight,
    self.maxGrossExposure, self.maxNetExposure, self.maxTurnover, self.maxAdvParticipation]

def HardRiskPolicy.unitLimits (self : HardRiskPolicy) : List Decimal :=
  [self.maxSinglePositionWeight, self.maxSectorWeight, self.maxAssetClassWeight,
    self.maxAdvParticipation, self.maxDrawdown, self.maxDailyLoss]

def HardRiskPolicy.validate (self : HardRiskPolicy) : Call Unit := do
  versionText self.policyVersion
  atLeast 1 self.decisionValidSeconds
  raiseUnless (self.decisionValidSeconds ≤ 3600) "Input should be less than or equal to 3600"
  raiseUnless (self.maxDataAgeSeconds ≤ 86400) "Input should be less than or equal to 86400"
  raiseUnless (self.maxKillSwitchAgeSeconds ≤ 3600) "Input should be less than or equal to 3600"
  raiseUnless (self.maxPendingOrders ≤ 100000) "Input should be less than or equal to 100000"
  atLeast 1 self.allowedAssetClasses.length
  self.unitLimits.forM unitDecimal
  nonNegativeDecimal self.maxGrossExposure
  nonNegativeDecimal self.minNetExposure
  nonNegativeDecimal self.maxNetExposure
  nonNegativeDecimal self.maxTurnover
  raiseUnless (SortedUnique (self.allowedAssetClasses.map (·.value)))
    "allowed asset classes must be unique and sorted"
  raiseUnless (∀ limit ∈ self.upperLimits, 0 < limit) "hard risk upper limits must be positive"
  raiseUnless (self.minNetExposure ≤ self.maxNetExposure)
    "minimum net exposure cannot exceed maximum"

/-- What the validator of a policy guarantees. -/
structure HardRiskPolicy.Valid (policy : HardRiskPolicy) : Prop where
  version : isVersion policy.policyVersion = true
  valid_seconds : 1 ≤ policy.decisionValidSeconds ∧ policy.decisionValidSeconds ≤ 3600
  data_age : policy.maxDataAgeSeconds ≤ 86400
  switch_age : policy.maxKillSwitchAgeSeconds ≤ 3600
  pending : policy.maxPendingOrders ≤ 100000
  classes : 1 ≤ policy.allowedAssetClasses.length
  classes_sorted : SortedUnique (policy.allowedAssetClasses.map (·.value))
  single : 0 < policy.maxSinglePositionWeight ∧ policy.maxSinglePositionWeight ≤ 1
  sector : 0 < policy.maxSectorWeight ∧ policy.maxSectorWeight ≤ 1
  asset_class : 0 < policy.maxAssetClassWeight ∧ policy.maxAssetClassWeight ≤ 1
  adv : 0 < policy.maxAdvParticipation ∧ policy.maxAdvParticipation ≤ 1
  drawdown : 0 ≤ policy.maxDrawdown ∧ policy.maxDrawdown ≤ 1
  daily_loss : 0 ≤ policy.maxDailyLoss ∧ policy.maxDailyLoss ≤ 1
  gross : 0 < policy.maxGrossExposure
  net : 0 ≤ policy.minNetExposure ∧ 0 < policy.maxNetExposure
  net_range : policy.minNetExposure ≤ policy.maxNetExposure
  turnover : 0 < policy.maxTurnover

theorem HardRiskPolicy.validate_iff {policy : HardRiskPolicy} :
    policy.validate = .success () ↔ policy.Valid := by
  simp only [HardRiskPolicy.validate, Attempt.bind_eq_success, versionText, atLeast_eq_success,
    Attempt.forM_eq_success, HardRiskPolicy.unitLimits, HardRiskPolicy.upperLimits, unitDecimal,
    nonNegativeDecimal_eq_success, raiseUnless_eq_success, List.forall_mem_cons,
    List.not_mem_nil, false_imp_iff, implies_true, and_true]
  constructor
  · intro h
    obtain ⟨_, hversion, _, hleast, _, hmost, _, hdata, _, hswitch, _, hpending, _, hclasses, _,
      ⟨hsingle, hsector, hclass, hadv, hdrawdown, hloss⟩, _, -, _, hmin, _, -, _, -, _, hsorted, _,
      ⟨psingle, psector, pclass, pgross, pnet, pturnover, padv⟩, hrange⟩ := h
    exact
      { version := hversion
        valid_seconds := ⟨hleast, hmost⟩
        data_age := hdata
        switch_age := hswitch
        pending := hpending
        classes := hclasses
        classes_sorted := hsorted
        single := ⟨psingle, hsingle.2⟩
        sector := ⟨psector, hsector.2⟩
        asset_class := ⟨pclass, hclass.2⟩
        adv := ⟨padv, hadv.2⟩
        drawdown := hdrawdown
        daily_loss := hloss
        gross := pgross
        net := ⟨hmin, pnet⟩
        net_range := hrange
        turnover := pturnover }
  · intro h
    refine ⟨(), h.version, (), h.valid_seconds.1, (), h.valid_seconds.2, (), h.data_age, (),
      h.switch_age, (), h.pending, (), h.classes, (), ?_, (), h.gross.le, (), h.net.1, (),
      h.net.2.le, (), h.turnover.le, (), h.classes_sorted, (), ?_, h.net_range⟩
    · exact ⟨⟨h.single.1.le, h.single.2⟩, ⟨h.sector.1.le, h.sector.2⟩,
        ⟨h.asset_class.1.le, h.asset_class.2⟩, ⟨h.adv.1.le, h.adv.2⟩, h.drawdown, h.daily_loss⟩
    · exact ⟨h.single.1, h.sector.1, h.asset_class.1, h.gross, h.net.2, h.turnover, h.adv.1⟩

/-! ## Instruments -/

structure RiskInstrumentState where
  instrumentId : UUID
  assetClass : AssetClass
  sector : String
  mic : String
  currency : Currency
  markPrice : Decimal
  markAsOf : UTCDateTime
  quantityQuantum : Decimal
  averageDailyVolume : Decimal
  session : MarketSession
deriving DecidableEq

def RiskInstrumentState.validate (self : RiskInstrumentState) : Call Unit := do
  nonEmptyString self.sector
  raiseUnless (isMic self.mic = true) "String should match the MIC pattern"
  currencyCode self.currency
  positiveDecimal self.markPrice
  positiveDecimal self.quantityQuantum
  positiveDecimal self.averageDailyVolume
  self.session.validate
  raiseUnless (self.session.mic = self.mic) "risk instrument and market session MIC differ"

structure RiskKillSwitchState where
  globalActive : Bool
  accountActive : Bool
  observedAt : UTCDateTime
deriving DecidableEq

/-! ## The command -/

structure BuildRiskDecisionCommand where
  decisionId : UUID
  snapshot : AccountPortfolioSnapshot
  target : PortfolioTarget
  instruments : List RiskInstrumentState
  signalCandidates : List PortfolioSignalCandidate
  openReservations : List AccountReservation
  ledgerHead : LedgerHead
  highWatermarkNav : Decimal
  dayStartNav : Decimal
  killSwitch : RiskKillSwitchState
  at_ : UTCDateTime
deriving DecidableEq

/-- The validators of all parts of a command. -/
def BuildRiskDecisionCommand.validate [Arithmetic] [Hashing] (self : BuildRiskDecisionCommand) :
    Call Unit := do
  self.snapshot.cash.forM (·.validate)
  self.snapshot.positions.forM (·.validate)
  self.snapshot.validate
  self.target.allocations.forM (·.validate)
  self.target.validate
  maxLength tupleLimit self.instruments.length
  self.instruments.forM (·.validate)
  maxLength tupleLimit self.signalCandidates.length
  self.signalCandidates.forM fun candidate => do
    candidate.signal.validate
    candidate.registry.manifest.validate
    candidate.registry.validate
    candidate.evaluation.validate
  maxLength tupleLimit self.openReservations.length
  self.openReservations.forM (·.validate)
  self.ledgerHead.validate
  positiveDecimal self.highWatermarkNav
  positiveDecimal self.dayStartNav

/-- What the validators of a command guarantee. -/
structure BuildRiskDecisionCommand.Valid [Arithmetic] [Hashing]
    (command : BuildRiskDecisionCommand) : Prop where
  cash : ∀ balance ∈ command.snapshot.cash, balance.validate = .success ()
  positions : ∀ balance ∈ command.snapshot.positions, balance.validate = .success ()
  snapshot : command.snapshot.validate = .success ()
  allocations : ∀ a ∈ command.target.allocations, a.validate = .success ()
  target : command.target.validate = .success ()
  instruments : ∀ i ∈ command.instruments, i.validate = .success ()
  reservations : ∀ r ∈ command.openReservations, r.validate = .success ()
  watermark : 0 < command.highWatermarkNav
  dayStart : 0 < command.dayStartNav

theorem BuildRiskDecisionCommand.valid_of_validate [Arithmetic] [Hashing]
    {command : BuildRiskDecisionCommand} (h : command.validate = .success ()) : command.Valid := by
  simp only [BuildRiskDecisionCommand.validate, Attempt.bind_eq_success, Attempt.forM_eq_success,
    maxLength_eq_success, positiveDecimal_eq_success] at h
  obtain ⟨_, hcash, _, hpositions, _, hsnapshot, _, hallocations, _, htarget, _, -, _, hinstruments,
    _, -, _, -, _, -, _, hreservations, _, -, _, hwatermark, hdayStart⟩ := h
  exact
    { cash := hcash
      positions := hpositions
      snapshot := hsnapshot
      allocations := hallocations
      target := htarget
      instruments := hinstruments
      reservations := hreservations
      watermark := hwatermark
      dayStart := hdayStart }

end StonksPaper
