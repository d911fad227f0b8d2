import StonksPaper.Base.Table
import StonksPaper.Domain.RiskEvaluation

/-!
# The hard risk gate

`risk/evaluate.py`. A target is approved when all of nineteen checks pass; each of them reads its
own part of the command. The mappings that the checks share are those of `_evaluation_state`.
-/

namespace StonksPaper

open Chain Quantum

def calculationQuantum : Decimal := 1 / 1000000000000

/-- `_quantize`, for a value that has no more digits than the context keeps. -/
def quantize (value : Decimal) : Decimal := halfEvenTo value calculationQuantum

/-- `max(values, default=ZERO)`. -/
def maxOf : List Decimal → Decimal
  | [] => 0
  | x :: xs => xs.foldl max x

theorem le_foldl_max {x start : Decimal} {xs : List Decimal} (h : x ≤ start) :
    x ≤ xs.foldl max start := by
  induction xs generalizing start with
  | nil => exact h
  | cons y ys ih => exact ih (h.trans (le_max_left ..))

theorem le_foldl_max_of_mem {x start : Decimal} {xs : List Decimal} (h : x ∈ xs) :
    x ≤ xs.foldl max start := by
  induction xs generalizing start with
  | nil => cases h
  | cons y ys ih =>
      rw [List.foldl_cons]
      rcases List.mem_cons.mp h with rfl | h
      · exact le_foldl_max (le_max_right ..)
      · exact ih h

def seconds (start stop : UTCDateTime) : Decimal := ((stop - start : ℤ) : ℚ) / 1000000

section

variable [Arithmetic]

namespace BuildRiskDecisionCommand

variable (self : BuildRiskDecisionCommand)

/-! ## `_evaluation_state` -/

/-- `state.instruments.get(instrument_id)`: of two states of one instrument the later counts. -/
def instrument (instrumentId : UUID) : Option RiskInstrumentState :=
  Table.get (·.instrumentId) self.instruments.reverse instrumentId

def DuplicateInstruments : Prop := ¬ (self.instruments.map (·.instrumentId)).Nodup

instance : Decidable self.DuplicateInstruments := inferInstanceAs (Decidable (¬ _))

/-- `state.positions.get(instrument_id)`; a snapshot has one position of an instrument at most. -/
def position (instrumentId : UUID) : Option PositionBalance :=
  Table.get (·.instrumentId) self.snapshot.positions instrumentId

def cash : Option CashBalance := Table.get (·.currency) self.snapshot.cash self.target.costCurrency

def markPrice (instrumentId : UUID) : Decimal :=
  (self.instrument instrumentId).elim 0 (·.markPrice)

def portfolioValue (cash : CashBalance) : Decimal :=
  kept (cash.settledAmount + Arithmetic.context.sum
    (self.snapshot.positions.map fun p => kept (p.quantity * self.markPrice p.instrumentId)))

def nav : Option Decimal :=
  match self.cash with
  | none => none
  | some cash =>
      if (∀ p ∈ self.snapshot.positions, self.instrument p.instrumentId ≠ none) ∧
          0 < self.portfolioValue cash then some (self.portfolioValue cash)
      else none

def allocation (instrumentId : UUID) : Option TargetAllocation :=
  Table.get (·.instrumentId) self.target.allocations instrumentId

def known : List (TargetAllocation × RiskInstrumentState) :=
  self.target.allocations.filterMap fun a => (self.instrument a.instrumentId).map fun i => (a, i)

def MissingInstrument : Prop :=
  ∃ a ∈ self.target.allocations, self.instrument a.instrumentId = none

instance : Decidable self.MissingInstrument := inferInstanceAs (Decidable (∃ _, _ ∧ _))

end BuildRiskDecisionCommand

/-- `_check`. -/
def riskCheck (code : String) (passed : Prop) [Decidable passed] (actual limit : Option Decimal)
    (reason : String) : RiskCheck :=
  { code, actual, limit
    passed := passed
    reason := if passed then none else some reason }

omit [Arithmetic] in
@[simp] theorem riskCheck_passed {code : String} {passed : Prop} [Decidable passed]
    {actual limit : Option Decimal} {reason : String} :
    (riskCheck code passed actual limit reason).passed = true ↔ passed := by
  simp [riskCheck]

variable (command : BuildRiskDecisionCommand) (policy : HardRiskPolicy)

/-! ## Bindings -/

def PositionMatches : Prop :=
  (∀ p ∈ command.snapshot.positions,
    (command.allocation p.instrumentId).map (·.currentQuantity) = some p.quantity) ∧
  ∀ a ∈ command.target.allocations,
    command.position a.instrumentId ≠ none ∨ a.currentQuantity = 0

instance : Decidable (PositionMatches command) := inferInstanceAs (Decidable (_ ∧ _))

/-- The target is bound to the snapshot, to its sequences and to its instant. -/
def TargetBound [Hashing] : Prop :=
  command.target.calculationHash = command.target.expectedCalculationHash ∧
  command.target.accountId = command.snapshot.accountId ∧
  command.target.portfolioSnapshotId = command.snapshot.snapshotId ∧
  command.target.accountAggregateSequence = command.snapshot.accountAggregateSequence ∧
  command.target.portfolioSequence = command.snapshot.portfolioSequence ∧
  command.target.asOf = command.snapshot.asOf ∧
  command.target.asOf ≤ command.at_ ∧
  PositionMatches command

instance [Hashing] : Decidable (TargetBound command) := inferInstanceAs (Decidable (_ ∧ _))

def targetBindingCheck [Hashing] : RiskCheck :=
  riskCheck "target_binding" (TargetBound command) none none
    "target does not match current account snapshot"

def ledgerCheck : RiskCheck :=
  riskCheck "ledger_binding"
    (command.ledgerHead.accountId = command.snapshot.accountId ∧
      command.ledgerHead.sequence = command.snapshot.ledgerSequence ∧
      command.ledgerHead.transactionHash = command.snapshot.ledgerHash)
    (some command.ledgerHead.sequence) (some command.snapshot.ledgerSequence)
    "ledger head does not match account snapshot"

/-! ## Data, signals and the kill switch -/

def requiredInstruments : List UUID :=
  command.target.allocations.map (·.instrumentId) ++
    command.snapshot.positions.map (·.instrumentId)

/-- The mark is neither stale nor from the future and fits the target's contract. -/
def MarkUsable (instrument : RiskInstrumentState) : Prop :=
  0 ≤ seconds instrument.markAsOf command.at_ ∧
  seconds instrument.markAsOf command.at_ ≤ policy.maxDataAgeSeconds ∧
  instrument.currency = command.target.costCurrency ∧
  ∀ a ∈ command.allocation instrument.instrumentId, instrument.quantityQuantum = a.quantityQuantum

instance (instrument : RiskInstrumentState) : Decidable (MarkUsable command policy instrument) :=
  inferInstanceAs (Decidable (_ ∧ _))

def dataCheck : RiskCheck :=
  riskCheck "data_freshness"
    (¬ command.DuplicateInstruments ∧ ∀ id ∈ requiredInstruments command,
      ∃ instrument ∈ command.instrument id, MarkUsable command policy instrument)
    (some (maxOf ((requiredInstruments command).filterMap fun id =>
      (command.instrument id).map fun i => seconds i.markAsOf command.at_)))
    (some policy.maxDataAgeSeconds)
    "mark data is missing, stale, future, or contract-incompatible"

/-- The candidate is eligible now and was known when the target was made. -/
def CandidateUsable [Hashing] (candidate : PortfolioSignalCandidate) : Prop :=
  candidate.Eligible command.at_ ∧ candidate.signal.generatedAt ≤ command.target.asOf ∧
  candidate.registry.updatedAt ≤ command.at_ ∧ candidate.evaluation.createdAt ≤ command.at_

instance [Hashing] (candidate : PortfolioSignalCandidate) :
    Decidable (CandidateUsable command candidate) := inferInstanceAs (Decidable (_ ∧ _))

/-- The signals are those of the target, each usable, and every increase has one. -/
def SignalsUsable [Hashing] : Prop :=
  (command.signalCandidates.map (·.signal.signalId)).Nodup ∧
  (command.signalCandidates.map fun c =>
    (c.signal.instrumentId, c.signal.strategyId, c.signal.strategyVersion)).Nodup ∧
  ((∀ c ∈ command.signalCandidates, c.signal.signalId ∈ command.target.inputSignalIds) ∧
    ∀ id ∈ command.target.inputSignalIds, id ∈ command.signalCandidates.map (·.signal.signalId)) ∧
  (∀ c ∈ command.signalCandidates, CandidateUsable command c) ∧
  ∀ a ∈ command.target.allocations, 0 < a.deltaQuantity →
    a.instrumentId ∈ command.signalCandidates.map (·.signal.instrumentId)

instance [Hashing] : Decidable (SignalsUsable command) := inferInstanceAs (Decidable (_ ∧ _))

def signalCheck [Hashing] : RiskCheck :=
  riskCheck "signal_freshness" (SignalsUsable command)
    (some ((command.signalCandidates.filter fun c =>
      c.signal.signalId ∉ command.target.inputSignalIds).length : ℕ)) (some 0)
    "signal set is missing, stale, ineligible, future, or binding-incompatible"

def killSwitchCheck : RiskCheck :=
  let age := seconds command.killSwitch.observedAt command.at_
  riskCheck "kill_switch"
    (0 ≤ age ∧ age ≤ policy.maxKillSwitchAgeSeconds ∧ command.killSwitch.globalActive = false ∧
      command.killSwitch.accountActive = false)
    (some age) (some policy.maxKillSwitchAgeSeconds)
    "kill switch is active, stale, or from the future"

def marketSessionCheck : RiskCheck :=
  if policy.requireMarketOpen then
    let closed := (command.target.allocations.filter fun a => a.deltaQuantity ≠ 0 ∧
      ¬ ∃ i ∈ command.instrument a.instrumentId, i.session.IsOpenAt command.at_).length
    riskCheck "market_session" (closed = 0) (some (closed : ℕ)) (some 0)
      "one or more target instruments are outside an open market session"
  else riskCheck "market_session" True (some 0) (some 0) ""

/-! ## Reservations, cash and positions -/

def cashRemaining (commodity : String) : List Decimal :=
  (command.openReservations.filter fun r => r.kind = .cash ∧ r.commodity = commodity).map
    (·.remainingAmount)

def positionRemaining (instrumentId : UUID) : List Decimal :=
  (command.openReservations.filter fun r =>
    r.kind = .position ∧ r.instrumentId = some instrumentId).map (·.remainingAmount)

def cashReserved (commodity : String) : Decimal :=
  Arithmetic.context.sum (cashRemaining command commodity)

def positionReserved (instrumentId : UUID) : Decimal :=
  Arithmetic.context.sum (positionRemaining command instrumentId)

def expectedCash (commodity : String) : Decimal :=
  (Table.get (·.currency) command.snapshot.cash commodity).elim 0 (·.reservedAmount)

def expectedPosition (instrumentId : UUID) : Decimal :=
  (command.position instrumentId).elim 0 (·.reservedQuantity)

/-- The reservation is open now, and the account's. -/
def ReservationOpen (r : AccountReservation) : Prop :=
  (r.state = .open_ ∨ r.state = .partiallyConsumed) ∧ r.accountId = command.snapshot.accountId ∧
  r.updatedAt ≤ command.at_ ∧ command.at_ < r.expiresAt

instance (r : AccountReservation) : Decidable (ReservationOpen command r) :=
  inferInstanceAs (Decidable (_ ∧ _))

/-- The open reservations are what the snapshot shows as reserved and pending. Amounts of zero do
not count, so the keys of both sides are compared and all others have none. -/
def ReservationsReconciled : Prop :=
  (∀ r ∈ command.openReservations, ReservationOpen command r) ∧
  (∀ c ∈ command.openReservations.map (·.commodity) ++ command.snapshot.cash.map (·.currency),
    cashReserved command c = expectedCash command c) ∧
  (∀ i ∈ command.openReservations.filterMap (·.instrumentId) ++
    command.snapshot.positions.map (·.instrumentId),
      positionReserved command i = expectedPosition command i) ∧
  (∀ r ∈ command.openReservations, r.orderIntentId ∈ command.snapshot.pendingOrderIds) ∧
  ∀ o ∈ command.snapshot.pendingOrderIds, o ∈ command.openReservations.map (·.orderIntentId)

instance : Decidable (ReservationsReconciled command) := inferInstanceAs (Decidable (_ ∧ _))

def reservationCheck : RiskCheck :=
  riskCheck "reservation_reconciliation" (ReservationsReconciled command)
    (some (command.openReservations.length : ℕ))
    (some (command.snapshot.pendingOrderIds.length : ℕ))
    "open reservations do not match reserved projections and pending orders"

def BuildRiskDecisionCommand.buys : List TargetAllocation :=
  command.target.allocations.filter fun a => 0 < a.deltaQuantity

def requiredCash : Decimal :=
  (command.buys.map fun a => kept (a.deltaQuantity * command.markPrice a.instrumentId)).foldl
    (fun required cost => kept (required + cost)) command.target.expectedCost

def cashCheck : RiskCheck :=
  riskCheck "cash_available"
    ((∀ a ∈ command.buys, command.instrument a.instrumentId ≠ none) ∧
      ∃ cash ∈ command.cash, requiredCash command ≤ cash.availableAmount)
    (some (requiredCash command)) (some (command.cash.elim 0 (·.availableAmount)))
    "base-currency available cash is insufficient or unknown"

def shortfallOf (a : TargetAllocation) : Decimal :=
  kept (kept |a.deltaQuantity| - (command.position a.instrumentId).elim 0 (·.availableQuantity))

def positionCheck : RiskCheck :=
  let shortfall := ((command.target.allocations.filter fun a => a.deltaQuantity < 0).map
    (shortfallOf command)).foldl max 0
  riskCheck "position_available" (shortfall ≤ 0) (some (max 0 shortfall)) (some 0)
    "sell quantity exceeds available position after reservations"

def pendingOrdersCheck : RiskCheck :=
  let count := command.snapshot.pendingOrderIds.length +
    (command.target.allocations.filter (·.deltaQuantity ≠ 0)).length
  riskCheck "pending_orders" (count ≤ policy.maxPendingOrders) (some (count : ℕ))
    (some policy.maxPendingOrders) "pending plus planned orders exceed policy limit"

def advParticipation : Decimal :=
  (command.known.map fun p =>
    kept (kept |p.1.deltaQuantity| / p.2.averageDailyVolume)).foldl max 0

def advCheck : RiskCheck :=
  let maximum := advParticipation command
  riskCheck "adv_participation"
    (¬ command.MissingInstrument ∧ maximum ≤ policy.maxAdvParticipation)
    (some (quantize maximum)) (some policy.maxAdvParticipation)
    "planned quantity exceeds ADV participation limit or ADV is unknown"

/-! ## Exposures -/

def singlePositionCheck : RiskCheck :=
  let maximum := maxOf (command.target.allocations.map fun a => kept |a.targetWeight|)
  riskCheck "single_position" (maximum ≤ policy.maxSinglePositionWeight) (some maximum)
    (some policy.maxSinglePositionWeight) "single-instrument target weight exceeds policy limit"

def exposure {κ : Type} [DecidableEq κ] (classOf : RiskInstrumentState → κ) (k : κ) : Decimal :=
  Arithmetic.context.sum
    ((command.known.filter fun p => classOf p.2 = k).map fun p => kept |p.1.targetWeight|)

/-- `max(exposures.values(), default=ZERO)`. -/
def largestExposure {κ : Type} [DecidableEq κ] (classOf : RiskInstrumentState → κ) : Decimal :=
  maxOf (command.known.map fun p => exposure command classOf (classOf p.2))

def sectorCheck : RiskCheck :=
  let maximum := largestExposure command (·.sector)
  riskCheck "sector_exposure" (¬ command.MissingInstrument ∧ maximum ≤ policy.maxSectorWeight)
    (some maximum) (some policy.maxSectorWeight)
    "sector exposure exceeds policy limit or sector is unknown"

def assetClassCheck : RiskCheck :=
  let maximum := largestExposure command (·.assetClass)
  riskCheck "asset_class"
    ((¬ command.MissingInstrument ∧
      ∀ p ∈ command.known, p.2.assetClass ∈ policy.allowedAssetClasses) ∧
        maximum ≤ policy.maxAssetClassWeight)
    (some maximum) (some policy.maxAssetClassWeight)
    "asset class is unsupported, unknown, or over its exposure limit"

def grossCheck : RiskCheck :=
  let gross := Arithmetic.context.sum
    (command.target.allocations.map fun a => kept |a.targetWeight|)
  riskCheck "gross_exposure" (gross ≤ policy.maxGrossExposure) (some gross)
    (some policy.maxGrossExposure) "gross exposure exceeds policy limit"

def netCheck : RiskCheck :=
  let net := Arithmetic.context.sum (command.target.allocations.map (·.targetWeight))
  riskCheck "net_exposure" (policy.minNetExposure ≤ net ∧ net ≤ policy.maxNetExposure) (some net)
    (some policy.maxNetExposure) "net exposure is outside policy range"

def turnoverCheck : RiskCheck :=
  riskCheck "turnover" (command.target.expectedTurnover ≤ policy.maxTurnover)
    (some command.target.expectedTurnover) (some policy.maxTurnover)
    "expected turnover exceeds policy limit"

/-! ## Losses -/

def lossOf (current reference : Decimal) : Decimal :=
  max 0 (kept (kept (reference - current) / reference))

def lossRatio (current : Option Decimal) (reference : Decimal) : Option Decimal :=
  current.map fun current => quantize (lossOf current reference)

def drawdownCheck : RiskCheck :=
  let drawdown := lossRatio command.nav command.highWatermarkNav
  riskCheck "drawdown" (∃ loss ∈ drawdown, loss ≤ policy.maxDrawdown) drawdown
    (some policy.maxDrawdown) "current drawdown exceeds policy limit or NAV is unknown"

def dailyLossCheck : RiskCheck :=
  let dailyLoss := lossRatio command.nav command.dayStartNav
  riskCheck "daily_loss" (∃ loss ∈ dailyLoss, loss ≤ policy.maxDailyLoss) dailyLoss
    (some policy.maxDailyLoss) "daily loss exceeds policy limit or NAV is unknown"

/-! ## The decision -/

/-- The checks of `evaluate`, in its order. -/
def riskChecks [Hashing] : List RiskCheck :=
  [advCheck command policy, assetClassCheck command policy, cashCheck command,
    dailyLossCheck command policy, dataCheck command policy, drawdownCheck command policy,
    grossCheck command policy, killSwitchCheck command policy, ledgerCheck command,
    marketSessionCheck command policy, netCheck command policy, pendingOrdersCheck command policy,
    positionCheck command, reservationCheck command, sectorCheck command policy,
    signalCheck command, singlePositionCheck command policy, targetBindingCheck command,
    turnoverCheck command policy]

/-- The figures that are quantized have no more digits than the context keeps. -/
def QuantizesAll : Prop :=
  Arithmetic.context.Holds (halfEven (advParticipation command / calculationQuantum)) ∧
  ∀ nav ∈ command.nav, ∀ reference ∈ [command.highWatermarkNav, command.dayStartNav],
    Arithmetic.context.Holds (halfEven (lossOf nav reference / calculationQuantum))

instance : Decidable (QuantizesAll command) := inferInstanceAs (Decidable (_ ∧ _))

def Approves [Hashing] : Prop := ∀ check ∈ riskChecks command policy, check.passed = true

instance [Hashing] : Decidable (Approves command policy) := inferInstanceAs (Decidable (∀ _ ∈ _, _))

def evaluate [Hashing] : Call RiskDecision := do
  Attempt.require (QuantizesAll command) (.decimalException "InvalidOperation")
  let checks := sorted (·.code) (riskChecks command policy)
  checks.forM (·.validate)
  RiskDecision.create command.decisionId command.target (Approves command policy)
    (if Approves command policy then some command.target else none) checks policy.policyVersion
    policy.policyHash command.at_ (command.at_ + policy.decisionValidSeconds * 1000000)

end

/-! ## What an approval says -/

section

variable [Arithmetic] [Hashing] {command : BuildRiskDecisionCommand} {policy : HardRiskPolicy}
  {decision : RiskDecision}

theorem evaluate_approved (h : evaluate command policy = .success decision)
    (happroved : decision.approved = true) :
    Approves command policy ∧ decision.normalizedTarget = some command.target := by
  simp only [evaluate, RiskDecision.create, Attempt.bind_eq_success, modelValidate_eq_success] at h
  obtain ⟨_, -, _, -, -, rfl⟩ := h
  have hpasses : Approves command policy := of_decide_eq_true happroved
  exact ⟨hpasses, if_pos hpasses⟩

theorem evaluate_accountId (h : evaluate command policy = .success decision) :
    decision.accountId = command.target.accountId := by
  simp only [evaluate, RiskDecision.create, Attempt.bind_eq_success, modelValidate_eq_success] at h
  obtain ⟨_, -, _, -, -, rfl⟩ := h
  rfl

namespace Approves

variable (h : Approves command policy)
include h

theorem targetBound : TargetBound command :=
  riskCheck_passed.mp (h (targetBindingCheck command) (by simp [riskChecks]))

theorem data : ¬ command.DuplicateInstruments ∧ ∀ id ∈ requiredInstruments command,
    ∃ instrument ∈ command.instrument id, MarkUsable command policy instrument :=
  riskCheck_passed.mp (h (dataCheck command policy) (by simp [riskChecks]))

theorem signals : SignalsUsable command :=
  riskCheck_passed.mp (h (signalCheck command) (by simp [riskChecks]))

theorem reservations : ReservationsReconciled command :=
  riskCheck_passed.mp (h (reservationCheck command) (by simp [riskChecks]))

theorem cash : ∃ cash ∈ command.cash, requiredCash command ≤ cash.availableAmount := by
  have hpassed := riskCheck_passed.mp (h (cashCheck command) (by simp [riskChecks]))
  exact hpassed.2

theorem shortfall {a : TargetAllocation} (ha : a ∈ command.target.allocations)
    (hsell : a.deltaQuantity < 0) : shortfallOf command a ≤ 0 := by
  have hpassed := riskCheck_passed.mp (h (positionCheck command) (by simp [riskChecks]))
  refine le_trans ?_ hpassed
  refine le_foldl_max_of_mem ?_
  exact List.mem_map_of_mem (List.mem_filter.mpr ⟨ha, decide_eq_true hsell⟩)

theorem instrument_of_allocation {a : TargetAllocation} (ha : a ∈ command.target.allocations) :
    ∃ i ∈ command.instruments, i.instrumentId = a.instrumentId ∧
      command.instrument a.instrumentId = some i ∧ MarkUsable command policy i := by
  have hrequired : a.instrumentId ∈ requiredInstruments command :=
    List.mem_append_left _ (List.mem_map_of_mem ha)
  obtain ⟨i, hi, husable⟩ := h.data.2 _ hrequired
  exact ⟨i, List.mem_reverse.mp (Table.mem_of_get hi), Table.key_of_get hi, hi, husable⟩

end Approves

end

/-! ## A concrete command -/

namespace Scenario

variable [Hashing]

def strategy : StrategyManifest where
  manifestId := 500
  strategyId := "trend"
  strategyVersion := "1.0.0"
  kind := .deterministic
  sourceArtifactRef := 1
  runtimeHash := 2
  featureSpecHash := 3
  labelSpecHash := 4
  universeSpecHash := 5
  costModelHash := 6
  splitPolicyHash := 7
  parametersHash := 8
  owner := "quant"
  deterministic := true
  createdAt := -1000

def evaluation : EvaluationReport where
  reportId := 501
  strategyId := "trend"
  strategyVersion := "1.0.0"
  strategyManifestHash := strategy.manifestHash
  datasetSnapshotId := 502
  dataHash := 9
  runtimeHash := 2
  evaluationPolicyHash := 10
  asOf := -100
  windowStart := -300
  windowEnd := -200
  checks := EvaluationCheckKind.all.map fun kind => ⟨kind, .passed, [], none⟩
  metrics := [⟨"alpha", 1, "return", "overall"⟩]
  calibration := .calibrated
  baselineIds := ["last"]
  reportArtifactRef := 11
  validUntil := 1000000
  createdAt := -50
  passed := true

/-- An eligible signal for an instrument. -/
def candidate (instrumentId : UUID) : PortfolioSignalCandidate where
  signal :=
    { signalId := 600 + instrumentId
      strategyId := "trend"
      strategyVersion := "1.0.0"
      instrumentId
      asOf := -2
      generatedAt := -1
      staleAt := 500000
      expiresAt := 1000000
      horizon := "1d"
      value := 1
      confidence := 1
      calibration := .calibrated
      direction := .long
      source := .deterministic
      strategyManifestHash := strategy.manifestHash
      datasetSnapshotId := 502
      dataHash := 9
      runtimeHash := 2
      evaluationPolicyHash := 10
      rawOutputArtifactRef := 12
      evaluationReportId := some 501
      evaluationHash := some evaluation.evaluationHash
      evidenceRefs := []
      forecastRefs := []
      reasonCodes := [] }
  registry :=
    { manifest := strategy
      state := .paperEligible
      evaluationReportId := some 501
      evaluationHash := some evaluation.evaluationHash
      version := 1
      createdAt := -40
      updatedAt := -30 }
  evaluation := evaluation

/-- The policy of `risk_v1.yaml`. -/
def riskPolicy : HardRiskPolicy where
  policyVersion := "1.0.0"
  decisionValidSeconds := 60
  maxDataAgeSeconds := 300
  maxKillSwitchAgeSeconds := 30
  allowedAssetClasses := [.equity, .etf]
  maxPendingOrders := 20
  maxSinglePositionWeight := 1 / 4
  maxSectorWeight := 2 / 5
  maxAssetClassWeight := 4 / 5
  maxGrossExposure := 4 / 5
  minNetExposure := 0
  maxNetExposure := 4 / 5
  maxTurnover := 3 / 10
  maxAdvParticipation := 1 / 20
  maxDrawdown := 3 / 20
  maxDailyLoss := 1 / 20
  requireMarketOpen := true

def riskInstrument (instrumentId : UUID) (markPrice : Decimal) : RiskInstrumentState where
  instrumentId
  assetClass := .equity
  sector := "technology"
  mic := "XNYS"
  currency := "USD"
  markPrice
  markAsOf := 0
  quantityQuantum := 1
  averageDailyVolume := 1000000
  session := ⟨"XNYS", 0, -100, 100, none, none⟩

/-- A target of the concrete account, with a signal for each purchase. -/
def riskTarget (allocations : List TargetAllocation) (turnover cost : Decimal) : PortfolioTarget :=
  let provisional : PortfolioTarget :=
    { targetId := 100
      accountId := "paper"
      portfolioSnapshotId := 200
      accountAggregateSequence := 0
      portfolioSequence := 0
      asOf := 0
      allocations
      inputSignalIds := (allocations.filter fun a => 0 < a.deltaQuantity).map (600 + ·.instrumentId)
      policyVersion := "1"
      policyHash := 1
      expectedTurnover := turnover
      expectedCost := cost
      costCurrency := "USD"
      calculationHash := 0 }
  { provisional with calculationHash := provisional.expectedCalculationHash }

/-- A command for the concrete account, with a mark for each allocation. -/
def riskCommand (cash nav : Decimal) (positions : List PositionBalance)
    (allocations : List (TargetAllocation × Decimal)) (turnover cost : Decimal) :
    BuildRiskDecisionCommand where
  decisionId := 300
  snapshot :=
    { snapshotId := 200
      accountId := "paper"
      asOf := 0
      accountAggregateSequence := 0
      portfolioSequence := 0
      ledgerSequence := 0
      ledgerHash := none
      cash := [⟨"USD", cash, 0, 1⟩]
      positions
      pendingOrderIds := [] }
  target := riskTarget (allocations.map (·.1)) turnover cost
  instruments := allocations.map fun a => riskInstrument a.1.instrumentId a.2
  signalCandidates := (allocations.filter fun a => 0 < a.1.deltaQuantity).map fun a =>
    candidate a.1.instrumentId
  openReservations := []
  ledgerHead := ⟨"paper", 0, none⟩
  highWatermarkNav := nav
  dayStartNav := nav
  killSwitch := ⟨false, false, 10⟩
  at_ := 10

def bought (instrumentId : UUID) (quantity weight : Decimal) : TargetAllocation :=
  ⟨instrumentId, 0, quantity, quantity, 1, weight, []⟩

end Scenario

end StonksPaper
