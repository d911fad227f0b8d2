import StonksPaper.Domain.Fills

/-!
# Inputs, policy and outcome of paper execution

`execution_model.py`. The two literal fields of the policy have one possible value each and are
left out.
-/

namespace StonksPaper

open Chain

/-- The enumeration values, whose order the policy's tuples keep. -/
def OrderType.value : OrderType → String
  | .market => "market"
  | .limit => "limit"
  | .stop => "stop"
  | .stopLimit => "stop_limit"

def TimeInForce.value : TimeInForce → String
  | .day => "day"
  | .gtc => "gtc"
  | .ioc => "ioc"

/-- `feePlace` is the place of the last digit with which `feeQuantum` is written. -/
structure PaperExecutionPolicy where
  policyVersion : String
  executionModelVersion : String
  supportedOrderTypes : List OrderType
  supportedTimeInForce : List TimeInForce
  maxVolumeParticipation : Decimal
  halfSpreadBps : Decimal
  baseSlippageBps : Decimal
  marketImpactBpsAtMaxParticipation : Decimal
  feeBps : Decimal
  perUnitFee : Decimal
  minimumFee : Decimal
  feeQuantum : Decimal
  feePlace : Decimal := Quantum.lastPlace feeQuantum
deriving DecidableEq

def PaperExecutionPolicy.validate (self : PaperExecutionPolicy) : Call Unit := do
  atLeast 1 self.supportedOrderTypes.length
  atLeast 1 self.supportedTimeInForce.length
  unitDecimal self.maxVolumeParticipation
  nonNegativeDecimal self.halfSpreadBps
  nonNegativeDecimal self.baseSlippageBps
  nonNegativeDecimal self.marketImpactBpsAtMaxParticipation
  nonNegativeDecimal self.feeBps
  nonNegativeDecimal self.perUnitFee
  nonNegativeDecimal self.minimumFee
  positiveDecimal self.feeQuantum
  raiseUnless (SortedUnique (self.supportedOrderTypes.map (·.value)))
    "supported order types must be unique and sorted"
  raiseUnless (SortedUnique (self.supportedTimeInForce.map (·.value)))
    "supported time-in-force values must be unique and sorted"
  raiseUnless (0 < self.maxVolumeParticipation) "volume participation must be positive"
  raiseUnless (self.halfSpreadBps ≤ 10000 ∧ self.baseSlippageBps ≤ 10000 ∧
    self.marketImpactBpsAtMaxParticipation ≤ 10000 ∧ self.feeBps ≤ 10000)
    "execution basis points cannot exceed 10000"
  raiseUnless (IsQuantized self.minimumFee self.feeQuantum) "minimum fee must match fee quantum"

/-- What the validator of a policy guarantees. -/
structure PaperExecutionPolicy.Valid (p : PaperExecutionPolicy) : Prop where
  order_types : 1 ≤ p.supportedOrderTypes.length
  time_in_force : 1 ≤ p.supportedTimeInForce.length
  participation_le : p.maxVolumeParticipation ≤ 1
  half_spread_nonneg : 0 ≤ p.halfSpreadBps
  base_slippage_nonneg : 0 ≤ p.baseSlippageBps
  impact_nonneg : 0 ≤ p.marketImpactBpsAtMaxParticipation
  fee_bps_nonneg : 0 ≤ p.feeBps
  per_unit_nonneg : 0 ≤ p.perUnitFee
  minimum_nonneg : 0 ≤ p.minimumFee
  fee_quantum_pos : 0 < p.feeQuantum
  order_types_sorted : SortedUnique (p.supportedOrderTypes.map (·.value))
  time_in_force_sorted : SortedUnique (p.supportedTimeInForce.map (·.value))
  participation_pos : 0 < p.maxVolumeParticipation
  bps_le : p.halfSpreadBps ≤ 10000 ∧ p.baseSlippageBps ≤ 10000 ∧
    p.marketImpactBpsAtMaxParticipation ≤ 10000 ∧ p.feeBps ≤ 10000
  minimum_quantized : IsQuantized p.minimumFee p.feeQuantum

theorem PaperExecutionPolicy.validate_iff {p : PaperExecutionPolicy} :
    p.validate = .success () ↔ p.Valid := by
  simp only [validate, Attempt.bind_eq_success, atLeast_eq_success, unitDecimal_eq_success,
    nonNegativeDecimal_eq_success, positiveDecimal_eq_success, raiseUnless_eq_success]
  constructor
  · rintro ⟨_, h1, _, h2, _, h3, _, h4, _, h5, _, h6, _, h7, _, h8, _, h9, _, h10, _, h11, _, h12,
      _, h13, _, h14, h15⟩
    exact ⟨h1, h2, h3.2, h4, h5, h6, h7, h8, h9, h10, h11, h12, h13, h14, h15⟩
  · rintro ⟨h1, h2, h3, h4, h5, h6, h7, h8, h9, h10, h11, h12, h13, h14, h15⟩
    exact ⟨(), h1, (), h2, (), ⟨h13.le, h3⟩, (), h4, (), h5, (), h6, (), h7, (), h8, (), h9, (),
      h10, (), h11, (), h12, (), h13, (), h14, h15⟩

instance : Dump PaperExecutionPolicy :=
  ⟨fun p => .record "PaperExecutionPolicy"
    [dump p.policyVersion, dump p.executionModelVersion, dump p.supportedOrderTypes,
      dump p.supportedTimeInForce, dump p.maxVolumeParticipation, dump p.halfSpreadBps,
      dump p.baseSlippageBps, dump p.marketImpactBpsAtMaxParticipation, dump p.feeBps,
      dump p.perUnitFee, dump p.minimumFee, dump p.feeQuantum]⟩

def PaperExecutionPolicy.policyHash [Hashing] (self : PaperExecutionPolicy) : Sha256 :=
  stablePayloadHash (dump self)

structure ExecutionBar where
  instrumentId : UUID
  mic : String
  opensAt : UTCDateTime
  closesAt : UTCDateTime
  availableAt : UTCDateTime
  open_ : Decimal
  high : Decimal
  low : Decimal
  close : Decimal
  volume : Decimal
  currency : Currency
  priceQuantum : Decimal
  quantityQuantum : Decimal
  sourceRef : String
  sourceHash : Sha256
  tradable : Bool
deriving DecidableEq

instance : Dump ExecutionBar :=
  ⟨fun b => .record "ExecutionBar"
    [dump b.instrumentId, dump b.mic, dump b.opensAt, dump b.closesAt, dump b.availableAt,
      dump b.open_, dump b.high, dump b.low, dump b.close, dump b.volume, dump b.currency,
      dump b.priceQuantum, dump b.quantityQuantum, dump b.sourceRef, dump b.sourceHash,
      dump b.tradable]⟩

def ExecutionBar.validate (self : ExecutionBar) : Call Unit := do
  positiveDecimal self.open_
  positiveDecimal self.high
  positiveDecimal self.low
  positiveDecimal self.close
  nonNegativeDecimal self.volume
  currencyCode self.currency
  positiveDecimal self.priceQuantum
  positiveDecimal self.quantityQuantum
  nonEmptyString self.sourceRef
  raiseUnless (self.opensAt < self.closesAt ∧ self.closesAt ≤ self.availableAt)
    "execution bar timeline is invalid"
  raiseUnless (self.low ≤ self.high ∧ (self.low ≤ self.open_ ∧ self.open_ ≤ self.high) ∧
    self.low ≤ self.close ∧ self.close ≤ self.high) "execution bar OHLC is invalid"
  raiseUnless (IsQuantized self.open_ self.priceQuantum ∧ IsQuantized self.high self.priceQuantum ∧
    IsQuantized self.low self.priceQuantum ∧ IsQuantized self.close self.priceQuantum)
    "execution bar prices must match price quantum"
  raiseUnless (IsQuantized self.volume self.quantityQuantum)
    "execution bar volume must match quantity quantum"

/-- What the validator of a bar guarantees. -/
structure ExecutionBar.Valid (b : ExecutionBar) : Prop where
  open_pos : 0 < b.open_
  high_pos : 0 < b.high
  low_pos : 0 < b.low
  close_pos : 0 < b.close
  volume_nonneg : 0 ≤ b.volume
  currency : isCurrency b.currency = true
  price_quantum_pos : 0 < b.priceQuantum
  quantity_quantum_pos : 0 < b.quantityQuantum
  source_nonempty : b.sourceRef ≠ ""
  timeline : b.opensAt < b.closesAt ∧ b.closesAt ≤ b.availableAt
  ohlc : b.low ≤ b.high ∧ (b.low ≤ b.open_ ∧ b.open_ ≤ b.high) ∧ b.low ≤ b.close ∧ b.close ≤ b.high
  prices_quantized : IsQuantized b.open_ b.priceQuantum ∧ IsQuantized b.high b.priceQuantum ∧
    IsQuantized b.low b.priceQuantum ∧ IsQuantized b.close b.priceQuantum
  volume_quantized : IsQuantized b.volume b.quantityQuantum

theorem ExecutionBar.validate_iff {b : ExecutionBar} : b.validate = .success () ↔ b.Valid := by
  simp only [validate, Attempt.bind_eq_success, positiveDecimal_eq_success,
    nonNegativeDecimal_eq_success, currencyCode_eq_success, nonEmptyString_eq_success,
    raiseUnless_eq_success]
  constructor
  · rintro ⟨_, h1, _, h2, _, h3, _, h4, _, h5, _, h6, _, h7, _, h8, _, h9, _, h10, _, h11, _, h12,
      h13⟩
    exact ⟨h1, h2, h3, h4, h5, h6, h7, h8, h9, h10, h11, h12, h13⟩
  · rintro ⟨h1, h2, h3, h4, h5, h6, h7, h8, h9, h10, h11, h12, h13⟩
    exact ⟨(), h1, (), h2, (), h3, (), h4, (), h5, (), h6, (), h7, (), h8, (), h9, (), h10, (),
      h11, (), h12, h13⟩

/-! ## Requests -/

structure PaperExecutionRequest where
  command : ExecutionCommand
  reservation : AccountReservation
  priorEvents : List OrderEvent
  priorFills : List Fill
  bars : List ExecutionBar
  asOf : UTCDateTime
deriving DecidableEq

instance : Dump PaperExecutionRequest :=
  ⟨fun r => .record "PaperExecutionRequest"
    [dump r.command, dump r.reservation, dump r.priorEvents, dump r.priorFills, dump r.bars,
      dump r.asOf]⟩

/-- The binding of the reservation to the intent and the command. -/
def PaperExecutionRequest.reservationBound (self : PaperExecutionRequest) : Prop :=
  self.reservation.reservationId = self.command.intent.reservationId ∧
  self.reservation.orderIntentId = self.command.intent.intentId ∧
  self.reservation.accountId = self.command.intent.accountId ∧
  self.reservation.instrumentId = some self.command.intent.instrumentId ∧
  self.reservation.eventHash = self.command.reservationHash ∧
  self.reservation.eventHash = self.command.intent.reservationHash ∧
  self.reservation.accountAggregateSequence = self.command.accountAggregateSequence

instance (self : PaperExecutionRequest) : Decidable self.reservationBound :=
  inferInstanceAs (Decidable (_ ∧ _))

def PaperExecutionRequest.validate (self : PaperExecutionRequest) : Call Unit := do
  maxLength tupleLimit self.priorEvents.length
  maxLength tupleLimit self.priorFills.length
  maxLength tupleLimit self.bars.length
  raiseUnless self.reservationBound "execution reservation binding is stale"
  raiseUnless self.reservation.state.Mutable "execution reservation is not active"
  raiseUnless (self.command.issuedAt ≤ self.asOf) "execution as-of precedes command"
  raiseUnless (∀ last ∈ self.priorEvents.getLast?, ¬ last.toStatus.Terminal)
    "terminal order cannot execute again"
  raiseUnless (∀ event ∈ self.priorEvents, event.orderIntentId = self.command.intent.intentId)
    "prior order event belongs elsewhere"
  raiseUnless (∀ fill ∈ self.priorFills, fill.commandId = self.command.commandId ∧
    fill.orderIntentId = self.command.intent.intentId) "prior fill belongs elsewhere"

/-- A request all of whose parts, and then itself, passed their validators. -/
structure PaperExecutionRequest.Valid [Hashing] (r : PaperExecutionRequest) : Prop where
  command : r.command.Valid
  reservation : r.reservation.Valid
  prior_events : ∀ event ∈ r.priorEvents, event.Valid
  prior_fills : ∀ fill ∈ r.priorFills, fill.Valid
  bars : ∀ bar ∈ r.bars, bar.Valid
  events_length : r.priorEvents.length ≤ tupleLimit
  fills_length : r.priorFills.length ≤ tupleLimit
  bars_length : r.bars.length ≤ tupleLimit
  bound : r.reservationBound
  active : r.reservation.state.Mutable
  as_of : r.command.issuedAt ≤ r.asOf
  not_terminal : ∀ last ∈ r.priorEvents.getLast?, ¬ last.toStatus.Terminal
  events_intent : ∀ event ∈ r.priorEvents, event.orderIntentId = r.command.intent.intentId
  fills_command : ∀ fill ∈ r.priorFills, fill.commandId = r.command.commandId ∧
    fill.orderIntentId = r.command.intent.intentId

/-- The request is valid exactly when the validators of its parts and its own pass. -/
theorem PaperExecutionRequest.valid_iff [Hashing] {r : PaperExecutionRequest} :
    r.Valid ↔ r.command.intent.validate = .success () ∧ r.command.validate = .success () ∧
      r.reservation.validate = .success () ∧
      (∀ event ∈ r.priorEvents, event.validate = .success ()) ∧
      (∀ fill ∈ r.priorFills, fill.validate = .success ()) ∧
      (∀ bar ∈ r.bars, bar.validate = .success ()) ∧ r.validate = .success () := by
  simp only [PaperExecutionRequest.validate, Attempt.bind_eq_success, maxLength_eq_success,
    raiseUnless_eq_success, OrderIntent.validate_iff, AccountReservation.validate_iff,
    OrderEvent.validate_iff, Fill.validate_iff, ExecutionBar.validate_iff]
  constructor
  · intro h
    exact ⟨h.command.intent, (ExecutionCommand.validate_iff h.command.intent).mpr h.command,
      h.reservation, h.prior_events, h.prior_fills, h.bars, (), h.events_length, (),
      h.fills_length, (), h.bars_length, (), h.bound, (), h.active, (), h.as_of, (),
      h.not_terminal, (), h.events_intent, h.fills_command⟩
  · rintro ⟨hi, hc, hr, he, hf, hb, _, h1, _, h2, _, h3, _, h4, _, h5, _, h6, _, h7, _, h8, h9⟩
    exact ⟨(ExecutionCommand.validate_iff hi).mp hc, hr, he, hf, hb, h1, h2, h3, h4, h5, h6, h7,
      h8, h9⟩

instance [Hashing] (r : PaperExecutionRequest) : Decidable r.Valid :=
  decidable_of_iff' _ PaperExecutionRequest.valid_iff

instance (p : PaperExecutionPolicy) : Decidable p.Valid :=
  decidable_of_iff _ PaperExecutionPolicy.validate_iff

/-! ## Outcomes -/

structure PaperExecutionOutcome where
  receipt : ExecutionReceipt
  orderEvents : List OrderEvent
  reservationMutations : List ReservationMutation
  finalReservation : AccountReservation
  reservationConsumed : Decimal
  reservationReleased : Decimal
  inputHash : Sha256
  outcomeHash : Sha256
deriving DecidableEq

/-- The fields that the outcome hash covers. -/
def PaperExecutionOutcome.payload (self : PaperExecutionOutcome) : List Payload :=
  [dump self.receipt, dump self.orderEvents, dump self.reservationMutations,
    dump self.finalReservation, dump self.reservationConsumed, dump self.reservationReleased,
    dump self.inputHash]

def PaperExecutionOutcome.expectedOutcomeHash [Hashing] (self : PaperExecutionOutcome) : Sha256 :=
  stablePayloadHash (.record "PaperExecutionOutcome" self.payload)

def PaperExecutionOutcome.validate [Hashing] (self : PaperExecutionOutcome) : Call Unit := do
  atLeast 1 self.orderEvents.length
  maxLength tupleLimit self.orderEvents.length
  maxLength tupleLimit self.reservationMutations.length
  raiseUnless (self.orderEvents.getLast? = some self.receipt.event)
    "execution receipt must reference latest order event"
  raiseUnless (self.finalReservation.orderIntentId = self.receipt.event.orderIntentId)
    "execution reservation belongs elsewhere"
  raiseUnless (∀ last ∈ self.reservationMutations.getLast?,
    last.reservation = self.finalReservation) "final reservation does not match mutation chain"
  raiseUnless (0 ≤ self.reservationConsumed ∧ 0 ≤ self.reservationReleased)
    "reservation accounting cannot be negative"
  raiseUnless (self.outcomeHash = self.expectedOutcomeHash)
    "paper execution outcome hash does not match payload"

/-- What the validator of an outcome guarantees. -/
structure PaperExecutionOutcome.Valid [Hashing] (o : PaperExecutionOutcome) : Prop where
  events_nonempty : 1 ≤ o.orderEvents.length
  events_length : o.orderEvents.length ≤ tupleLimit
  mutations_length : o.reservationMutations.length ≤ tupleLimit
  latest : o.orderEvents.getLast? = some o.receipt.event
  reservation_order : o.finalReservation.orderIntentId = o.receipt.event.orderIntentId
  final : ∀ last ∈ o.reservationMutations.getLast?, last.reservation = o.finalReservation
  accounting : 0 ≤ o.reservationConsumed ∧ 0 ≤ o.reservationReleased
  hash : o.outcomeHash = o.expectedOutcomeHash

theorem PaperExecutionOutcome.validate_iff [Hashing] {o : PaperExecutionOutcome} :
    o.validate = .success () ↔ o.Valid := by
  simp only [validate, Attempt.bind_eq_success, atLeast_eq_success, maxLength_eq_success,
    raiseUnless_eq_success]
  constructor
  · rintro ⟨_, h1, _, h2, _, h3, _, h4, _, h5, _, h6, _, h7, h8⟩
    exact ⟨h1, h2, h3, h4, h5, h6, h7, h8⟩
  · rintro ⟨h1, h2, h3, h4, h5, h6, h7, h8⟩
    exact ⟨(), h1, (), h2, (), h3, (), h4, (), h5, (), h6, (), h7, h8⟩

section

variable [Hashing]

/-- The outcome that `PaperExecutionOutcome.create` builds, before its validators run. -/
def paperExecutionOutcome (receipt : ExecutionReceipt) (orderEvents : List OrderEvent)
    (reservationMutations : List ReservationMutation) (finalReservation : AccountReservation)
    (reservationConsumed reservationReleased : Decimal) (inputHash : Sha256) :
    PaperExecutionOutcome :=
  let provisional : PaperExecutionOutcome :=
    { receipt, orderEvents, reservationMutations, finalReservation, reservationConsumed
      reservationReleased, inputHash
      outcomeHash := 0 }
  { provisional with outcomeHash := provisional.expectedOutcomeHash }

def PaperExecutionOutcome.create (receipt : ExecutionReceipt) (orderEvents : List OrderEvent)
    (reservationMutations : List ReservationMutation) (finalReservation : AccountReservation)
    (reservationConsumed reservationReleased : Decimal) (inputHash : Sha256) :
    Call PaperExecutionOutcome :=
  modelValidate PaperExecutionOutcome.validate <|
    paperExecutionOutcome receipt orderEvents reservationMutations finalReservation
      reservationConsumed reservationReleased inputHash

end

/-! ## A concrete order

One order of a concrete account, from its target to the request that executes it. Its parts are
what the constructors of the domain build; the model is evaluated on variations of it.
-/

/-- One allocation of the concrete target and the order for it. -/
structure Leg where
  number : ℕ := 1
  side : OrderSide := .buy
  orderType : OrderType := .market
  limitPrice : Option Decimal := none
  timeInForce : TimeInForce := .day
  quantity : Decimal := 10
  amount : Decimal := 2000
deriving DecidableEq

namespace Leg

def delta (leg : Leg) : Decimal := if leg.side = .buy then leg.quantity else -leg.quantity

def allocation (leg : Leg) : TargetAllocation :=
  { instrumentId := leg.number
    currentQuantity := 100
    targetQuantity := 100 + leg.delta
    deltaQuantity := leg.delta
    quantityQuantum := 1
    targetWeight := 0
    constraintDiagnostics := [] }

def kind (leg : Leg) : ReservationKind := if leg.side = .buy then .cash else .position

def commodity (leg : Leg) : String := if leg.side = .buy then "USD" else "units"

end Leg

/-- The concrete account's target at an account sequence. -/
structure Scenario where
  sequence : ℕ := 0
  legs : List Leg := [{}]
  account : AccountId := "paper"
deriving DecidableEq

namespace Scenario

variable [Hashing] (s : Scenario) (leg : Leg)

def target : PortfolioTarget :=
  let provisional : PortfolioTarget :=
    { targetId := 100 + s.sequence
      accountId := s.account
      portfolioSnapshotId := 200 + s.sequence
      accountAggregateSequence := s.sequence
      portfolioSequence := 0
      asOf := 0
      allocations := s.legs.map (·.allocation)
      inputSignalIds := []
      policyVersion := "1"
      policyHash := 1
      expectedTurnover := 0
      expectedCost := 0
      costCurrency := "USD"
      calculationHash := 0 }
  { provisional with calculationHash := provisional.expectedCalculationHash }

def decision : RiskDecision :=
  riskDecision (300 + s.sequence) s.target true (some s.target) [⟨"cash", true, none, none, none⟩]
    "1" 1 10 1000

def ident (kind : ℕ) : ℕ := 1000 * kind + 10 * s.sequence + leg.number

def mutation : ReservationMutation :=
  openingMutation (s.ident leg 1) (s.ident leg 2) s.decision s.target.calculationHash leg.kind
    leg.commodity leg.amount 1 (some leg.number) 10 1000 s.sequence 0

def reservation : AccountReservation := (s.mutation leg).reservation

def intent : OrderIntent :=
  orderIntent (s.ident leg 2) 7 s.decision (s.reservation leg) s.target.portfolioSnapshotId
    leg.number leg.side leg.orderType leg.quantity 1 leg.limitPrice none leg.timeInForce 10 1000
    (toString (s.ident leg 3)) "paper-v1" 10

def command : ExecutionCommand :=
  executionCommand (s.ident leg 4) (s.intent leg) s.decision (s.reservation leg) (s.sequence + 1) 0
    1 "nonce" 20

/-- A bar at price 100 that opens after the command and before its validity ends. -/
def bar : ExecutionBar :=
  { instrumentId := leg.number
    mic := "XNYS"
    opensAt := 30
    closesAt := 40
    availableAt := 40
    open_ := 100
    high := 100
    low := 100
    close := 100
    volume := 1000
    currency := "USD"
    priceQuantum := 1
    quantityQuantum := 1
    sourceRef := "feed"
    sourceHash := 5
    tradable := true }

def policy : PaperExecutionPolicy :=
  { policyVersion := "1"
    executionModelVersion := "paper-v1"
    supportedOrderTypes := [.limit, .market]
    supportedTimeInForce := [.day, .gtc, .ioc]
    maxVolumeParticipation := 1 / 2
    halfSpreadBps := 100
    baseSlippageBps := 0
    marketImpactBpsAtMaxParticipation := 0
    feeBps := 0
    perUnitFee := 0
    minimumFee := 1
    feeQuantum := 1 }

def request (bars : List ExecutionBar) (asOf : UTCDateTime) : PaperExecutionRequest :=
  { command := s.command leg
    reservation := s.reservation leg
    priorEvents := []
    priorFills := []
    bars, asOf }

end Scenario

end StonksPaper
