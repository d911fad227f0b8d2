import StonksPaper.Domain.Reservations

/-!
# Order intents, execution commands and order events

`orders.py`: an intent is bound to a risk decision and an open reservation, a command is bound to
the account sequence of both, and `appendOrderEvent` is the only way an order's state moves.
-/

namespace StonksPaper

open Chain

inductive OrderSide where
  | buy
  | sell
deriving DecidableEq, Repr

inductive OrderType where
  | market
  | limit
  | stop
  | stopLimit
deriving DecidableEq, Repr

inductive TimeInForce where
  | day
  | gtc
  | ioc
deriving DecidableEq, Repr

inductive OrderStatus where
  | created
  | accepted
  | partiallyFilled
  | filled
  | rejected
  | cancelled
  | expired
deriving DecidableEq, Repr

instance : Dump OrderSide := ⟨fun s => .int (s.ctorIdx : ℕ)⟩
instance : Dump OrderType := ⟨fun t => .int (t.ctorIdx : ℕ)⟩
instance : Dump TimeInForce := ⟨fun t => .int (t.ctorIdx : ℕ)⟩
instance : Dump OrderStatus := ⟨fun s => .int (s.ctorIdx : ℕ)⟩

def OrderStatus.transitions : OrderStatus → List OrderStatus
  | .created => [.accepted, .rejected, .cancelled, .expired]
  | .accepted => [.partiallyFilled, .filled, .cancelled, .expired]
  | .partiallyFilled => [.partiallyFilled, .filled, .cancelled, .expired]
  | .filled => []
  | .rejected => []
  | .cancelled => []
  | .expired => []

/-- `_TERMINAL_ORDER_STATES`. -/
def OrderStatus.Terminal (status : OrderStatus) : Prop :=
  status ∈ [.filled, .rejected, .cancelled, .expired]

instance (status : OrderStatus) : Decidable status.Terminal :=
  inferInstanceAs (Decidable (_ ∈ _))

theorem OrderStatus.terminal_iff {status : OrderStatus} :
    status.Terminal ↔ status.transitions = [] := by
  cases status <;> decide

structure OrderIntent where
  intentId : UUID
  runId : UUID
  accountId : AccountId
  instrumentId : UUID
  side : OrderSide
  orderType : OrderType
  quantity : Decimal
  quantityQuantum : Decimal
  limitPrice : Option Decimal
  stopPrice : Option Decimal
  timeInForce : TimeInForce
  validFrom : UTCDateTime
  validUntil : UTCDateTime
  riskDecisionId : UUID
  riskDecisionHash : Sha256
  reservationId : UUID
  reservationHash : Sha256
  portfolioTargetId : UUID
  authorizedTargetHash : Sha256
  portfolioSnapshotId : UUID
  riskAccountAggregateSequence : ℕ
  accountAggregateSequence : ℕ
  portfolioSequence : ℕ
  idempotencyKey : String
  executionModelVersion : String
  createdAt : UTCDateTime
  intentHash : Sha256
deriving DecidableEq

/-- The fields that the intent hash covers. -/
def OrderIntent.payload (self : OrderIntent) : List Payload :=
  [dump self.intentId, dump self.runId, dump self.accountId, dump self.instrumentId,
    dump self.side, dump self.orderType, dump self.quantity, dump self.quantityQuantum,
    dump self.limitPrice, dump self.stopPrice, dump self.timeInForce, dump self.validFrom,
    dump self.validUntil, dump self.riskDecisionId, dump self.riskDecisionHash,
    dump self.reservationId, dump self.reservationHash, dump self.portfolioTargetId,
    dump self.authorizedTargetHash, dump self.portfolioSnapshotId,
    dump self.riskAccountAggregateSequence, dump self.accountAggregateSequence,
    dump self.portfolioSequence, dump self.idempotencyKey, dump self.executionModelVersion,
    dump self.createdAt]

instance : Dump OrderIntent := ⟨fun i => .record "OrderIntent" (i.payload ++ [dump i.intentHash])⟩

def OrderIntent.expectedIntentHash [Hashing] (self : OrderIntent) : Sha256 :=
  stablePayloadHash (.record "OrderIntent" self.payload)

def optionalPositive (value : Option Decimal) : Call Unit :=
  raiseUnless (∀ price ∈ value, 0 < price) "value must be greater than zero"

@[simp] theorem optionalPositive_eq_success {value : Option Decimal} {u : Unit} :
    optionalPositive value = .success u ↔ ∀ price ∈ value, 0 < price := raiseUnless_eq_success

def OrderIntent.validate [Hashing] (self : OrderIntent) : Call Unit := do
  nonEmptyString self.accountId
  positiveDecimal self.quantity
  positiveDecimal self.quantityQuantum
  optionalPositive self.limitPrice
  optionalPositive self.stopPrice
  atLeast 1 self.accountAggregateSequence
  nonEmptyString self.idempotencyKey
  nonEmptyString self.executionModelVersion
  raiseUnless (self.createdAt ≤ self.validFrom ∧ self.validFrom < self.validUntil)
    "order validity timeline is invalid"
  raiseUnless (IsQuantized self.quantity self.quantityQuantum)
    "order quantity must match instrument quantum"
  raiseUnless (self.orderType ∈ [.limit, .stopLimit] → self.limitPrice ≠ none)
    "limit order requires limit price"
  raiseUnless (self.orderType ∈ [.stop, .stopLimit] → self.stopPrice ≠ none)
    "stop order requires stop price"
  raiseUnless (self.intentHash = self.expectedIntentHash)
    "order intent hash does not match payload"

/-- What the validator of an intent guarantees. -/
structure OrderIntent.Valid [Hashing] (i : OrderIntent) : Prop where
  account_nonempty : i.accountId ≠ ""
  quantity_pos : 0 < i.quantity
  quantum_pos : 0 < i.quantityQuantum
  limit_pos : ∀ price ∈ i.limitPrice, 0 < price
  stop_pos : ∀ price ∈ i.stopPrice, 0 < price
  sequence_pos : 1 ≤ i.accountAggregateSequence
  key_nonempty : i.idempotencyKey ≠ ""
  version_nonempty : i.executionModelVersion ≠ ""
  created_le : i.createdAt ≤ i.validFrom
  from_lt : i.validFrom < i.validUntil
  quantity_quantized : IsQuantized i.quantity i.quantityQuantum
  limit_given : i.orderType ∈ [.limit, .stopLimit] → i.limitPrice ≠ none
  stop_given : i.orderType ∈ [.stop, .stopLimit] → i.stopPrice ≠ none
  hash : i.intentHash = i.expectedIntentHash

theorem OrderIntent.validate_iff [Hashing] {i : OrderIntent} :
    i.validate = .success () ↔ i.Valid := by
  simp only [validate, Attempt.bind_eq_success, nonEmptyString_eq_success,
    positiveDecimal_eq_success, optionalPositive_eq_success, atLeast_eq_success,
    raiseUnless_eq_success]
  constructor
  · rintro ⟨_, h1, _, h2, _, h3, _, h4, _, h5, _, h6, _, h7, _, h8, _, h9, _, h10, _, h11, _, h12,
      h13⟩
    exact ⟨h1, h2, h3, h4, h5, h6, h7, h8, h9.1, h9.2, h10, h11, h12, h13⟩
  · intro h
    exact ⟨(), h.account_nonempty, (), h.quantity_pos, (), h.quantum_pos, (), h.limit_pos, (),
      h.stop_pos, (), h.sequence_pos, (), h.key_nonempty, (), h.version_nonempty, (),
      ⟨h.created_le, h.from_lt⟩, (), h.quantity_quantized, (), h.limit_given, (), h.stop_given,
      h.hash⟩

structure ExecutionCommand where
  commandId : UUID
  intent : OrderIntent
  riskDecisionHash : Sha256
  reservationHash : Sha256
  accountAggregateSequence : ℕ
  portfolioSequence : ℕ
  attemptGeneration : ℕ
  attemptNonce : String
  issuedAt : UTCDateTime
  commandHash : Sha256
deriving DecidableEq

/-- The hash leaves the attempt nonce out. -/
def ExecutionCommand.expectedCommandHash [Hashing] (self : ExecutionCommand) : Sha256 :=
  stablePayloadHash <| .record "ExecutionCommand"
    [dump self.commandId, dump self.intent, dump self.riskDecisionHash,
      dump self.reservationHash, dump self.accountAggregateSequence, dump self.portfolioSequence,
      dump self.attemptGeneration, dump self.issuedAt]

instance : Dump ExecutionCommand :=
  ⟨fun c => .record "ExecutionCommand"
    [dump c.commandId, dump c.intent, dump c.riskDecisionHash, dump c.reservationHash,
      dump c.accountAggregateSequence, dump c.portfolioSequence, dump c.attemptGeneration,
      dump c.attemptNonce, dump c.issuedAt, dump c.commandHash]⟩

def ExecutionCommand.validate [Hashing] (self : ExecutionCommand) : Call Unit := do
  atLeast 1 self.accountAggregateSequence
  atLeast 1 self.attemptGeneration
  nonEmptyString self.attemptNonce
  raiseUnless (self.intent.createdAt ≤ self.issuedAt)
    "execution command cannot precede order intent"
  raiseUnless (self.riskDecisionHash = self.intent.riskDecisionHash ∧
    self.reservationHash = self.intent.reservationHash ∧
    self.accountAggregateSequence = self.intent.accountAggregateSequence ∧
    self.portfolioSequence = self.intent.portfolioSequence)
    "execution command binding does not match intent"
  raiseUnless (self.commandHash = self.expectedCommandHash)
    "execution command hash does not match payload"

/-- What the validator of a command guarantees. -/
structure ExecutionCommand.Valid [Hashing] (c : ExecutionCommand) : Prop where
  intent : c.intent.Valid
  sequence_pos : 1 ≤ c.accountAggregateSequence
  generation_pos : 1 ≤ c.attemptGeneration
  nonce_nonempty : c.attemptNonce ≠ ""
  issued : c.intent.createdAt ≤ c.issuedAt
  risk_hash : c.riskDecisionHash = c.intent.riskDecisionHash
  reservation_hash : c.reservationHash = c.intent.reservationHash
  sequence : c.accountAggregateSequence = c.intent.accountAggregateSequence
  portfolio : c.portfolioSequence = c.intent.portfolioSequence
  hash : c.commandHash = c.expectedCommandHash

theorem ExecutionCommand.validate_iff [Hashing] {c : ExecutionCommand} (hi : c.intent.Valid) :
    c.validate = .success () ↔ c.Valid := by
  simp only [validate, Attempt.bind_eq_success, nonEmptyString_eq_success, atLeast_eq_success,
    raiseUnless_eq_success]
  constructor
  · rintro ⟨_, h1, _, h2, _, h3, _, h4, _, ⟨h5, h6, h7, h8⟩, h9⟩
    exact ⟨hi, h1, h2, h3, h4, h5, h6, h7, h8, h9⟩
  · intro h
    exact ⟨(), h.sequence_pos, (), h.generation_pos, (), h.nonce_nonempty, (), h.issued, (),
      ⟨h.risk_hash, h.reservation_hash, h.sequence, h.portfolio⟩, h.hash⟩

/-! ## Order events -/

structure OrderEvent where
  eventId : UUID
  orderIntentId : UUID
  sequence : ℕ
  fromStatus : OrderStatus
  toStatus : OrderStatus
  cumulativeFilledQuantity : Decimal
  remainingQuantity : Decimal
  occurredAt : UTCDateTime
  reason : Option String
  previousEventHash : Option Sha256
  eventHash : Sha256
deriving DecidableEq

def OrderEvent.link : Link OrderEvent Sha256 where
  sequence := (·.sequence)
  previous := (·.previousEventHash)
  hash := (·.eventHash)

/-- The fields that the event hash covers. -/
def OrderEvent.payload (self : OrderEvent) : List Payload :=
  [dump self.eventId, dump self.orderIntentId, dump self.sequence, dump self.fromStatus,
    dump self.toStatus, dump self.cumulativeFilledQuantity, dump self.remainingQuantity,
    dump self.occurredAt, dump self.reason, dump self.previousEventHash]

instance : Dump OrderEvent := ⟨fun e => .record "OrderEvent" (e.payload ++ [dump e.eventHash])⟩

def OrderEvent.expectedEventHash [Hashing] (self : OrderEvent) : Sha256 :=
  stablePayloadHash (.record "OrderEvent" self.payload)

def OrderEvent.validate [Hashing] (self : OrderEvent) : Call Unit := do
  atLeast 1 self.sequence
  raiseUnless (∀ text ∈ self.reason, text.length ≤ 256)
    "String should have at most 256 characters"
  raiseUnless (self.toStatus ∈ self.fromStatus.transitions) "order status transition is not allowed"
  raiseUnless (self.sequence = 1 ↔ self.previousEventHash = none)
    "only genesis order event may omit previous hash"
  raiseUnless (self.eventHash = self.expectedEventHash) "order event hash does not match payload"

/-- What the validator of an order event guarantees. -/
structure OrderEvent.Valid [Hashing] (e : OrderEvent) : Prop where
  sequence_pos : 1 ≤ e.sequence
  reason_short : ∀ text ∈ e.reason, text.length ≤ 256
  transition : e.toStatus ∈ e.fromStatus.transitions
  genesis : e.sequence = 1 ↔ e.previousEventHash = none
  hash : e.eventHash = e.expectedEventHash

theorem OrderEvent.validate_iff [Hashing] {e : OrderEvent} :
    e.validate = .success () ↔ e.Valid := by
  simp only [validate, Attempt.bind_eq_success, atLeast_eq_success, raiseUnless_eq_success]
  constructor
  · rintro ⟨_, h1, _, h2, _, h3, _, h4, h5⟩
    exact ⟨h1, h2, h3, h4, h5⟩
  · intro h
    exact ⟨(), h.sequence_pos, (), h.reason_short, (), h.transition, (), h.genesis, h.hash⟩

theorem OrderEvent.validate_onlyValueErrors [Hashing] (e : OrderEvent) :
    OnlyValueErrors e.validate :=
  onlyValueErrors_raiseUnless.bind fun _ => onlyValueErrors_raiseUnless.bind fun _ =>
    onlyValueErrors_raiseUnless.bind fun _ => onlyValueErrors_raiseUnless.bind fun _ =>
      onlyValueErrors_raiseUnless

/-! ## Intents and commands from a decision -/

section

variable [Hashing]

def validateIntentBinding (intentId : UUID) (decision : RiskDecision)
    (reservation : AccountReservation) (instrumentId : UUID) (side : OrderSide)
    (quantity quantityQuantum : Decimal) (validUntil createdAt : UTCDateTime) :
    Call PortfolioTarget := do
  match decision.approved, decision.normalizedTarget with
  | true, some target =>
      failUnless (reservation.state = .open_) .conflict "reservation is not open"
      failUnless (reservation.orderIntentId = intentId ∧
        reservation.riskDecisionId = decision.decisionId ∧
        reservation.riskDecisionHash = decision.decisionHash ∧
        reservation.authorizedTargetHash = target.calculationHash ∧
        reservation.accountId = decision.accountId ∧
        reservation.instrumentId = some instrumentId ∧
        reservation.riskAccountAggregateSequence = decision.accountAggregateSequence ∧
        reservation.portfolioSequence = decision.portfolioSequence)
        .conflict "risk and reservation binding mismatch"
      let allocation := target.allocations.find? (·.instrumentId = instrumentId)
      let expectedSide : OrderSide :=
        if ∃ item ∈ allocation, 0 < item.deltaQuantity then .buy else .sell
      let expectedKind : ReservationKind := if expectedSide = .buy then .cash else .position
      failUnless (∃ item ∈ allocation, item.deltaQuantity ≠ 0 ∧ quantity = |item.deltaQuantity| ∧
        quantityQuantum = item.quantityQuantum ∧ side = expectedSide ∧
        reservation.kind = expectedKind)
        .conflict "order does not match authorized target delta"
      failUnless (decision.decidedAt ≤ createdAt ∧ validUntil ≤ reservation.expiresAt)
        .conflict "order validity exceeds authorization"
      return target
  | _, _ => fail .conflict "risk decision is not approved"

/-- The intent that `create_order_intent` builds, before its validators run. -/
def orderIntent (intentId runId : UUID) (decision : RiskDecision)
    (reservation : AccountReservation) (portfolioSnapshotId instrumentId : UUID) (side : OrderSide)
    (orderType : OrderType) (quantity quantityQuantum : Decimal)
    (limitPrice stopPrice : Option Decimal) (timeInForce : TimeInForce)
    (validFrom validUntil : UTCDateTime) (idempotencyKey executionModelVersion : String)
    (createdAt : UTCDateTime) : OrderIntent :=
  let provisional : OrderIntent :=
    { intentId, runId, instrumentId, side, orderType, quantity, quantityQuantum, limitPrice
      stopPrice, timeInForce, validFrom, validUntil, idempotencyKey, executionModelVersion
      createdAt, portfolioSnapshotId
      accountId := decision.accountId
      riskDecisionId := decision.decisionId
      riskDecisionHash := decision.decisionHash
      reservationId := reservation.reservationId
      reservationHash := reservation.eventHash
      portfolioTargetId := decision.portfolioTargetId
      authorizedTargetHash := reservation.authorizedTargetHash
      riskAccountAggregateSequence := decision.accountAggregateSequence
      accountAggregateSequence := reservation.accountAggregateSequence
      portfolioSequence := decision.portfolioSequence
      intentHash := 0 }
  { provisional with intentHash := provisional.expectedIntentHash }

def createOrderIntent (intentId runId : UUID) (decision : RiskDecision)
    (reservation : AccountReservation) (instrumentId : UUID) (side : OrderSide)
    (orderType : OrderType) (quantity quantityQuantum : Decimal)
    (limitPrice stopPrice : Option Decimal) (timeInForce : TimeInForce)
    (validFrom validUntil : UTCDateTime) (idempotencyKey executionModelVersion : String)
    (createdAt : UTCDateTime) : Call OrderIntent := do
  let normalized ← validateIntentBinding intentId decision reservation instrumentId side quantity
    quantityQuantum validUntil createdAt
  exceptValueError .invalidInput "order intent is invalid" <|
    modelValidate OrderIntent.validate <|
      orderIntent intentId runId decision reservation normalized.portfolioSnapshotId instrumentId
        side orderType quantity quantityQuantum limitPrice stopPrice timeInForce validFrom
        validUntil idempotencyKey executionModelVersion createdAt

/-- The intent is one that `create_order_intent` builds from this reservation. -/
def OrderIntent.BuiltFrom (reservation : AccountReservation) (intent : OrderIntent) : Prop :=
  ∃ intentId runId decision instrumentId side orderType quantity quantityQuantum limitPrice
    stopPrice timeInForce validFrom validUntil idempotencyKey executionModelVersion createdAt,
    createOrderIntent intentId runId decision reservation instrumentId side orderType quantity
      quantityQuantum limitPrice stopPrice timeInForce validFrom validUntil idempotencyKey
      executionModelVersion createdAt = .success intent

/-- The reservation behind an intent was open, of the order's kind, and outlives the order. -/
theorem OrderIntent.BuiltFrom.reservation {reservation : AccountReservation}
    {intent : OrderIntent} (h : intent.BuiltFrom reservation) :
    reservation.state = .open_ ∧ intent.validUntil ≤ reservation.expiresAt ∧
      reservation.kind = if intent.side = .buy then .cash else .position := by
  obtain ⟨intentId, runId, decision, instrumentId, side, _, quantity, quantum, _, _, _, _,
    validUntil, _, _, createdAt, h⟩ := h
  obtain ⟨target, hbinding, h⟩ := Attempt.bind_eq_success.mp h
  rw [exceptValueError_eq_success, modelValidate_eq_success] at h
  obtain ⟨-, rfl⟩ := h
  unfold validateIntentBinding at hbinding
  split at hbinding
  · simp only [Attempt.bind_eq_success, failUnless_eq_success] at hbinding
    obtain ⟨_, hopen, _, -, _, ⟨item, -, -, -, -, hside, hkind⟩, _, ⟨-, hexpiry⟩, -⟩ := hbinding
    refine ⟨hopen, hexpiry, ?_⟩
    simp only [orderIntent, hside]
    exact hkind
  · cases hbinding

def validateCommandBinding (intent : OrderIntent) (decision : RiskDecision)
    (reservation : Option AccountReservation) (currentAccountSequence currentPortfolioSequence : ℕ)
    (issuedAt : UTCDateTime) : Call AccountReservation := do
  match reservation with
  | none => fail .conflict "open reservation is required"
  | some reservation =>
      failUnless (decision.approved = true ∧
        intent.riskDecisionId = decision.decisionId ∧
        intent.riskDecisionHash = decision.decisionHash ∧
        intent.reservationId = reservation.reservationId ∧
        intent.reservationHash = reservation.eventHash ∧
        reservation.state = .open_ ∧
        reservation.orderIntentId = intent.intentId ∧
        currentAccountSequence = intent.accountAggregateSequence ∧
        currentAccountSequence = reservation.accountAggregateSequence ∧
        currentPortfolioSequence = intent.portfolioSequence ∧
        currentPortfolioSequence = decision.portfolioSequence)
        .conflict "execution authorization binding is stale"
      failUnless (intent.createdAt ≤ issuedAt ∧ issuedAt < intent.validUntil)
        .conflict "execution command is outside validity window"
      failUnless (issuedAt < reservation.expiresAt ∧ issuedAt < decision.expiresAt)
        .conflict "execution authorization expired"
      return reservation

/-- The command that `build_execution_command` builds, before its validators run. -/
def executionCommand (commandId : UUID) (intent : OrderIntent) (decision : RiskDecision)
    (reservation : AccountReservation) (currentAccountSequence currentPortfolioSequence : ℕ)
    (attemptGeneration : ℕ) (attemptNonce : String) (issuedAt : UTCDateTime) : ExecutionCommand :=
  let provisional : ExecutionCommand :=
    { commandId, intent, attemptGeneration, attemptNonce, issuedAt
      riskDecisionHash := decision.decisionHash
      reservationHash := reservation.eventHash
      accountAggregateSequence := currentAccountSequence
      portfolioSequence := currentPortfolioSequence
      commandHash := 0 }
  { provisional with commandHash := provisional.expectedCommandHash }

def buildExecutionCommand (commandId : UUID) (intent : OrderIntent) (decision : RiskDecision)
    (reservation : Option AccountReservation) (currentAccountSequence currentPortfolioSequence : ℕ)
    (attemptGeneration : ℕ) (attemptNonce : String) (issuedAt : UTCDateTime) :
    Call ExecutionCommand := do
  let reservation ← validateCommandBinding intent decision reservation currentAccountSequence
    currentPortfolioSequence issuedAt
  exceptValueError .invalidInput "execution command is invalid" <|
    modelValidate ExecutionCommand.validate <|
      executionCommand commandId intent decision reservation currentAccountSequence
        currentPortfolioSequence attemptGeneration attemptNonce issuedAt

end

/-! ## Appending an event -/

section

variable [Arithmetic] [Hashing]

def validateStatusQuantities (status : OrderStatus) (filled remaining : Decimal) : Call Unit := do
  failUnless (status = .accepted → filled = 0) .conflict "accepted order cannot already be filled"
  failUnless (status = .partiallyFilled → 0 < filled ∧ 0 < remaining) .conflict
    "partial fill quantities are invalid"
  failUnless (status = .filled → remaining = 0) .conflict "filled order must have zero remaining"

/-- The time window of an event: an expiry falls after the validity, any other event within it. -/
def OrderIntent.insideValidity (intent : OrderIntent) (target : OrderStatus)
    (occurredAt : UTCDateTime) : Prop :=
  if target = .expired then intent.validUntil ≤ occurredAt else occurredAt < intent.validUntil

instance (intent : OrderIntent) (target : OrderStatus) (occurredAt : UTCDateTime) :
    Decidable (intent.insideValidity target occurredAt) := by
  unfold OrderIntent.insideValidity; infer_instance

/-- The checks against the previous event. -/
def validatePreviousEvent (intent : OrderIntent) (previous : OrderEvent)
    (cumulativeFilledQuantity : Decimal) (occurredAt : UTCDateTime) : Call Unit := do
  failUnless (previous.orderIntentId = intent.intentId) .conflict
    "previous order event belongs elsewhere"
  failUnless (previous.occurredAt ≤ occurredAt) .conflict "order event time moved backwards"
  failUnless (previous.cumulativeFilledQuantity ≤ cumulativeFilledQuantity) .conflict
    "filled quantity cannot decrease"

/-- The event that `append_order_event` builds, before its validators run. -/
def orderEvent (intent : OrderIntent) (previous : Option OrderEvent) (targetStatus : OrderStatus)
    (cumulativeFilledQuantity : Decimal) (occurredAt : UTCDateTime) (reason : Option String) :
    OrderEvent :=
  let sequence := previous.elim 1 (·.sequence + 1)
  let provisional : OrderEvent :=
    { eventId := uuid5 (.record "order" [dump intent.intentId, dump sequence])
      orderIntentId := intent.intentId
      sequence
      fromStatus := previous.elim .created (·.toStatus)
      toStatus := targetStatus
      cumulativeFilledQuantity
      remainingQuantity := kept (intent.quantity - cumulativeFilledQuantity)
      occurredAt, reason
      previousEventHash := previous.map (·.eventHash)
      eventHash := 0 }
  { provisional with eventHash := provisional.expectedEventHash }

def appendOrderEvent (intent : OrderIntent) (previous : Option OrderEvent)
    (targetStatus : OrderStatus) (cumulativeFilledQuantity : Decimal) (occurredAt : UTCDateTime)
    (reason : Option String) : Call OrderEvent := do
  let fromStatus := previous.elim .created (·.toStatus)
  failUnless (intent.createdAt ≤ occurredAt) .conflict "order event cannot precede intent"
  failUnless (intent.insideValidity targetStatus occurredAt) .conflict
    "order event violates validity window"
  failUnless (targetStatus ∈ fromStatus.transitions) .conflict
    "order status transition is not allowed"
  previous.elim (pure ()) (validatePreviousEvent intent · cumulativeFilledQuantity occurredAt)
  failUnless (IsQuantized cumulativeFilledQuantity intent.quantityQuantum) .invalidInput
    "filled quantity is not quantized"
  let remaining := kept (intent.quantity - cumulativeFilledQuantity)
  failUnless (0 ≤ cumulativeFilledQuantity ∧ 0 ≤ remaining) .conflict
    "order event would overfill intent"
  validateStatusQuantities targetStatus cumulativeFilledQuantity remaining
  exceptValueError .invalidInput "order event is invalid" <|
    modelValidate OrderEvent.validate <|
      orderEvent intent previous targetStatus cumulativeFilledQuantity occurredAt reason

/-- Everything `appendOrderEvent` checks; rounding keeps the sign of the remaining quantity. -/
structure AppendAccepted (intent : OrderIntent) (previous : Option OrderEvent)
    (target : OrderStatus) (cumulative : Decimal) (at_ : UTCDateTime) (reason : Option String) :
    Prop where
  created_le : intent.createdAt ≤ at_
  window : intent.insideValidity target at_
  transition : target ∈ (previous.elim OrderStatus.created (·.toStatus)).transitions
  previous_intent : ∀ e ∈ previous, e.orderIntentId = intent.intentId
  previous_time : ∀ e ∈ previous, e.occurredAt ≤ at_
  previous_filled : ∀ e ∈ previous, e.cumulativeFilledQuantity ≤ cumulative
  quantized : IsQuantized cumulative intent.quantityQuantum
  nonneg : 0 ≤ cumulative
  le_quantity : cumulative ≤ intent.quantity
  accepted : target = .accepted → cumulative = 0
  partial_fill : target = .partiallyFilled → 0 < cumulative ∧ cumulative < intent.quantity
  filled : target = .filled → cumulative = intent.quantity
  previous_sequence : ∀ e ∈ previous, 1 ≤ e.sequence
  reason_short : ∀ text ∈ reason, text.length ≤ 256

theorem orderEvent_valid {intent : OrderIntent} {previous : Option OrderEvent}
    {target : OrderStatus} {cumulative : Decimal} {at_ : UTCDateTime} {reason : Option String} :
    (orderEvent intent previous target cumulative at_ reason).Valid ↔
      target ∈ (previous.elim OrderStatus.created (·.toStatus)).transitions ∧
        (∀ e ∈ previous, 1 ≤ e.sequence) ∧ ∀ text ∈ reason, text.length ≤ 256 := by
  constructor
  · intro h
    refine ⟨h.transition, ?_, h.reason_short⟩
    rintro e he
    have hgenesis := h.genesis
    rw [Option.mem_def.mp he] at hgenesis
    simpa [orderEvent, Nat.one_le_iff_ne_zero] using hgenesis
  · rintro ⟨htransition, hsequence, hreason⟩
    refine ⟨?_, hreason, htransition, ?_, rfl⟩
    · cases previous <;> simp [orderEvent]
    · cases previous with
      | none => simp [orderEvent]
      | some e =>
          have := hsequence e rfl
          simp [orderEvent]; omega

theorem appendOrderEvent_eq_success {intent : OrderIntent} {previous : Option OrderEvent}
    {target : OrderStatus} {cumulative : Decimal} {at_ : UTCDateTime} {reason : Option String}
    {e : OrderEvent} :
    appendOrderEvent intent previous target cumulative at_ reason = .success e ↔
      AppendAccepted intent previous target cumulative at_ reason ∧
        e = orderEvent intent previous target cumulative at_ reason := by
  have hprevious (u : Unit) :
      previous.elim (pure ()) (validatePreviousEvent intent · cumulative at_) = .success u ↔
        (∀ e ∈ previous, e.orderIntentId = intent.intentId) ∧ (∀ e ∈ previous, e.occurredAt ≤ at_) ∧
          ∀ e ∈ previous, e.cumulativeFilledQuantity ≤ cumulative := by
    cases previous <;> simp [validatePreviousEvent, Attempt.bind_eq_success]
  simp only [appendOrderEvent, Attempt.bind_eq_success, failUnless_eq_success, hprevious,
    validateStatusQuantities, exceptValueError_eq_success, modelValidate_eq_success,
    OrderEvent.validate_iff, orderEvent_valid]
  constructor
  · rintro ⟨_, h1, _, h2, _, h3, _, ⟨h4, h5, h6⟩, _, h7, _, h8, _, ⟨_, h9, _, h10, h11⟩,
      ⟨-, h12, h13⟩, rfl⟩
    exact ⟨⟨h1, h2, h3, h4, h5, h6, h7, h8.1, sub_nonneg.mp (kept_nonneg_iff.mp h8.2), h9,
      fun h => ⟨(h10 h).1, sub_pos.mp (kept_pos_iff.mp (h10 h).2)⟩,
      fun h => (sub_eq_zero.mp (kept_eq_zero.mp (h11 h))).symm, h12, h13⟩, rfl⟩
  · rintro ⟨h, rfl⟩
    exact ⟨(), h.created_le, (), h.window, (), h.transition, (),
      ⟨h.previous_intent, h.previous_time, h.previous_filled⟩, (), h.quantized, (),
      ⟨h.nonneg, kept_nonneg_iff.mpr (sub_nonneg.mpr h.le_quantity)⟩, (),
      ⟨(), h.accepted, (),
        fun ht => ⟨(h.partial_fill ht).1, kept_pos_iff.mpr (sub_pos.mpr (h.partial_fill ht).2)⟩,
        fun ht => kept_eq_zero.mpr (sub_eq_zero.mpr (h.filled ht).symm)⟩,
      ⟨h.transition, h.previous_sequence, h.reason_short⟩, rfl⟩

theorem appendOrderEvent_toStatus {intent : OrderIntent} {previous : Option OrderEvent}
    {target : OrderStatus} {cumulative : Decimal} {at_ : UTCDateTime} {reason : Option String}
    {e : OrderEvent} (h : appendOrderEvent intent previous target cumulative at_ reason =
    .success e) :
    e.toStatus = target := by
  rw [(appendOrderEvent_eq_success.mp h).2]; rfl

theorem appendOrderEvent_returns {intent : OrderIntent} {previous : Option OrderEvent}
    {target : OrderStatus} {cumulative : Decimal} {at_ : UTCDateTime} {reason : Option String} :
    (appendOrderEvent intent previous target cumulative at_ reason).Returns := by
  have hprevious :
      (previous.elim (pure ()) (validatePreviousEvent intent · cumulative at_)).Returns := by
    cases previous <;> simp [validatePreviousEvent, Attempt.returns_bind]
  have hevent (e : OrderEvent) : (exceptValueError .invalidInput "order event is invalid"
      (modelValidate OrderEvent.validate e)).Returns :=
    exceptValueError_returns (e.validate_onlyValueErrors.bind fun _ => onlyValueErrors_success)
  simp only [appendOrderEvent, Attempt.returns_bind, returns_failUnless, hprevious, hevent,
    validateStatusQuantities, implies_true, and_self]

end

end StonksPaper
