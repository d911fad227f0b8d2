import StonksPaper.Domain.ExecutionModel

/-!
# The reference paper broker

`adapters/execution/paper.py`: one call simulates one order against the next tradable bar. Its
exits are two rejections, an order left pending, an expiry, and a fill that is full, partial, or
partial with an immediate-or-cancel remainder. The results of its arithmetic are those that the
context keeps.
-/

namespace StonksPaper

open Quantum

def bps : Decimal := 10000

/-- The event's place in the chain that the walk over the prior events has reached. -/
def chainContinues (sequence : ℕ) (previousHash : Option Sha256) (previousStatus : OrderStatus)
    (cumulative : Decimal) (event : OrderEvent) : Prop :=
  event.sequence = sequence ∧ event.previousEventHash = previousHash ∧
    event.fromStatus = previousStatus ∧ cumulative ≤ event.cumulativeFilledQuantity

instance (sequence : ℕ) (previousHash : Option Sha256) (previousStatus : OrderStatus)
    (cumulative : Decimal) (event : OrderEvent) :
    Decidable (chainContinues sequence previousHash previousStatus cumulative event) :=
  inferInstanceAs (Decidable (_ ∧ _))

/-- The loop of `_event_chain_error`: the cumulative quantity after the last event. -/
def walkEventChain (sequence : ℕ) (previousHash : Option Sha256) (previousStatus : OrderStatus)
    (cumulative : Decimal) : List OrderEvent → Call Decimal
  | [] => return cumulative
  | event :: events => do
      failUnless (chainContinues sequence previousHash previousStatus cumulative event) .conflict
        "Prior order event chain is invalid"
      walkEventChain (sequence + 1) (some event.eventHash) event.toStatus
        event.cumulativeFilledQuantity events

def eventChainError [Arithmetic] (request : PaperExecutionRequest) : Call Unit := do
  let cumulative ← walkEventChain 1 none .created 0 request.priorEvents
  failUnless (summedQuantity request.priorFills = cumulative) .conflict
    "Prior fills do not match order events"

def requestError [Arithmetic] (request : PaperExecutionRequest) (policy : PaperExecutionPolicy) :
    Call Unit := do
  let intent := request.command.intent
  failUnless (intent.executionModelVersion = policy.executionModelVersion) .conflict
    "Execution model version does not match"
  failUnless (Chain.SortedUnique (request.bars.map (·.opensAt))) .invalidInput
    "Execution bars must be unique and sorted"
  failUnless (∀ item ∈ request.bars, item.availableAt ≤ request.asOf) .invalidInput
    "Execution bar is unavailable at as-of"
  failUnless (∀ item ∈ request.bars, item.instrumentId = intent.instrumentId) .conflict
    "Execution bar instrument does not match"
  failUnless (∀ item ∈ request.bars, item.quantityQuantum = intent.quantityQuantum) .conflict
    "Execution bar quantity quantum differs"
  eventChainError request

def nextBar (request : PaperExecutionRequest) : Option ExecutionBar :=
  let lastTime := request.priorEvents.getLast?.elim request.command.issuedAt (·.occurredAt)
  request.bars.find? fun item =>
    item.tradable ∧ lastTime < item.opensAt ∧ item.opensAt < request.command.intent.validUntil

/-! ## Price -/

section

variable [Arithmetic]

def floorQuantum (value quantum : Decimal) : Decimal := Arithmetic.context.floorTo value quantum

def ceilQuantum (value quantum : Decimal) : Decimal := Arithmetic.context.ceilTo value quantum

def adverseQuantize (value quantum : Decimal) : OrderSide → Decimal
  | .buy => ceilQuantum value quantum
  | .sell => floorQuantum value quantum

def OrderSide.direction : OrderSide → Decimal
  | .buy => 1
  | .sell => -1

/-- The bar's open moved by spread, slippage and impact against the order. -/
def adjustedPrice (intent : OrderIntent) (bar : ExecutionBar) (policy : PaperExecutionPolicy) :
    Decimal :=
  let participation := min policy.maxVolumeParticipation
    (if bar.volume ≠ 0 then kept (intent.quantity / bar.volume) else 0)
  let impact := kept (kept (policy.marketImpactBpsAtMaxParticipation * participation) /
    policy.maxVolumeParticipation)
  let adverseBps := kept (kept (policy.halfSpreadBps + policy.baseSlippageBps) + impact)
  let moved := kept (1 + kept (kept (intent.side.direction * adverseBps) / bps))
  adverseQuantize (kept (bar.open_ * moved)) bar.priceQuantum intent.side

/-- The price at which a limit order meets the bar. -/
def limitFillPrice (bar : ExecutionBar) (adjusted limit : Decimal) : OrderSide → Option Decimal
  | .buy =>
      if bar.open_ ≤ limit then some (min adjusted limit)
      else if bar.low ≤ limit then some limit else none
  | .sell =>
      if limit ≤ bar.open_ then some (max adjusted limit)
      else if limit ≤ bar.high then some limit else none

def fillPrice (request : PaperExecutionRequest) (bar : ExecutionBar)
    (policy : PaperExecutionPolicy) : Option Decimal :=
  let intent := request.command.intent
  let adjusted := adjustedPrice intent bar policy
  match intent.orderType, intent.limitPrice with
  | .market, _ => some adjusted
  | .limit, some limit =>
      if IsQuantized limit bar.priceQuantum then limitFillPrice bar adjusted limit intent.side
      else none
  | _, _ => none

/-! ## Quantity -/

def fee (quantity price : Decimal) (policy : PaperExecutionPolicy) : Decimal :=
  let raw := kept (kept (kept (kept (quantity * price) * policy.feeBps) / bps) +
    kept (quantity * policy.perUnitFee))
  ceilQuantum (max raw policy.minimumFee) policy.feeQuantum

def cashConsumption (quantity price : Decimal) (policy : PaperExecutionPolicy) : Decimal :=
  kept (kept (quantity * price) + fee quantity price policy)

/-- The `while` loop of `_affordable_quantity`; `fuel` bounds the number of its steps. -/
def lowerCandidate (price quantum available : Decimal) (policy : PaperExecutionPolicy) :
    ℕ → Decimal → Decimal
  | 0, candidate => candidate
  | fuel + 1, candidate =>
      if 0 < candidate ∧ available < cashConsumption candidate price policy then
        lowerCandidate price quantum available policy fuel (kept (candidate - quantum))
      else candidate

/-- The steps after which a candidate has been lowered to zero. A step that is rounded can lower it
by less than the quantum; the ones that are rounded to nothing never end. -/
def candidateSteps (candidate quantum : Decimal) : ℕ := 2 * ⌈candidate / quantum⌉.toNat

/-- `price * (1 + fee_bps / BPS) + per_unit_fee`. -/
def approximateUnit (price : Decimal) (policy : PaperExecutionPolicy) : Decimal :=
  kept (kept (price * kept (1 + kept (policy.feeBps / bps))) + policy.perUnitFee)

/-- The number of units that the cash pays at the approximate price, besides the minimum fee. -/
def affordableEstimate (price quantum available : Decimal) (policy : PaperExecutionPolicy) :
    Decimal :=
  let conservative := max 0 (kept (available - policy.minimumFee))
  floorQuantum (kept (conservative / approximateUnit price policy)) quantum

/-- `_affordable_quantity`. A zero unit price makes the decimal division raise. -/
def affordableQuantity (quantity price quantum available : Decimal)
    (policy : PaperExecutionPolicy) : Call Decimal := do
  Attempt.require (approximateUnit price policy ≠ 0) (.decimalException "division by zero")
  let candidate := min quantity (affordableEstimate price quantum available policy)
  return max 0 <|
    lowerCandidate price quantum available policy (candidateSteps candidate quantum) candidate

/-- `request.prior_events[-1].cumulative_filled_quantity`, or zero. -/
def alreadyFilled (request : PaperExecutionRequest) : Decimal :=
  request.priorEvents.getLast?.elim 0 (·.cumulativeFilledQuantity)

def volumeCap (bar : ExecutionBar) (quantum : Decimal) (policy : PaperExecutionPolicy) : Decimal :=
  floorQuantum (kept (bar.volume * policy.maxVolumeParticipation)) quantum

/-- What the bar's volume leaves of the order's remainder. -/
def volumeLimited (request : PaperExecutionRequest) (bar : ExecutionBar)
    (policy : PaperExecutionPolicy) : Decimal :=
  let intent := request.command.intent
  min (kept (intent.quantity - alreadyFilled request)) (volumeCap bar intent.quantityQuantum policy)

def fillQuantity (request : PaperExecutionRequest) (bar : ExecutionBar) (price : Decimal)
    (policy : PaperExecutionPolicy) : Call Decimal :=
  let quantity := volumeLimited request bar policy
  match request.reservation.kind with
  | .position => return min quantity request.reservation.remainingAmount
  | .cash =>
      affordableQuantity quantity price request.command.intent.quantityQuantum
        request.reservation.remainingAmount policy

end

/-! ## Reservation changes -/

/-- `if isinstance(result, Failure): raise ValueError(message)`. -/
def orRaise {α : Type} (message : String) : Call α → Call α
  | .failure _ => .raised (.valueError message)
  | x => x

@[simp] theorem orRaise_eq_success {α : Type} {message : String} {x : Call α} {a : α} :
    orRaise message x = .success a ↔ x = .success a := by
  cases x <;> simp [orRaise]

@[simp] theorem orRaise_ne_failure {α : Type} {message : String} {x : Call α} {f : Failure} :
    orRaise message x ≠ .failure f := by
  cases x <;> simp [orRaise]

/-- What an execution does to the reservation. -/
structure ReservationChange where
  mutations : List ReservationMutation
  final : AccountReservation
  consumed : Decimal
  released : Decimal

section

variable [Arithmetic] [Hashing]

def releaseRemaining (reservation : AccountReservation) (at_ : UTCDateTime) (reason : String) :
    Call ReservationChange := do
  let mutation ← orRaise "validated order could not release reservation" <|
    if reservation.expiresAt ≤ at_ then expireReservation reservation at_
    else releaseReservation reservation at_ reason
  return ⟨[mutation], mutation.reservation, 0, reservation.remainingAmount⟩

/-- The amount that a fill takes from the reservation. -/
def consumedAmount (reservation : AccountReservation) (quantity price fee : Decimal) : Decimal :=
  match reservation.kind with
  | .cash => ceilQuantum (kept (kept (quantity * price) + fee)) reservation.quantum
  | .position => quantity

/-- Release what a fill leaves over. The remainder was rounded when the fill was consumed and
nothing was released before it, so the sum has the digits that the context keeps. -/
def releaseSurplus (change : ReservationChange) (at_ : UTCDateTime) (terminal : Prop)
    [Decidable terminal] (reason : String) : Call ReservationChange :=
  if terminal then do
    let extra ← releaseRemaining change.final at_ reason
    return ⟨change.mutations ++ extra.mutations, extra.final, change.consumed,
      change.released + extra.released⟩
  else return change

def reservationAfterFill (reservation : AccountReservation) (quantity price fee : Decimal)
    (at_ : UTCDateTime) (terminal : Prop) [Decidable terminal] : Call ReservationChange := do
  let amount := consumedAmount reservation quantity price fee
  let consumed ← orRaise "validated fill could not consume reservation" <|
    consumeReservation reservation amount at_
  releaseSurplus ⟨[consumed], consumed.reservation, amount, 0⟩ at_
    (terminal ∧ 0 < consumed.reservation.remainingAmount) "filled_order_surplus_released"

/-! ## Fill and outcome -/

/-- `f"{policy.execution_model_version}:{bar.source_ref}:{bar.source_hash}"`. -/
def simulatorRef (policy : PaperExecutionPolicy) (bar : ExecutionBar) : String :=
  policy.executionModelVersion ++ ":" ++ bar.sourceRef ++ ":" ++ hexDigest bar.sourceHash

/-- The fill that `_fill` builds, before its validators run. -/
def paperFill (request : PaperExecutionRequest) (policy : PaperExecutionPolicy)
    (bar : ExecutionBar) (quantity price fee : Decimal) (sequence : ℕ) : Fill :=
  let intent := request.command.intent
  { fillId := uuid5 (.record "paper-fill"
      [dump request.command.commandId, dump sequence, dump bar.sourceHash, dump bar.opensAt])
    commandId := request.command.commandId
    orderIntentId := intent.intentId
    accountId := intent.accountId
    instrumentId := intent.instrumentId
    side := intent.side
    quantity, price
    quantityQuantum := intent.quantityQuantum
    priceQuantum := bar.priceQuantum
    feeCurrency := bar.currency
    fees := fee
    feeQuantum := policy.feeQuantum
    feePlace := policy.feePlace
    slippage := kept (price - bar.open_)
    occurredAt := bar.opensAt
    simulatorRef := some (simulatorRef policy bar)
    externalRef := none }

/-- `_fill`, whose numbers were computed. -/
def fill (request : PaperExecutionRequest) (policy : PaperExecutionPolicy) (bar : ExecutionBar)
    (quantity price fee : Decimal) (sequence : ℕ) : Call Fill := do
  let built ← modelValidate Fill.validate <| paperFill request policy bar quantity price fee
      sequence
  raiseUnless built.InBounds "Decimal input exceeds supported bounds"
  return built

/-- `_outcome`. The caller appends to the events, so the last one exists. -/
def outcome (request : PaperExecutionRequest) (policy : PaperExecutionPolicy)
    (events : List OrderEvent) (latest : OrderEvent) (fills : List Fill)
    (change : ReservationChange) : Call PaperExecutionOutcome := do
  let receipt ← ExecutionReceipt.create
    (uuid5 (.record "paper-receipt" [dump request.command.commandId, dump latest.eventHash]))
    request.command.commandId request.command.intent latest fills
    (max request.asOf latest.occurredAt)
  let inputHash := stablePayloadHash (.record "input" [dump request, dump policy.policyHash])
  PaperExecutionOutcome.create receipt events change.mutations change.final change.consumed
    change.released inputHash

/-- `_terminal_without_fill`, which both rejections use. -/
def terminalWithoutFill (request : PaperExecutionRequest) (policy : PaperExecutionPolicy)
    (status : OrderStatus) (reason : String) (occurredAt : UTCDateTime) :
    Call PaperExecutionOutcome := do
  let event ← appendOrderEvent request.command.intent none status 0 occurredAt reason
  let change ← releaseRemaining request.reservation event.occurredAt (reason ++ "_released")
  outcome request policy [event] event [] change

def pendingOrExpired (request : PaperExecutionRequest) (policy : PaperExecutionPolicy)
    (events : List OrderEvent) (latest : OrderEvent) : Call PaperExecutionOutcome :=
  let intent := request.command.intent
  if request.asOf < intent.validUntil then
    outcome request policy events latest request.priorFills ⟨[], request.reservation, 0, 0⟩
  else do
    let expired ← appendOrderEvent intent latest .expired latest.cumulativeFilledQuantity
      intent.validUntil "order_validity_expired"
    let change ← releaseRemaining request.reservation intent.validUntil "expired_order_released"
    outcome request policy (events ++ [expired]) expired request.priorFills change

/-- The end of `_filled_outcome`: an immediate-or-cancel remainder is cancelled. -/
def settleRemainder (request : PaperExecutionRequest) (policy : PaperExecutionPolicy)
    (events : List OrderEvent) (latest : OrderEvent) (fills : List Fill)
    (change : ReservationChange) : Call PaperExecutionOutcome :=
  let intent := request.command.intent
  if intent.timeInForce = .ioc ∧ latest.toStatus = .partiallyFilled then do
    let cancelled ← appendOrderEvent intent latest .cancelled latest.cumulativeFilledQuantity
      latest.occurredAt "ioc_remainder_cancelled"
    let change ← releaseSurplus change latest.occurredAt True "ioc_remainder_released"
    outcome request policy (events ++ [cancelled]) cancelled fills change
  else outcome request policy events latest fills change

/-- The status of an order whose filled quantity reaches `cumulative`. -/
def fillStatus (intent : OrderIntent) (cumulative : Decimal) : OrderStatus :=
  if cumulative = intent.quantity then .filled else .partiallyFilled

def filledOutcome (request : PaperExecutionRequest) (policy : PaperExecutionPolicy)
    (events : List OrderEvent) (latest : OrderEvent) (bar : ExecutionBar)
    (price quantity : Decimal) : Call PaperExecutionOutcome := do
  let intent := request.command.intent
  let cumulative := kept (latest.cumulativeFilledQuantity + quantity)
  let status := fillStatus intent cumulative
  let event ← appendOrderEvent intent latest status cumulative bar.opensAt "paper_next_bar_fill"
  let fee := fee quantity price policy
  let fill ← fill request policy bar quantity price fee event.sequence
  let fills := Chain.sorted (·.fillId) (request.priorFills ++ [fill])
  let change ← reservationAfterFill request.reservation quantity price fee bar.opensAt
    (status = .filled)
  settleRemainder request policy (events ++ [event]) event fills change

/-- The order's events so far; an order without any is accepted first. -/
def openedEvents (request : PaperExecutionRequest) : Call (List OrderEvent × OrderEvent) :=
  match request.priorEvents.getLast? with
  | some latest => return (request.priorEvents, latest)
  | none => do
      let accepted ← appendOrderEvent request.command.intent none .accepted 0
        request.command.issuedAt "paper_command_accepted"
      return ([accepted], accepted)

/-- The exits of `execute` for an order whose bar and price are known. -/
def fillOrReject (request : PaperExecutionRequest) (policy : PaperExecutionPolicy)
    (events : List OrderEvent) (latest : OrderEvent) (bar : ExecutionBar) (price : Decimal) :
    Call PaperExecutionOutcome := do
  let quantity ← fillQuantity request bar price policy
  if quantity ≤ 0 then
    terminalWithoutFill request policy .rejected "reservation_insufficient"
      request.command.issuedAt
  else filledOutcome request policy events latest bar price quantity

/-- The bar and the price that an execution would use. -/
def nextPrice (request : PaperExecutionRequest) (policy : PaperExecutionPolicy) :
    Option (ExecutionBar × Decimal) := do
  let bar ← nextBar request
  let price ← fillPrice request bar policy
  return (bar, price)

/-- The exits of `execute` for a supported order. -/
def executeSupported (request : PaperExecutionRequest) (policy : PaperExecutionPolicy) :
    Call PaperExecutionOutcome := do
  let (events, latest) ← openedEvents request
  match nextPrice request policy with
  | none => pendingOrExpired request policy events latest
  | some (bar, price) => fillOrReject request policy events latest bar price

/-- `ReferencePaperBroker(policy).execute(request)`. -/
def execute (policy : PaperExecutionPolicy) (request : PaperExecutionRequest) :
    Call PaperExecutionOutcome := do
  requestError request policy
  if request.command.intent.orderType ∉ policy.supportedOrderTypes then
    terminalWithoutFill request policy .rejected "unsupported_order_type" request.command.issuedAt
  else if request.command.intent.timeInForce ∉ policy.supportedTimeInForce then
    terminalWithoutFill request policy .rejected "unsupported_time_in_force"
      request.command.issuedAt
  else executeSupported request policy

end

end StonksPaper
