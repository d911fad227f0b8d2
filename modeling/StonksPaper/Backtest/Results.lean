import StonksPaper.Backtest.Schedule

/-!
# Results of a backtest

The outcomes, fills and results of `backtest.py`, and `_backtest_validation.py`, which checks a
result against its job. A dictionary of the checks is a function, as all of its keys are known.
-/

namespace StonksPaper

open Chain Backtest

structure BacktestOrderOutcome where
  orderId : UUID
  orderHash : Sha256
  status : BacktestOrderStatus
  commandQuantity : DecimalString
  filledQuantity : DecimalString
  remainingQuantity : DecimalString
  reason : Option String
deriving DecidableEq

structure BacktestResult where
  resultId : UUID
  requestId : UUID
  runId : UUID
  jobId : UUID
  attemptGeneration : ℕ
  attemptNonce : String
  runtime : BacktestRuntimeIdentity
  jobHash : Sha256
  inputHash : Sha256
  datasetHash : Sha256
  calendarHash : Sha256
  costModelHash : Sha256
  orderOutcomes : List BacktestOrderOutcome
  fills : List BacktestFill
  finalCash : List BacktestCashBalance
  finalPositions : List BacktestPosition
  totalFees : DecimalString
  generatedAt : UTCDateTime
  warnings : List String
deriving DecidableEq

/-! ## Validators -/

section

variable [DecimalContext]

def BacktestOrderOutcome.validate (self : BacktestOrderOutcome) : Call Unit := do
  positiveDecimal self.commandQuantity
  nonNegativeDecimal self.filledQuantity
  nonNegativeDecimal self.remainingQuantity
  raiseUnless (round (self.filledQuantity.value + self.remainingQuantity) = self.commandQuantity)
    "backtest outcome quantities must sum to command quantity"
  raiseUnless (self.status = .filled → self.remainingQuantity.value = 0)
    "filled backtest outcome must have zero remainder"
  raiseUnless (self.status = .partiallyFilled →
    0 < self.filledQuantity.value ∧ self.filledQuantity.value < self.commandQuantity)
    "partial backtest outcome requires a partial quantity"
  raiseUnless (self.status = .rejected → self.filledQuantity.value = 0)
    "rejected backtest outcome cannot have fills"

/-- `sum((item.fees for item in fills), _ZERO)`. -/
def sumFees (fills : List BacktestFill) : Decimal :=
  fills.foldl (fun total item => round (total + item.fees)) 0

/-- The collections of a result are unique and stably ordered. -/
def BacktestResult.Stable (self : BacktestResult) : Prop :=
  SortedUnique (self.orderOutcomes.map (·.orderId)) ∧
    (self.fills.map fun item => toLex (item.occurredAt, item.fillId)).Pairwise (· ≤ ·) ∧
    (self.fills.map (·.fillId)).Nodup ∧ SortedUnique (self.finalCash.map (·.currency)) ∧
    SortedUnique (self.finalPositions.map (·.instrumentId))

omit [DecimalContext] in
instance (result : BacktestResult) : Decidable result.Stable := inferInstanceAs (Decidable (_ ∧ _))

/-- The validators of a result; its two hashes are those that it is expected to have. -/
def BacktestResult.validate (self : BacktestResult) : Call Unit := do
  self.orderOutcomes.forM BacktestOrderOutcome.validate
  atLeast 1 self.orderOutcomes.length
  maxLength 1000000 self.orderOutcomes.length
  maxLength 1000000 self.fills.length
  atLeast 1 self.finalCash.length
  maxLength 64 self.finalCash.length
  atLeast 1 self.finalPositions.length
  maxLength 10000 self.finalPositions.length
  nonNegativeDecimal self.totalFees
  maxLength 128 self.warnings.length
  raiseUnless self.Stable "backtest result collections must be unique and stably ordered"
  raiseUnless (sumFees self.fills = self.totalFees) "backtest total fees do not match fills"

variable [Hashing]

def BacktestResult.create (resultId : UUID) (job : BacktestJob)
    (orderOutcomes : List BacktestOrderOutcome) (fills : List BacktestFill)
    (finalCash : List BacktestCashBalance) (finalPositions : List BacktestPosition)
    (totalFees : DecimalString) (generatedAt : UTCDateTime) (warnings : List String) :
    Call BacktestResult := do
  let result : BacktestResult := {
    resultId := resultId
    requestId := job.requestId
    runId := job.runId
    jobId := job.jobId
    attemptGeneration := job.attemptGeneration
    attemptNonce := job.attemptNonce
    runtime := job.runtime
    jobHash := job.jobHash
    inputHash := job.inputHash
    datasetHash := job.dataset.payloadHash
    calendarHash := job.dataset.calendar.calendarHash
    costModelHash := job.costModel.costModelHash
    orderOutcomes := orderOutcomes
    fills := fills
    finalCash := finalCash
    finalPositions := finalPositions
    totalFees := totalFees
    generatedAt := generatedAt
    warnings := warnings }
  result.validate
  return result

end

namespace Backtest

/-! ## The economics of a fill -/

/-- What a fill says, in numbers, but for its identity and its external reference. -/
structure FillEconomics where
  orderId : UUID
  orderHash : Sha256
  instrumentId : UUID
  side : BacktestOrderSide
  feeCurrency : Currency
  quantity : Decimal
  quantityQuantum : Decimal
  price : Decimal
  priceQuantum : Decimal
  fees : Decimal
  feeQuantum : Decimal
  slippage : Decimal
  occurredAt : UTCDateTime
  sourceBarId : UUID
deriving DecidableEq

end Backtest

def BacktestFill.economics (self : BacktestFill) : FillEconomics where
  orderId := self.orderId
  orderHash := self.orderHash
  instrumentId := self.instrumentId
  side := self.side
  feeCurrency := self.feeCurrency
  quantity := self.quantity
  quantityQuantum := self.quantityQuantum
  price := self.price
  priceQuantum := self.priceQuantum
  fees := self.fees
  feeQuantum := self.feeQuantum
  slippage := self.slippage
  occurredAt := self.occurredAt
  sourceBarId := self.sourceBarId

/-- `fills_by_order`. -/
def BacktestResult.fillsOf (self : BacktestResult) (orderId : UUID) : List BacktestFill :=
  self.fills.filter (·.orderId = orderId)

namespace Backtest

/-- What an outcome says, in numbers. -/
structure OutcomeEconomics where
  orderId : UUID
  orderHash : Sha256
  status : BacktestOrderStatus
  commandQuantity : Decimal
  filledQuantity : Decimal
  remainingQuantity : Decimal
  reason : Option String
deriving DecidableEq

end Backtest

def BacktestOrderOutcome.economics (self : BacktestOrderOutcome) : OutcomeEconomics where
  orderId := self.orderId
  orderHash := self.orderHash
  status := self.status
  commandQuantity := self.commandQuantity
  filledQuantity := self.filledQuantity
  remainingQuantity := self.remainingQuantity
  reason := self.reason

namespace Backtest

/-- Two results say the same in numbers. -/
structure SameEconomics (first second : BacktestResult) : Prop where
  fills : ∀ orderId, (first.fillsOf orderId).map (·.economics) =
    (second.fillsOf orderId).map (·.economics)
  outcomes : first.orderOutcomes.map (·.economics) = second.orderOutcomes.map (·.economics)
  totalFees : first.totalFees.value = second.totalFees.value
  finalCash : first.finalCash.map (fun item => (item.currency, item.amount.value,
    item.quantum.value)) = second.finalCash.map fun item => (item.currency, item.amount.value,
      item.quantum.value)
  finalPositions : first.finalPositions.map (fun item => (item.instrumentId, item.quantity.value,
    item.quantityQuantum.value)) = second.finalPositions.map fun item => (item.instrumentId,
      item.quantity.value, item.quantityQuantum.value)

/-- Two results are bound to the same attempt at the same job. -/
def SameBinding (first second : BacktestResult) : Prop :=
  (first.requestId = second.requestId ∧ first.runId = second.runId ∧ first.jobId = second.jobId ∧
    first.attemptGeneration = second.attemptGeneration ∧
    first.attemptNonce = second.attemptNonce ∧ first.runtime = second.runtime) ∧
  first.jobHash = second.jobHash ∧ first.inputHash = second.inputHash ∧
    first.datasetHash = second.datasetHash ∧ first.calendarHash = second.calendarHash ∧
    first.costModelHash = second.costModelHash

end Backtest

namespace BacktestJob

/-- `orders[id]`. -/
def order? (self : BacktestJob) (id : UUID) : Option BacktestOrder :=
  self.orders.find? (·.orderId = id)

/-- `bars[id]`. -/
def bar? (self : BacktestJob) (id : UUID) : Option BacktestBar :=
  self.dataset.bars.find? (·.barId = id)

end BacktestJob

namespace Backtest

/-! ## The projection -/

/-- `cash` and `positions` of `_validate_projection`. -/
structure Projection where
  cash : Currency → Decimal
  positions : UUID → Decimal

/-- The opening cash and positions. -/
def opening (job : BacktestJob) : Projection where
  cash := fun currency =>
    ((job.initialCash.find? (·.currency = currency)).map (·.amount.value)).getD 0
  positions := fun id =>
    ((job.initialPositions.find? (·.instrumentId = id)).map (·.quantity.value)).getD 0

section

variable [DecimalContext]

/-- A round of `_validate_projection`. -/
def Projection.apply (self : Projection) (fill : FillEconomics) : Call Projection := do
  let notional := round (fill.quantity * fill.price)
  let cash := match fill.side with
    | .buy => round (self.cash fill.feeCurrency - round (notional + fill.fees))
    | .sell => round (self.cash fill.feeCurrency + round (notional - fill.fees))
  let position := match fill.side with
    | .buy => round (self.positions fill.instrumentId + fill.quantity)
    | .sell => round (self.positions fill.instrumentId - fill.quantity)
  raiseUnless (0 ≤ cash ∧ 0 ≤ position) "backtest fill creates negative cash or position"
  return {
    cash := Function.update self.cash fill.feeCurrency cash
    positions := Function.update self.positions fill.instrumentId position }

omit [DecimalContext] in
/-- `orders[id].sequence`. -/
def sequenceOf (job : BacktestJob) (id : UUID) : ℕ :=
  ((job.order? id).map (·.sequence)).getD 0

omit [DecimalContext] in
def projectionKey (job : BacktestJob) (fill : BacktestFill) : UTCDateTime ×ₗ ℕ ×ₗ UUID :=
  toLex (fill.occurredAt, toLex (sequenceOf job fill.orderId, fill.fillId))

omit [DecimalContext] in
/-- The final cash and positions of a result are those of a projection. -/
def ProjectionMatches (result : BacktestResult) (job : BacktestJob) (final : Projection) : Prop :=
  Tabulates (fun item : BacktestCashBalance => item.currency) (fun item => item.amount.value)
      result.finalCash (fun item : BacktestCashBalance => item.currency) job.initialCash
      final.cash ∧
    Tabulates (fun item : BacktestPosition => item.instrumentId) (fun item => item.quantity.value)
      result.finalPositions (fun item : BacktestPosition => item.instrumentId)
      job.initialPositions final.positions

omit [DecimalContext] in
instance (result : BacktestResult) (job : BacktestJob) (final : Projection) :
    Decidable (ProjectionMatches result job final) := inferInstanceAs (Decidable (_ ∧ _))

def validateProjection (result : BacktestResult) (job : BacktestJob) : Call Unit := do
  let orderedFills := sorted (projectionKey job) result.fills
  let final ← (orderedFills.map (·.economics)).foldlM Projection.apply (opening job)
  raiseUnless (ProjectionMatches result job final)
    "backtest final cash or position projection mismatch"
  raiseUnless (∀ instrument ∈ job.dataset.instruments,
    ∃ item ∈ result.finalPositions, item.instrumentId = instrument.instrumentId)
    "backtest final positions must cover the dataset universe"
  raiseUnless (∀ item ∈ result.finalCash, ∀ balance ∈ job.initialCash,
    balance.currency = item.currency → item.quantum.value = balance.quantum)
    "backtest final cash quantum changed"
  raiseUnless (∀ item ∈ result.finalPositions, ∀ instrument ∈ job.dataset.instruments,
    instrument.instrumentId = item.instrumentId →
      item.quantityQuantum.value = instrument.quantityQuantum)
    "backtest final position quantum changed"

/-! ## Fills -/

def fillMatchesInput [Hashing] (fill : BacktestFill) (order : BacktestOrder) (bar : BacktestBar)
    (instrument : BacktestInstrument) (cost : BacktestCostModel) : Call Bool := do
  let expectedPrice ← canonicalFillPrice order bar instrument cost
  let expectedFee := canonicalFillFee fill.quantity fill.price cost
  return decide (bar.tradable = true ∧ fill.orderHash = order.orderHash ∧
    (fill.instrumentId = order.instrumentId ∧ order.instrumentId = bar.instrumentId) ∧
    fill.side = order.side ∧ fill.quantityQuantum.value = instrument.quantityQuantum ∧
    fill.priceQuantum.value = instrument.priceQuantum ∧
    fill.feeCurrency = instrument.currency ∧ fill.feeQuantum.value = cost.feeQuantum ∧
    order.issuedAt < bar.opensAt ∧ bar.opensAt < order.validUntil ∧
    fill.occurredAt = bar.opensAt ∧ fill.quantity.value ≤ order.quantity ∧
    expectedPrice = some fill.price.value ∧
    fill.slippage.value = round (fill.price - bar.open_) ∧ fill.fees.value = expectedFee)

/-- The checks on one fill. -/
def validateFill [Hashing] (job : BacktestJob) (fill : BacktestFill) : Call Unit := do
  match job.order? fill.orderId, job.bar? fill.sourceBarId, job.instrument? fill.instrumentId with
  | some order, some bar, some instrument =>
      let matched ← fillMatchesInput fill order bar instrument job.costModel
      raiseUnless (matched = true) "backtest fill economics or next-bar binding changed"
  | _, _, _ => .raised (.valueError "backtest fill refers to unknown input")

/-- A `defaultdict` of sums. -/
def totals (key : BacktestFill → UUID) (fills : List BacktestFill) : UUID → Decimal :=
  fills.foldl (fun total fill =>
    Function.update total (key fill) (round (total (key fill) + fill.quantity))) fun _ => 0

def validateNextBarSequence (result : BacktestResult) (job : BacktestJob) : Call Unit := do
  let expected ← expectedFillSchedules job
  raiseUnless ((job.orders.map fun order => (order.orderId,
      (result.fillsOf order.orderId).map fun fill => (fill.sourceBarId, fill.quantity.value))) =
    expected) "backtest fills do not match the deterministic schedule"

/-- `_validate_volume_caps`, for the bars that have fills. -/
def validateVolumeCaps (result : BacktestResult) (job : BacktestJob) : Call Unit :=
  result.fills.forM fun fill => do
    let bar ← keyed (job.bar? fill.sourceBarId)
    let instrument ← keyed (job.instrument? bar.instrumentId)
    let cap ← barCapacity bar instrument job.costModel
    raiseUnless (totals (·.sourceBarId) result.fills fill.sourceBarId ≤ cap)
      "backtest fills exceed source bar participation"

def validateFills [Hashing] (result : BacktestResult) (job : BacktestJob) : Call Unit := do
  result.fills.forM (validateFill job)
  raiseUnless (∀ outcome ∈ result.orderOutcomes,
    totals (·.orderId) result.fills outcome.orderId = outcome.filledQuantity)
    "backtest outcome fill quantity mismatch"
  validateNextBarSequence result job
  validateVolumeCaps result job

/-! ## The whole check -/

section

variable [Hashing]

omit [DecimalContext] in
def ResultBindingMatches (result : BacktestResult) (job : BacktestJob) : Prop :=
  (result.requestId = job.requestId ∧ result.runId = job.runId ∧ result.jobId = job.jobId ∧
    result.attemptGeneration = job.attemptGeneration ∧ result.attemptNonce = job.attemptNonce ∧
    result.runtime = job.runtime) ∧
  (result.jobHash = job.jobHash ∧ result.inputHash = job.inputHash ∧
    result.datasetHash = job.dataset.payloadHash ∧
    result.calendarHash = job.dataset.calendar.calendarHash ∧
    result.costModelHash = job.costModel.costModelHash) ∧
  job.requestedAt ≤ result.generatedAt ∧ result.generatedAt ≤ job.deadline

omit [DecimalContext] in
instance (result : BacktestResult) (job : BacktestJob) :
    Decidable (ResultBindingMatches result job) :=
  inferInstanceAs (Decidable (_ ∧ _))

omit [DecimalContext] in
def OutcomeMatchesOrder (outcome : BacktestOrderOutcome) (order : BacktestOrder)
    (asOf : UTCDateTime) : Prop :=
  outcome.orderHash = order.orderHash ∧ outcome.commandQuantity.value = order.quantity ∧
    (outcome.status, outcome.reason) = canonicalOutcomeStatus order outcome.filledQuantity asOf

omit [DecimalContext] in
instance (outcome : BacktestOrderOutcome) (order : BacktestOrder) (asOf : UTCDateTime) :
    Decidable (OutcomeMatchesOrder outcome order asOf) := inferInstanceAs (Decidable (_ ∧ _))

def validateBacktestResult (result : BacktestResult) (job : BacktestJob) : Call Unit := do
  raiseUnless (ResultBindingMatches result job) "backtest result job or attempt binding changed"
  raiseUnless ((∀ outcome ∈ result.orderOutcomes,
      outcome.orderId ∈ job.orders.map (·.orderId)) ∧
    ∀ order ∈ job.orders, order.orderId ∈ result.orderOutcomes.map (·.orderId))
    "backtest result must cover every input order exactly once"
  raiseUnless (∀ order ∈ job.orders, ∀ outcome ∈ result.orderOutcomes,
    outcome.orderId = order.orderId → OutcomeMatchesOrder outcome order job.dataset.asOf)
    "backtest outcome does not match input order"
  validateFills result job
  validateProjection result job

end

end

end Backtest

def BacktestResult.validateAgainst [DecimalContext] [Hashing] (self : BacktestResult)
    (job : BacktestJob) : Call Unit := validateBacktestResult self job

end StonksPaper
