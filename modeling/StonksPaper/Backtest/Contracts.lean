import Mathlib.Data.Prod.Lex
import Mathlib.Data.String.Basic
import StonksPaper.Base.Significant
import StonksPaper.Contracts.Decimals
import StonksPaper.Domain.Signal

/-!
# Contracts of a backtest

`backtest.py`: the dataset, the orders and the job, as their validators accept them. Decimals keep
the notation they were parsed from, and compare and compute by their values. The zone of a calendar,
which only checks the dates of its sessions, is a name here.
-/

namespace StonksPaper

open Chain

/-- The contexts that decimals are computed in, without their exponent limits: the default one and
the one of `backtest_math.py`. -/
class DecimalContext where
  round : Decimal → Decimal
  wide : Decimal → Decimal

namespace PythonArithmetic

/-- The contexts of the code: 28 digits, and 128 digits. -/
scoped instance context : DecimalContext := ⟨Significant.round 28, Significant.round 128⟩

end PythonArithmetic

namespace ExactArithmetic

scoped instance context : DecimalContext := ⟨id, id⟩

end ExactArithmetic

export DecimalContext (round wide)

instance : Coe DecimalString Decimal := ⟨DecimalString.value⟩

instance : Dump DecimalString := ⟨fun d => .text (serializeDecimal d)⟩

/-! ## Enumerations -/

inductive BacktestEngineKind where
  | reference
  | nautilus
  | lean
deriving DecidableEq, Repr

inductive BacktestOrderSide where
  | buy
  | sell
deriving DecidableEq, Repr

inductive BacktestOrderType where
  | market
  | limit
deriving DecidableEq, Repr

inductive BacktestTimeInForce where
  | day
  | gtc
  | ioc
deriving DecidableEq, Repr

inductive BacktestOrderStatus where
  | accepted
  | partiallyFilled
  | filled
  | rejected
  | cancelled
  | expired
deriving DecidableEq, Repr

def BacktestEngineKind.value : BacktestEngineKind → String
  | reference => "reference"
  | nautilus => "nautilus"
  | lean => "lean"

def BacktestOrderSide.value : BacktestOrderSide → String
  | buy => "buy"
  | sell => "sell"

def BacktestOrderType.value : BacktestOrderType → String
  | market => "market"
  | limit => "limit"

def BacktestTimeInForce.value : BacktestTimeInForce → String
  | day => "day"
  | gtc => "gtc"
  | ioc => "ioc"

def BacktestOrderStatus.value : BacktestOrderStatus → String
  | accepted => "accepted"
  | partiallyFilled => "partially_filled"
  | filled => "filled"
  | rejected => "rejected"
  | cancelled => "cancelled"
  | expired => "expired"

instance : Dump BacktestEngineKind := ⟨fun kind => .text kind.value⟩
instance : Dump BacktestOrderSide := ⟨fun side => .text side.value⟩
instance : Dump BacktestOrderType := ⟨fun type => .text type.value⟩
instance : Dump BacktestTimeInForce := ⟨fun force => .text force.value⟩
instance : Dump BacktestOrderStatus := ⟨fun status => .text status.value⟩

/-! ## Market data -/

structure BacktestRuntimeIdentity where
  engine : BacktestEngineKind
  engineVersion : String
  adapterVersion : String
  runtimeHash : Sha256
  imageDigest : Option ArtifactRef
  provenance : engine ≠ .reference → imageDigest ≠ none
deriving DecidableEq

structure BacktestInstrument where
  instrumentId : UUID
  symbol : String
  mic : String
  currency : Currency
  priceQuantum : DecimalString
  quantityQuantum : DecimalString
  quanta_pos : 0 < priceQuantum.value ∧ 0 < quantityQuantum.value
deriving DecidableEq

structure BacktestSession where
  sessionDate : ℤ
  mic : String
  opensAt : UTCDateTime
  closesAt : UTCDateTime
  breakStart : Option UTCDateTime
  breakEnd : Option UTCDateTime
  timeline : opensAt < closesAt
  paired : breakStart = none ↔ breakEnd = none
  inside : ∀ start ∈ breakStart, ∀ stop ∈ breakEnd,
    opensAt < start ∧ start < stop ∧ stop < closesAt
deriving DecidableEq

structure BacktestCalendar where
  calendarId : String
  version : String
  timezone : String
  sessions : List BacktestSession
  counted : 1 ≤ sessions.length ∧ sessions.length ≤ 100000
  ordered : SortedUnique (sessions.map fun item =>
    toLex (item.opensAt, toLex (item.mic, item.sessionDate)))
  apart : ∀ mic ∈ sessions.map (·.mic), (sessions.filter (·.mic = mic)).IsChain
    fun previous current => previous.closesAt ≤ current.opensAt
deriving DecidableEq

structure BacktestBar where
  barId : UUID
  instrumentId : UUID
  opensAt : UTCDateTime
  closesAt : UTCDateTime
  availableAt : UTCDateTime
  open_ : DecimalString
  high : DecimalString
  low : DecimalString
  close : DecimalString
  volume : DecimalString
  sourceRef : String
  sourceHash : Sha256
  tradable : Bool
  timeline : opensAt < closesAt ∧ closesAt ≤ availableAt
  prices_pos : 0 < open_.value ∧ 0 < high.value ∧ 0 < low.value ∧ 0 < close.value
  volume_nonneg : 0 ≤ volume.value
  bounds : (low.value ≤ open_ ∧ open_ ≤ high.value) ∧ low.value ≤ close ∧ close ≤ high.value
deriving DecidableEq

/-! ## The calendar index -/

/-- `bisect_right` on a sorted list. -/
def bisectRight (values : List UTCDateTime) (at_ : UTCDateTime) : ℕ :=
  (values.takeWhile (· ≤ at_)).length

def BacktestCalendar.market (self : BacktestCalendar) (mic : String) : List BacktestSession :=
  self.sessions.filter (·.mic = mic)

def BacktestCalendar.sessionForBar (self : BacktestCalendar) (bar : BacktestBar)
    (instrument : BacktestInstrument) : Option BacktestSession :=
  let sessions := self.market instrument.mic
  match bisectRight (sessions.map (·.opensAt)) bar.opensAt with
  | 0 => none
  | position + 1 => sessions[position]?.filter fun session =>
      session.opensAt ≤ bar.opensAt ∧ bar.opensAt < bar.closesAt ∧ bar.closesAt ≤ session.closesAt

def BarIsValid (bar : BacktestBar) (instruments : List BacktestInstrument)
    (calendar : BacktestCalendar) (asOf : UTCDateTime) : Prop :=
  ∃ instrument ∈ instruments, instrument.instrumentId = bar.instrumentId ∧
    bar.availableAt ≤ asOf ∧
    (∀ price ∈ [bar.open_, bar.high, bar.low, bar.close],
      IsQuantized price.value instrument.priceQuantum) ∧
    IsQuantized bar.volume.value instrument.quantityQuantum ∧
    ∃ session ∈ calendar.sessionForBar bar instrument,
      ∀ start ∈ session.breakStart, ∀ stop ∈ session.breakEnd,
        bar.closesAt ≤ start ∨ stop ≤ bar.opensAt

instance (bar : BacktestBar) (instruments : List BacktestInstrument) (calendar : BacktestCalendar)
    (asOf : UTCDateTime) : Decidable (BarIsValid bar instruments calendar asOf) :=
  inferInstanceAs (Decidable (∃ _ ∈ _, _))

structure BacktestDataset where
  datasetId : UUID
  asOf : UTCDateTime
  interval : String
  instruments : List BacktestInstrument
  calendar : BacktestCalendar
  bars : List BacktestBar
  counted : (1 ≤ instruments.length ∧ instruments.length ≤ 10000) ∧
    1 ≤ bars.length ∧ bars.length ≤ 1000000
  instrumentsOrdered : SortedUnique (instruments.map (·.instrumentId))
  barsOrdered : (bars.map fun item =>
    toLex (item.opensAt, toLex (item.instrumentId, item.barId))).Pairwise (· ≤ ·)
  barsUnique : (bars.map (·.barId)).Nodup
  apart : ∀ id ∈ bars.map (·.instrumentId), (bars.filter (·.instrumentId = id)).IsChain
    fun previous current => previous.closesAt ≤ current.opensAt
  barsValid : ∀ bar ∈ bars, BarIsValid bar instruments calendar asOf
deriving DecidableEq

/-! ## Costs and balances -/

structure BacktestCostModel where
  maxVolumeParticipation : DecimalString
  halfSpreadBps : DecimalString
  baseSlippageBps : DecimalString
  marketImpactBpsAtMaxParticipation : DecimalString
  feeBps : DecimalString
  perUnitFee : DecimalString
  minimumFee : DecimalString
  feeQuantum : DecimalString
  participation : 0 < maxVolumeParticipation.value ∧ maxVolumeParticipation.value ≤ 1
  bps : ∀ bps ∈ [halfSpreadBps, baseSlippageBps, marketImpactBpsAtMaxParticipation, feeBps],
    0 ≤ bps.value ∧ bps.value ≤ 10000
  perUnitFee_nonneg : 0 ≤ perUnitFee.value
  minimumFee_nonneg : 0 ≤ minimumFee.value
  feeQuantum_pos : 0 < feeQuantum.value
  minimumFee_quantized : IsQuantized minimumFee.value feeQuantum
deriving DecidableEq

structure BacktestCashBalance where
  currency : Currency
  amount : DecimalString
  quantum : DecimalString
  amount_nonneg : 0 ≤ amount.value
  quantized : IsQuantized amount.value quantum
deriving DecidableEq

structure BacktestPosition where
  instrumentId : UUID
  quantity : DecimalString
  quantityQuantum : DecimalString
  quantity_nonneg : 0 ≤ quantity.value
  quantized : IsQuantized quantity.value quantityQuantum
deriving DecidableEq

/-! ## Orders -/

structure BacktestOrder where
  orderId : UUID
  sequence : ℕ
  instrumentId : UUID
  side : BacktestOrderSide
  orderType : BacktestOrderType
  quantity : DecimalString
  limitPrice : Option DecimalString
  timeInForce : BacktestTimeInForce
  issuedAt : UTCDateTime
  validUntil : UTCDateTime
  strategyEventRef : String
  quantity_pos : 0 < quantity.value
  limitPrice_pos : ∀ limit ∈ limitPrice, 0 < limit.value
  validity : issuedAt < validUntil
  limited : orderType = .limit ↔ limitPrice ≠ none
deriving DecidableEq

def BacktestCalendar.firstSessionDate (self : BacktestCalendar) (order : BacktestOrder)
    (instrument : BacktestInstrument) : Option ℤ :=
  let sessions := self.market instrument.mic
  match sessions[bisectRight (sessions.map (·.closesAt)) order.issuedAt]? with
  | none => none
  | some session => if order.validUntil ≤ session.opensAt then none else some session.sessionDate

def OrderMatchesInstrument (order : BacktestOrder) (instrument : BacktestInstrument) : Prop :=
  IsQuantized order.quantity.value instrument.quantityQuantum ∧
    ∀ limit ∈ order.limitPrice, IsQuantized limit.value instrument.priceQuantum

instance (order : BacktestOrder) (instrument : BacktestInstrument) :
    Decidable (OrderMatchesInstrument order instrument) := inferInstanceAs (Decidable (_ ∧ _))

/-- A fill whose values match their quanta. -/
structure BacktestFill where
  fillId : UUID
  orderId : UUID
  orderHash : Sha256
  instrumentId : UUID
  side : BacktestOrderSide
  quantity : DecimalString
  quantityQuantum : DecimalString
  price : DecimalString
  priceQuantum : DecimalString
  feeCurrency : Currency
  fees : DecimalString
  feeQuantum : DecimalString
  slippage : DecimalString
  occurredAt : UTCDateTime
  sourceBarId : UUID
  externalRef : Option String
  positive : 0 < quantity.value ∧ 0 < price.value
  fees_nonneg : 0 ≤ fees.value
  quantized : IsQuantized quantity.value quantityQuantum ∧ IsQuantized price.value priceQuantum ∧
    IsQuantized fees.value feeQuantum ∧ IsQuantized slippage.value priceQuantum
deriving DecidableEq

/-! ## Hashes -/

instance : Dump BacktestRuntimeIdentity :=
  ⟨fun r => .record "BacktestRuntimeIdentity"
    [dump r.engine, dump r.engineVersion, dump r.adapterVersion, dump r.runtimeHash,
      dump r.imageDigest]⟩

instance : Dump BacktestInstrument :=
  ⟨fun i => .record "BacktestInstrument"
    [dump i.instrumentId, dump i.symbol, dump i.mic, dump i.currency, dump i.priceQuantum,
      dump i.quantityQuantum]⟩

instance : Dump BacktestSession :=
  ⟨fun s => .record "BacktestSession"
    [dump s.sessionDate, dump s.mic, dump s.opensAt, dump s.closesAt, dump s.breakStart,
      dump s.breakEnd]⟩

instance : Dump BacktestCalendar :=
  ⟨fun c => .record "BacktestCalendar"
    [dump c.calendarId, dump c.version, dump c.timezone, dump c.sessions]⟩

instance : Dump BacktestBar :=
  ⟨fun b => .record "BacktestBar"
    [dump b.barId, dump b.instrumentId, dump b.opensAt, dump b.closesAt, dump b.availableAt,
      dump b.open_, dump b.high, dump b.low, dump b.close, dump b.volume, dump b.sourceRef,
      dump b.sourceHash, dump b.tradable]⟩

instance : Dump BacktestDataset :=
  ⟨fun d => .record "BacktestDataset"
    [dump d.datasetId, dump d.asOf, dump d.interval, dump d.instruments, dump d.calendar,
      dump d.bars]⟩

instance : Dump BacktestCostModel :=
  ⟨fun c => .record "BacktestCostModel"
    [dump c.maxVolumeParticipation, dump c.halfSpreadBps, dump c.baseSlippageBps,
      dump c.marketImpactBpsAtMaxParticipation, dump c.feeBps, dump c.perUnitFee,
      dump c.minimumFee, dump c.feeQuantum]⟩

instance : Dump BacktestCashBalance :=
  ⟨fun b => .record "BacktestCashBalance" [dump b.currency, dump b.amount, dump b.quantum]⟩

instance : Dump BacktestPosition :=
  ⟨fun p => .record "BacktestPosition"
    [dump p.instrumentId, dump p.quantity, dump p.quantityQuantum]⟩

instance : Dump BacktestOrder :=
  ⟨fun o => .record "BacktestOrder"
    [dump o.orderId, dump o.sequence, dump o.instrumentId, dump o.side, dump o.orderType,
      dump o.quantity, dump o.limitPrice, dump o.timeInForce, dump o.issuedAt, dump o.validUntil,
      dump o.strategyEventRef]⟩

section

variable [Hashing]

/-- `order_hash`, which an order binds to its other fields. -/
def BacktestOrder.orderHash (self : BacktestOrder) : Sha256 := stablePayloadHash (dump self)

def BacktestDataset.payloadHash (self : BacktestDataset) : Sha256 := stablePayloadHash (dump self)

def BacktestCalendar.calendarHash (self : BacktestCalendar) : Sha256 :=
  stablePayloadHash (dump self)

def BacktestCostModel.costModelHash (self : BacktestCostModel) : Sha256 :=
  stablePayloadHash (dump self)

end

/-! ## The job -/

/-- A job that its validators have accepted. The references to its artifacts repeat the hashes of
these and are left out. -/
structure BacktestJob where
  requestId : UUID
  runId : UUID
  jobId : UUID
  attemptGeneration : ℕ
  attemptNonce : String
  runtime : BacktestRuntimeIdentity
  strategyContentHash : Sha256
  dataset : BacktestDataset
  costModel : BacktestCostModel
  orders : List BacktestOrder
  baseCurrency : Currency
  initialCash : List BacktestCashBalance
  initialPositions : List BacktestPosition
  requestedAt : UTCDateTime
  deadline : UTCDateTime
  counted : 1 ≤ orders.length ∧ orders.length ≤ 1000000
  timeline : dataset.asOf ≤ requestedAt ∧ requestedAt < deadline
  ordersOrdered : (orders.map fun item =>
    toLex (item.issuedAt, toLex (item.sequence, item.orderId))).Pairwise (· ≤ ·)
  sequences : orders.map (·.sequence) = List.range' 1 orders.length
  ordersUnique : (orders.map (·.orderId)).Nodup
  ordersMatch : ∀ order ∈ orders, ∃ instrument ∈ dataset.instruments,
    instrument.instrumentId = order.instrumentId ∧ OrderMatchesInstrument order instrument
  cash : initialCash.map (·.currency) = [baseCurrency]
  positions : initialPositions.map (·.instrumentId) = dataset.instruments.map (·.instrumentId)
  positionQuanta : ∀ item ∈ initialPositions, ∀ instrument ∈ dataset.instruments,
    instrument.instrumentId = item.instrumentId →
      item.quantityQuantum.value = instrument.quantityQuantum
  currencies : ∀ instrument ∈ dataset.instruments, instrument.currency = baseCurrency
deriving DecidableEq

namespace BacktestJob

/-- `job_hash`: everything but the nonce. -/
def jobHash [Hashing] (self : BacktestJob) : Sha256 :=
  stablePayloadHash <| .record "BacktestJob"
    [dump self.requestId, dump self.runId, dump self.jobId, dump self.attemptGeneration,
      dump self.runtime, dump self.strategyContentHash, dump self.dataset, dump self.costModel,
      dump self.orders, dump self.baseCurrency, dump self.initialCash, dump self.initialPositions,
      dump self.requestedAt, dump self.deadline]

/-- `input_hash`: what the economics depend on. -/
def inputHash [Hashing] (self : BacktestJob) : Sha256 :=
  stablePayloadHash <| .record "BacktestJob"
    [dump self.strategyContentHash, dump self.dataset, dump self.costModel, dump self.orders,
      dump self.baseCurrency, dump self.initialCash, dump self.initialPositions]

end BacktestJob

def BacktestCostModel.adverseBps [DecimalContext] (self : BacktestCostModel) : Decimal :=
  wide (wide (self.halfSpreadBps.value + self.baseSlippageBps) +
    self.marketImpactBpsAtMaxParticipation)

/-- The checks of the validators that compute in the context of 128 digits. -/
structure BacktestJob.Valid [DecimalContext] (job : BacktestJob) : Prop where
  adverse : job.costModel.adverseBps < 10000
  /-- `_sell_price_bounds_are_valid`. -/
  sellBounds : ∀ bar ∈ job.dataset.bars, ∀ instrument ∈ job.dataset.instruments,
    instrument.instrumentId = bar.instrumentId →
    (∃ order ∈ job.orders, order.side = .sell ∧ order.instrumentId = bar.instrumentId) →
    instrument.priceQuantum.value ≤
      wide (bar.open_ * wide (wide (0 + 1) - wide (job.costModel.adverseBps / 10000)))

end StonksPaper
