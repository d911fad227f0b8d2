import StonksPaper.Domain.Calendar
import StonksPaper.Domain.Common

/-!
# The event study

`analytics/event_study.py`: the market model is fitted over the estimation window before an event,
and the returns of the event window are compared with what it predicts. The fit is computed in a
context of its own, everything else in the default one.
-/

namespace StonksPaper

open Chain

namespace Analytics

/-! ## Contracts -/

structure AlignedReturn where
  tradingDay : Date
  stockReturn : Decimal
  marketReturn : Decimal
  availableAt : UTCDateTime
  available : tradingDay ≤ dateOf availableAt
deriving DecidableEq

structure EventStudyRequest where
  eventId : UUID
  evidenceId : UUID
  instrumentId : UUID
  filingAvailableAt : UTCDateTime
  eventDay : Date
  asOf : UTCDateTime
  filed : filingAvailableAt ≤ asOf
  timeline : dateOf filingAvailableAt ≤ eventDay ∧ eventDay ≤ dateOf asOf

structure EventStudyPolicy where
  estimationStart : ℤ
  estimationEnd : ℤ
  minimumEstimationObservations : ℕ
  eventWindowEnd : ℕ
  start_bounds : -500 ≤ estimationStart ∧ estimationStart ≤ -2
  end_bounds : -499 ≤ estimationEnd ∧ estimationEnd ≤ -1
  minimum_bounds : 2 ≤ minimumEstimationObservations ∧ minimumEstimationObservations ≤ 500
  window_bounds : 1 ≤ eventWindowEnd ∧ eventWindowEnd ≤ 60
  ordered : estimationStart ≤ estimationEnd

structure MarketModelFit where
  alpha : Decimal
  beta : Decimal
  rSquared : Decimal
  nObservations : ℕ
deriving DecidableEq

structure EventCAR where
  eventId : UUID
  evidenceId : UUID
  instrumentId : UUID
  eventDay : Date
  asOf : UTCDateTime
  marketModel : MarketModelFit
  dailyAbnormalReturns : List Decimal
  car01 : Option Decimal
  car02 : Option Decimal
  car05 : Option Decimal
  car020 : Option Decimal
deriving DecidableEq

/-- The contexts of the fit and of the statistics made of it. -/
structure Precision where
  fit : Context
  statistics : Context

/-- `localcontext()` with 34 digits for the fit; the default context has 28. -/
def defaultPrecision : Precision := ⟨.significant 34, PythonArithmetic.arithmetic.context⟩

def exactPrecision : Precision := ⟨.exact, .exact⟩

/-! ## The study -/

section

variable (context : Context)

/-- `Decimal.normalize`: the value in the context, without trailing zeros. -/
def cleanDecimal (value : Decimal) : Decimal := context.round value

/-- `sum(values, Decimal(0)) / n`. -/
def meanOf (values : List Decimal) : Decimal :=
  context.round (context.sum values / values.length)

/-- `sum((value - mean) ** 2 for value in values)`. -/
def squaresAround (mean : Decimal) (values : List Decimal) : Decimal :=
  context.sum (values.map fun value =>
    context.round (context.round (value - mean) * context.round (value - mean)))

/-- `_require_finite_paired`: the lengths; every decimal is finite. -/
def requirePaired (left right : List Decimal) (minimum : ℕ) : Call Unit :=
  raiseUnless (left.length = right.length ∧ minimum ≤ left.length)
    "return series lengths are invalid"

def fitMarketModel (precision : Precision) (stockReturns marketReturns : List Decimal) :
    Call MarketModelFit := do
  requirePaired stockReturns marketReturns 2
  let context := precision.fit
  let marketMean := meanOf context marketReturns
  let stockMean := meanOf context stockReturns
  let marketVariance := squaresAround context marketMean marketReturns
  let covariance := context.sum (List.zipWith (fun stock market =>
    context.round (context.round (market - marketMean) * context.round (stock - stockMean)))
    stockReturns marketReturns)
  let beta := if marketVariance = 0 then 0 else context.round (covariance / marketVariance)
  let alpha := context.round (stockMean - context.round (beta * marketMean))
  let predictions := marketReturns.map fun value =>
      context.round (alpha + context.round (beta * value))
  let residual := context.sum (List.zipWith (fun actual predicted =>
    context.round (context.round (actual - predicted) * context.round (actual - predicted)))
    stockReturns predictions)
  let total := squaresAround context stockMean stockReturns
  let rSquared := if total = 0 then 0 else context.round (1 - context.round (residual / total))
  let clean := cleanDecimal precision.statistics
  return ⟨clean alpha, clean beta, clean (max 0 (min 1 rSquared)), stockReturns.length⟩

def computeAbnormalReturns (stockReturns marketReturns : List Decimal) (alpha beta : Decimal) :
    Call (List Decimal) := do
  requirePaired stockReturns marketReturns 1
  return List.zipWith (fun stock market => cleanDecimal context
    (context.round (stock - context.round (alpha + context.round (beta * market)))))
    stockReturns marketReturns

def carIfAvailable (values : List Decimal) (end_ : ℕ) : Option Decimal :=
  if end_ < values.length then some (cleanDecimal context (context.sum (values.take (end_ + 1))))
  else none

end

def validatedObservations (request : EventStudyRequest) (observations : List AlignedReturn) :
    Call (List AlignedReturn) := do
  failUnless (observations ≠ []) .dataUnavailable "Aligned returns are unavailable"
  failUnless ((observations.map (·.tradingDay)).Nodup) .conflict
    "Aligned return days are duplicated"
  failUnless (∀ item ∈ observations,
      item.availableAt ≤ request.asOf ∧ item.tradingDay ≤ dateOf request.asOf)
    .conflict "Aligned returns contain future data"
  return sorted (·.tradingDay) observations

/-- `values[start : end + 1]`, from a start that is not negative. -/
def window {α : Type} (values : List α) (start end_ : ℤ) : List α :=
  (values.take (end_ + 1).toNat).drop start.toNat

def analyzeEvent (precision : Precision) (request : EventStudyRequest)
    (observations : List AlignedReturn) (policy : EventStudyPolicy) : Call EventCAR := do
  let aligned ← validatedObservations request observations
  let event ← orFail .invalidInput "Event day is not in aligned returns"
    (aligned.find? (·.tradingDay = request.eventDay))
  let eventIndex : ℤ := aligned.findIdx (·.tradingDay = request.eventDay)
  failUnless (request.filingAvailableAt ≤ event.availableAt) .conflict
    "Event return predates filing availability"
  let start := eventIndex + policy.estimationStart
  let end_ := eventIndex + policy.estimationEnd
  failUnless (0 ≤ start ∧ start ≤ end_) .dataUnavailable "Estimation window is unavailable"
  let estimation := window aligned start end_
  failUnless (policy.minimumEstimationObservations ≤ estimation.length) .dataUnavailable
    "Estimation window is too short"
  let model ← fitMarketModel precision (estimation.map (·.stockReturn))
    (estimation.map (·.marketReturn))
  let eventEnd := min (eventIndex + policy.eventWindowEnd) (aligned.length - 1)
  let eventWindow := window aligned eventIndex eventEnd
  let abnormal ← computeAbnormalReturns precision.statistics (eventWindow.map (·.stockReturn))
    (eventWindow.map (·.marketReturn)) model.alpha model.beta
  let car := carIfAvailable precision.statistics abnormal
  return {
    eventId := request.eventId
    evidenceId := request.evidenceId
    instrumentId := request.instrumentId
    eventDay := request.eventDay
    asOf := request.asOf
    marketModel := model
    dailyAbnormalReturns := abnormal
    car01 := car 1
    car02 := car 2
    car05 := car 5
    car020 := car 20 }

end Analytics

end StonksPaper
