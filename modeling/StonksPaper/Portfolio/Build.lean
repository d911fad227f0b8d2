import StonksPaper.Base.Numeral
import StonksPaper.Domain.Journal
import StonksPaper.Domain.PortfolioConstruction

/-!
# Building a portfolio target

`build_target.py`. The signals of an instrument are combined into a score, the score into a weight,
and the weight into a quantity on the quantum of the instrument. Every calculation runs in a context
of `decimal`; nothing is lost in `Context.exact`.
-/

namespace StonksPaper

open Chain Quantum

/-- `format(value, "f")` of a value whose last place is that of another. A decimal that was read
stands for its shortest notation. -/
def fixed (value last : Decimal) : String :=
  let place := lastPlace last
  String.ofList <| Numeral.positional
    { negative := decide (value < 0)
      coefficient := ⌊|value| / place⌋.toNat
      exponent := Significant.exponent place }

/-- `PortfolioTarget.create`; the hash of the given values is not read. -/
def PortfolioTarget.create [Hashing] (values : PortfolioTarget) : Call PortfolioTarget :=
  modelValidate (·.validate) { values with calculationHash := values.expectedCalculationHash }

namespace Portfolio

/-! ## Rounding -/

def calculationQuantum : Decimal := 1 / 1000000000000

section

variable (context : Context)

/-- The result of `Decimal.quantize` must fit the precision. -/
def quantizeUnits (value quantum : Decimal) : Call ℤ :=
  let units := halfEven (value / quantum)
  if context.Holds units then return units
  else .raised (.decimalException "quantize result has too many digits for current context")

def quantize (value : Decimal) : Call Decimal := do
  let units ← quantizeUnits context value calculationQuantum
  return units * calculationQuantum

def currencyQuantize (value quantum : Decimal) : Call Decimal := do
  let units ← quantizeUnits context (context.round (value / quantum)) 1
  return context.round (units * quantum)

/-! ## One allocation -/

variable (policy : PortfolioPolicy)

/-- `weights[(strategy_id, strategy_version)]`; the weight is configured when it is read. -/
def weightOf (signal : AlphaSignal) : Decimal :=
  (Table.get PortfolioStrategyWeight.key policy.strategyWeights.reverse
    (signal.strategyId, signal.strategyVersion)).elim 0 (·.weight)

def contribution (signal : AlphaSignal) : Decimal :=
  context.round (context.round (weightOf policy signal * signal.value) * signal.confidence)

def ensembleScore (candidates : List PortfolioSignalCandidate) : Call (Decimal × Decimal) := do
  let score ← quantize context
    (context.sum (candidates.map fun c => contribution context policy c.signal))
  let available ← quantize context
    (context.sum (candidates.map fun c => weightOf policy c.signal))
  return (score, available)

/-- `deadband_applied`. -/
def InDeadband (score : Decimal) : Prop := context.round |score| ≤ policy.deadband

instance (score : Decimal) : Decidable (InDeadband context policy score) :=
  inferInstanceAs (Decidable (_ ≤ _))

def desiredWeight (score : Decimal) : Decimal :=
  if InDeadband context policy score then 0 else context.round (score * policy.shrinkage)

def penalizedWeight (score currentWeight : Decimal) : Decimal :=
  context.round (currentWeight + context.round
    (context.round (desiredWeight context policy score - currentWeight) *
      context.round (1 - policy.turnoverPenalty)))

def boundedWeight (penalized : Decimal) : Decimal := min policy.maxPositionWeight (max 0 penalized)

def targetQuantity (bounded nav : Decimal) (mark : PortfolioMark) : Decimal :=
  context.floorTo (context.round (context.round (bounded * nav) / mark.price)) mark.quantityQuantum

def weightAt (quantity nav : Decimal) (mark : PortfolioMark) : Decimal :=
  context.round (context.round (quantity * mark.price) / nav)

/-- `_fixed`. -/
def fixedQuantized (value : Decimal) : Call String := do
  let shown ← quantize context value
  return fixed shown calculationQuantum

def appliedText (applied : Prop) [Decidable applied] : String :=
  if applied then "applied" else "not_applied"

def diagnostics (score available penalized bounded estimatedCost : Decimal) (mark : PortfolioMark) :
    Call (List String) := do
  let availableText ← fixedQuantized context available
  let missingText ← fixedQuantized context (context.round (1 - available))
  let scoreText ← fixedQuantized context score
  return sorted id
    ["deadband:" ++ appliedText (InDeadband context policy score),
      "ensemble_available_weight:" ++ availableText,
      "ensemble_missing_weight:" ++ missingText,
      "ensemble_score:" ++ scoreText,
      "estimated_cost:" ++ fixed estimatedCost policy.currencyQuantum,
      "estimated_cost_bps:" ++ fixed policy.estimatedCostBps policy.estimatedCostBps,
      "mark_price:" ++ fixed mark.price mark.price,
      "position_bound:" ++ appliedText (bounded ≠ penalized),
      "shrinkage:" ++ fixed policy.shrinkage policy.shrinkage,
      "turnover_penalty:" ++ fixed policy.turnoverPenalty policy.turnoverPenalty]

/-- The cost of trading a value. -/
def costOf (notional : Decimal) : Call Decimal :=
  currencyQuantize context
    (context.round (context.round (notional * policy.estimatedCostBps) / 10000))
    policy.currencyQuantum

def notional (delta price : Decimal) : Decimal :=
  context.round (context.round |delta| * price)

/-- `_allocation`, for the signals of the instrument. -/
def allocation (nav : Decimal) (position : Option PositionBalance) (mark : PortfolioMark)
    (candidates : List PortfolioSignalCandidate) : Call TargetAllocation := do
  let currentQuantity := position.elim 0 (·.quantity)
  let (score, available) ← ensembleScore context policy candidates
  let penalized := penalizedWeight context policy score (weightAt context currentQuantity nav mark)
  let bounded := boundedWeight policy penalized
  let targetQuantity := targetQuantity context bounded nav mark
  let targetWeight ← quantize context (weightAt context targetQuantity nav mark)
  let deltaQuantity := context.round (targetQuantity - currentQuantity)
  let estimatedCost ← costOf context policy (notional context deltaQuantity mark.price)
  let constraintDiagnostics ←
    diagnostics context policy score available penalized bounded estimatedCost mark
  modelValidate (·.validateIn context)
    { instrumentId := mark.instrumentId
      currentQuantity, targetQuantity, deltaQuantity
      quantityQuantum := mark.quantityQuantum
      targetWeight, constraintDiagnostics }

end

end Portfolio

/-! ## The inputs -/

namespace BuildTargetCommand

variable (self : BuildTargetCommand)

/-- `marks.get(instrument_id)`; a command with two marks of an instrument is refused. -/
def mark (instrumentId : UUID) : Option PortfolioMark :=
  Table.get PortfolioMark.instrumentId self.marks instrumentId

/-- `position_map.get(instrument_id)`; a snapshot has one position of an instrument at most. -/
def position (instrumentId : UUID) : Option PositionBalance :=
  Table.get PositionBalance.instrumentId self.snapshot.positions instrumentId

def candidates : List PortfolioSignalCandidate :=
  sorted (·.signal.signalId) self.signalCandidates

/-- `instrument_candidates`. -/
def candidatesOf (instrumentId : UUID) : List PortfolioSignalCandidate :=
  self.candidates.filter (·.signal.instrumentId = instrumentId)

def instrumentIds : List UUID :=
  sorted id (self.snapshot.positions.map (·.instrumentId) ++
    self.candidates.map (·.signal.instrumentId)).dedup

def price (instrumentId : UUID) : Decimal := (self.mark instrumentId).elim 0 (·.price)

def settledCash : Decimal :=
  (Table.get CashBalance.currency self.snapshot.cash self.baseCurrency).elim 0 (·.settledAmount)

def netAssetValue (context : Context) : Decimal :=
  context.round (self.settledCash + context.sum (self.snapshot.positions.map fun position =>
    context.round (position.quantity * self.price position.instrumentId)))

end BuildTargetCommand

namespace Portfolio

/-- A failure that names instruments. -/
def naming (code : ErrorCode) (message key : String) (instrumentIds : List UUID) : Failure where
  code := code
  message := message
  details := instrumentIds.map fun instrumentId => (key, uuidText instrumentId)

def currencyError (command : BuildTargetCommand) (policy : PortfolioPolicy) : Call Unit := do
  failUnless (command.snapshot.cash.map (·.currency) = [command.baseCurrency]) .conflict
    "Portfolio baseline requires one base-currency cash balance"
  failUnless (∀ cash ∈ command.snapshot.cash, cash.quantum = policy.currencyQuantum) .conflict
    "Cash and policy currency quantum differ"
  failUnless (∀ mark ∈ command.marks, mark.currency = command.baseCurrency) .conflict
    "Portfolio mark currency differs from base"

/-- A round of the loop of `_candidate_error`. -/
def candidateUsable [Hashing] (at_ : UTCDateTime) (policy : PortfolioPolicy)
    (candidate : PortfolioSignalCandidate) : Call Unit := do
  let signal := candidate.signal
  failUnless (signal.generatedAt ≤ at_ ∧ signal.asOf ≤ at_) .invalidInput
    "Portfolio signal is from the future"
  failUnless (candidate.registry.updatedAt ≤ at_ ∧ candidate.evaluation.createdAt ≤ at_)
    .invalidInput "Portfolio signal eligibility binding is from the future"
  failUnless ((signal.strategyId, signal.strategyVersion) ∈ policy.strategyWeights.map (·.key))
    .configurationInvalid "Portfolio signal has no configured fixed weight"
  match ineligibilityReason signal candidate.registry candidate.evaluation at_ with
  | none => return ()
  | some reason => .failure {
      code := .conflict
      message := "Portfolio signal is not eligible"
      details := [("signal_id", uuidText signal.signalId), ("reason", reason)] }

def candidateError [Hashing] (candidates : List PortfolioSignalCandidate) (at_ : UTCDateTime)
    (policy : PortfolioPolicy) : Call Unit := do
  failUnless ((candidates.map (·.signal.signalId)).Nodup ∧ (candidates.map fun c =>
      (c.signal.instrumentId, c.signal.strategyId, c.signal.strategyVersion)).Nodup) .conflict
    "Portfolio signals contain duplicates"
  candidates.forM (candidateUsable at_ policy)

def positionQuantumError (command : BuildTargetCommand) : Call Unit :=
  command.snapshot.positions.forM fun position =>
    Attempt.demand (∀ mark ∈ command.mark position.instrumentId,
        mark.quantityQuantum = position.quantum)
      (naming .conflict "Position and mark quantity quantum differ" "instrument_id"
        [position.instrumentId])

def validatedInputs [Hashing] (command : BuildTargetCommand) (policy : PortfolioPolicy) :
    Call Unit := do
  currencyError command policy
  failUnless (command.marks.map (·.instrumentId)).Nodup .conflict
    "Portfolio marks contain duplicates"
  failUnless (∀ mark ∈ command.marks, mark.asOf ≤ command.snapshot.asOf) .invalidInput
    "Portfolio mark is from the future"
  candidateError command.candidates command.snapshot.asOf policy
  positionQuantumError command

def portfolioNav (context : Context) (command : BuildTargetCommand) : Call Decimal := do
  let missing := (command.snapshot.positions.map (·.instrumentId)).filter (command.mark · = none)
  Attempt.demand (missing = [])
    (naming .dataUnavailable "A current position mark is unavailable" "instrument_ids" missing)
  let nav := command.netAssetValue context
  failUnless (0 < nav) .dataUnavailable "Portfolio NAV must be positive"
  return nav

/-! ## The target -/

/-- The allocation of an instrument; every instrument has a mark by then. -/
def allocationOf (context : Context) (command : BuildTargetCommand) (policy : PortfolioPolicy)
    (nav : Decimal) (instrumentId : UUID) : Call TargetAllocation := do
  let mark ← orFail .dataUnavailable "A required portfolio mark is unavailable"
    (command.mark instrumentId)
  allocation context policy nav (command.position instrumentId) mark
    (command.candidatesOf instrumentId)

def targetCosts (context : Context) (command : BuildTargetCommand) (policy : PortfolioPolicy)
    (nav : Decimal) (allocations : List TargetAllocation) : Call (Decimal × Decimal) := do
  let traded := context.sum (allocations.map fun a =>
    notional context a.deltaQuantity (command.price a.instrumentId))
  let turnover ← quantize context (context.round (traded / nav))
  let cost ← costOf context policy traded
  return (turnover, cost)

/-- The target of the allocations and their costs, before it has a hash. -/
def targetValues [Hashing] (command : BuildTargetCommand) (policy : PortfolioPolicy)
    (allocations : List TargetAllocation) (turnover cost : Decimal) : PortfolioTarget where
  targetId := command.targetId
  accountId := command.snapshot.accountId
  portfolioSnapshotId := command.snapshot.snapshotId
  accountAggregateSequence := command.snapshot.accountAggregateSequence
  portfolioSequence := command.snapshot.portfolioSequence
  asOf := command.snapshot.asOf
  allocations
  inputSignalIds := sorted id (command.candidates.map (·.signal.signalId))
  policyVersion := policy.policyVersion
  policyHash := policy.policyHash
  expectedTurnover := turnover
  expectedCost := cost
  costCurrency := command.baseCurrency
  calculationHash := 0

def buildTarget [Hashing] (context : Context) (command : BuildTargetCommand)
    (policy : PortfolioPolicy) : Call PortfolioTarget := do
  validatedInputs command policy
  failUnless (command.instrumentIds ≠ []) .dataUnavailable "No portfolio instruments exist"
  let missing := command.instrumentIds.filter (command.mark · = none)
  Attempt.demand (missing = [])
    (naming .dataUnavailable "A required portfolio mark is unavailable" "instrument_ids" missing)
  let nav ← portfolioNav context command
  let allocations ← command.instrumentIds.mapM (allocationOf context command policy nav)
  let (turnover, cost) ← targetCosts context command policy nav allocations
  PortfolioTarget.create (targetValues command policy allocations turnover cost)

end Portfolio

end StonksPaper
