import Mathlib.Data.Prod.Lex
import Mathlib.Data.String.Basic
import StonksPaper.Evaluation.WalkForward

/-!
# Metrics of an evaluation

`costs.py`, `metrics.py`, `calibration.py` and the estimate of `walk_forward.py`. They read the
observations of a dataset alone; the dataset that they are given is a copy whose observations were
replaced, so no validator has seen these.
-/

namespace StonksPaper

open Chain

structure CostScenario where
  multiplier : Decimal
  meanNetReturn : Decimal
  totalCost : Decimal
deriving DecidableEq

structure PerformanceMetrics where
  observationCount : ℕ
  meanGrossReturn : Decimal
  meanNetReturn : Decimal
  meanBenchmarkReturn : Decimal
  netAlpha : Decimal
  maxDrawdown : Decimal
  hitRate : Decimal
  meanTurnover : Decimal
  sharpeRatio : Decimal
deriving DecidableEq

structure CalibrationBucket where
  lowerBound : Decimal
  upperBound : Decimal
  count : ℕ
  meanProbability : Decimal
  observedFrequency : Decimal
deriving DecidableEq

structure CalibrationResult where
  status : ConfidenceCalibration
  brierScore : Decimal
  expectedCalibrationError : Decimal
  buckets : List CalibrationBucket
deriving DecidableEq

namespace Evaluation

variable (observations : List EvaluationObservation) (policy : EvaluationPolicy)

/-! ## Costs -/

/-- `position(value.predicted_return) * value.actual_return`. -/
def grossReturn (value : EvaluationObservation) : Decimal :=
  rounded (position value.predictedReturn * value.actualReturn)

def netReturns (multiplier : Decimal) : List Decimal :=
  let rate := rounded (rounded (rounded (policy.feeBps + policy.slippageBps) * multiplier) / 10000)
  observations.map fun value => rounded (grossReturn value - rounded (value.turnover * rate))

def scenario (multiplier : Decimal) : Call CostScenario := do
  let returns := netReturns observations policy multiplier
  let gross := observations.map grossReturn
  let meanNetReturn ← mean returns >>= quantize
  let totalCost ← quantize (rounded (decimalSum gross - decimalSum returns))
  nonNegativeDecimal totalCost
  return ⟨multiplier, meanNetReturn, totalCost⟩

def evaluateCostSensitivity : Call (List CostScenario) :=
  policy.costMultipliers.mapM (scenario observations policy)

/-! ## Performance -/

/-- A product in the exponents of the context; below them it is rounded to the last place that they
reach. -/
def productOf (x y : Decimal) : Decimal :=
  if Significant.exponent (x * y) < -999999 then
    Quantum.halfEvenTo (x * y) ((10 : Decimal) ^ (-1000026 : ℤ))
  else rounded (x * y)

def InExponents (x : Decimal) : Prop := Significant.exponent x ≤ 999999

instance (x : Decimal) : Decidable (InExponents x) := inferInstanceAs (Decidable (_ ≤ _))

def product (x y : Decimal) : Call Decimal := do
  Attempt.require (InExponents (productOf x y)) (.decimalException "Overflow")
  return productOf x y

/-- The variables of the loop of `_max_drawdown`. -/
structure Drawdown where
  equity : Decimal
  peak : Decimal
  drawdown : Decimal

/-- A round of the loop of `_max_drawdown`. -/
def Drawdown.after (self : Drawdown) (value : Decimal) : Call Drawdown := do
  let equity ← product self.equity (rounded (1 + value))
  let peak := max self.peak equity
  return ⟨equity, peak, min self.drawdown (rounded (rounded (equity / peak) - 1))⟩

def maxDrawdown (returns : List Decimal) : Call Decimal := do
  let state ← returns.foldlM Drawdown.after ⟨1, 1, 0⟩
  return state.drawdown

def hitRate : Decimal :=
  let hits := (observations.filter fun value => 0 < grossReturn value).length
  rounded (hits / observations.length)

def sharpe (returns : List Decimal) : Call Decimal := do
  let average ← mean returns
  let variance ← mean (returns.map fun value => square (rounded (value - average)))
  if variance = 0 then return 0
  else return rounded (rounded (average / decimalSqrt variance) * decimalSqrt 252)

def calculateMetrics (costMultiplier : Decimal) : Call PerformanceMetrics := do
  let net := netReturns observations policy costMultiplier
  let meanNet ← mean net >>= quantize
  let meanBenchmark ← mean (observations.map (·.benchmarkReturn)) >>= quantize
  atLeast 1 net.length
  let meanGross ← mean (observations.map grossReturn) >>= quantize
  let netAlpha ← quantize (rounded (meanNet - meanBenchmark))
  let drawdown ← maxDrawdown net >>= quantize
  let hitRate ← quantize (hitRate observations)
  unitDecimal hitRate
  let meanTurnover ← mean (observations.map (·.turnover)) >>= quantize
  nonNegativeDecimal meanTurnover
  let sharpeRatio ← sharpe net >>= quantize
  return {
    observationCount := net.length
    meanGrossReturn := meanGross
    meanNetReturn := meanNet
    meanBenchmarkReturn := meanBenchmark
    netAlpha := netAlpha
    maxDrawdown := drawdown
    hitRate := hitRate
    meanTurnover := meanTurnover
    sharpeRatio := sharpeRatio }

/-! ## Calibration -/

/-- `Decimal(1) if value.actual_return > 0 else Decimal(0)`. -/
def actual (value : EvaluationObservation) : Decimal := if 0 < value.actualReturn then 1 else 0

/-- `quantize(mean(values)) if values else Decimal(0)`. -/
def meanOrZero (values : List Decimal) : Call Decimal :=
  if values = [] then return 0 else mean values >>= quantize

/-- A bucket of `_buckets`. -/
def calibrationBucket (index : ℕ) : Call CalibrationBucket := do
  let count := policy.calibrationBuckets
  let width := rounded (1 / count)
  let members := observations.filter fun value =>
    min ⌊rounded (value.directionProbability * count)⌋.toNat (count - 1) = index
  let lowerBound ← quantize (rounded (width * index))
  let upperBound ← quantize (rounded (width * (index + 1)))
  let meanProbability ← meanOrZero (members.map (·.directionProbability))
  let observedFrequency ← meanOrZero (members.map actual)
  unitDecimal lowerBound
  unitDecimal upperBound
  unitDecimal meanProbability
  unitDecimal observedFrequency
  return ⟨lowerBound, upperBound, members.length, meanProbability, observedFrequency⟩

def evaluateCalibration : Call CalibrationResult := do
  let brier ← mean (observations.map fun value =>
    square (rounded (value.directionProbability - actual value))) >>= quantize
  let buckets ← (List.range policy.calibrationBuckets).mapM (calibrationBucket observations policy)
  let error ← quantize (decimalSum (buckets.map fun bucket =>
    rounded (rounded (bucket.count / observations.length) *
      |rounded (bucket.meanProbability - bucket.observedFrequency)|)))
  unitDecimal brier
  unitDecimal error
  return {
    status := if policy.minimumObservations ≤ observations.length ∧
      brier ≤ policy.maximumBrierScore ∧ error ≤ policy.maximumCalibrationError
      then .calibrated else .uncalibrated
    brierScore := brier
    expectedCalibrationError := error
    buckets := buckets }

/-! ## Overfitting -/

def combinations {α : Type} : List α → ℕ → List (List α)
  | _, 0 => [[]]
  | [], _ + 1 => []
  | x :: xs, k + 1 => (combinations xs k).map (x :: ·) ++ combinations xs (k + 1)

/-- `_groups`: runs of positions. -/
def groupIndices (count groups : ℕ) : List (List ℕ) :=
  (List.range groups).map fun group =>
    List.range' (group * count / groups) ((group + 1) * count / groups - group * count / groups)

/-- `_candidate_mean`; the predictions are aligned with the observations. -/
def candidateMean (candidate : CandidatePredictionSeries) (indices : List ℕ) : Call Decimal :=
  let returns := List.zipWith (fun predicted value =>
    rounded (position predicted * value.actualReturn)) candidate.predictions observations
  mean (indices.filterMap fun index => returns[index]?)

/-- A candidate with the key that it is compared by. -/
def keyed (indices : List ℕ) (candidate : CandidatePredictionSeries) :
    Call ((Decimal ×ₗ String) × CandidatePredictionSeries) := do
  let value ← candidateMean observations candidate indices
  return (toLex (value, candidate.candidateId), candidate)

/-- `max(candidates, key=...)`: the first of the largest. -/
def selectedOf : List ((Decimal ×ₗ String) × CandidatePredictionSeries) →
    Option CandidatePredictionSeries
  | [] => none
  | first :: rest =>
      some (rest.foldl (fun best other => if best.1 < other.1 then other else best) first).2

/-- Whether the candidate that is best in the training groups ranks below the median in the
others. -/
def belowMedian (candidates : List CandidatePredictionSeries) (groupIndices : List (List ℕ))
    (trainGroups : List ℕ) : Call Bool := do
  let trainIndices := trainGroups.flatMap fun group => groupIndices.getD group []
  let testIndices := ((List.range groupIndices.length).filter (· ∉ trainGroups)).flatMap
    fun group => groupIndices.getD group []
  let trained ← candidates.mapM (keyed observations trainIndices)
  let tested ← candidates.mapM (keyed observations testIndices)
  let ranked := (sorted (·.1) tested).map (·.2)
  return decide (∃ selected ∈ selectedOf trained,
    2 * ranked.findIdx (· = selected) < ranked.length)

def estimateProbabilityOfBacktestOverfitting (candidates : List CandidatePredictionSeries)
    (groups : ℕ) : Call (Option Decimal) := do
  if candidates.length < 2 ∨ observations.length < groups * 2 then return none
  else
    raiseUnless ((4 ≤ groups ∧ groups ≤ 8) ∧ groups % 2 = 0)
      "CPCV groups must be an even value between four and eight"
    raiseUnless (∀ value ∈ candidates, value.predictions.length = observations.length)
      "CPCV candidate predictions must align with observations"
    let trials ← (combinations (List.range groups) (groups / 2)).mapM
      (belowMedian observations candidates (groupIndices observations.length groups))
    let estimate ← quantize (rounded ((trials.filter id).length / trials.length))
    return some estimate

variable {observations policy}

/-- There is an estimate exactly when there are enough candidates and observations. -/
theorem estimate_isSome_iff {candidates : List CandidatePredictionSeries} {groups : ℕ}
    {estimate : Option Decimal}
    (h : estimateProbabilityOfBacktestOverfitting observations candidates groups =
      .success estimate) :
    estimate.isSome = true ↔ 2 ≤ candidates.length ∧ 2 * groups ≤ observations.length := by
  unfold estimateProbabilityOfBacktestOverfitting at h
  by_cases hfew : candidates.length < 2 ∨ observations.length < groups * 2
  · rw [if_pos hfew] at h
    obtain rfl := Attempt.success.inj h
    simp only [Option.isSome_none, Bool.false_eq_true, false_iff]
    omega
  · rw [if_neg hfew] at h
    simp only [Attempt.bind_eq_success, Attempt.pure_eq, Attempt.success.injEq] at h
    obtain ⟨_, -, _, -, _, -, value, -, rfl⟩ := h
    simp only [Option.isSome_some, true_iff]
    omega

theorem calibrated_iff {result : CalibrationResult}
    (h : evaluateCalibration observations policy = .success result) :
    result.status = .calibrated ↔ policy.minimumObservations ≤ observations.length ∧
      result.brierScore ≤ policy.maximumBrierScore ∧
      result.expectedCalibrationError ≤ policy.maximumCalibrationError := by
  simp only [evaluateCalibration, Attempt.bind_eq_success, Attempt.pure_eq,
    Attempt.success.injEq] at h
  obtain ⟨_, -, _, -, _, -, _, -, _, -, rfl⟩ := h
  show (if _ then _ else _) = ConfidenceCalibration.calibrated ↔ _
  split
  · simpa
  · rename_i hnot
    simpa using hnot

end Evaluation

end StonksPaper
