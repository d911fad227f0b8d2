import StonksPaper.Base.Aligned
import StonksPaper.Evaluation.Metrics

/-!
# The promotion gate

`promotion.py`: one report of nine checks over the observations that some split tests. The check of
overfitting passes when there is no estimate, and the report then shows a probability of zero.
-/

namespace StonksPaper

open Chain

def EvaluationCheckKind.value : EvaluationCheckKind → String
  | baselineComparison => "baseline_comparison"
  | calibration => "calibration"
  | costSensitivity => "cost_sensitivity"
  | drawdown => "drawdown"
  | leakage => "leakage"
  | overfitting => "overfitting"
  | pointInTime => "point_in_time"
  | reproducibility => "reproducibility"
  | survivorship => "survivorship"

namespace Evaluation

/-! ## Inputs -/

section

variable [Hashing]

/-- The conditions of `_validate_binding`. -/
def Bound (request : EvaluationRequest) (dataset : EvaluationDataset)
    (baselines : List CandidatePredictionSeries) (policy : EvaluationPolicy)
    (createdAt : UTCDateTime) : Prop :=
  dataset.datasetSnapshotId = request.datasetSnapshotId ∧ dataset.dataHash = request.dataHash ∧
    dataset.asOf = request.asOf ∧ policy.policyHash = request.evaluationPolicyHash ∧
    request.asOf ≤ createdAt ∧ createdAt ≤ request.deadlineAt ∧
    policy.minimumObservations ≤ dataset.observations.length ∧ baselines ≠ [] ∧
    (baselines.map (·.candidateId)).Nodup ∧
    (∀ value ∈ baselines, value.predictions.length = dataset.observations.length) ∧
    ∀ value ∈ dataset.observations,
      request.windowStart ≤ value.predictionAt ∧ value.predictionAt ≤ request.windowEnd

instance (request : EvaluationRequest) (dataset : EvaluationDataset)
    (baselines : List CandidatePredictionSeries) (policy : EvaluationPolicy)
    (createdAt : UTCDateTime) : Decidable (Bound request dataset baselines policy createdAt) :=
  inferInstanceAs (Decidable (_ ∧ _))

end

def withPredictions (observations : List EvaluationObservation)
    (candidate : CandidatePredictionSeries) : List EvaluationObservation :=
  List.zipWith (fun value predicted => { value with predictedReturn := predicted }) observations
    candidate.predictions

def selectedIndices (dataset : EvaluationDataset) (splits : List WalkForwardSplit) : List ℕ :=
  let selectedIds := splits.flatMap (·.testObservationIds)
  (List.range dataset.observations.length).filter fun index =>
    ∃ value ∈ dataset.observations[index]?, value.observationId ∈ selectedIds

/-- `_out_of_sample`: the observations that some split tests. -/
def outOfSample (dataset : EvaluationDataset) (splits : List WalkForwardSplit) :
    List EvaluationObservation :=
  (selectedIndices dataset splits).filterMap fun index => dataset.observations[index]?

/-- `_out_of_sample`: the predictions of a baseline for them. -/
def outOfSampleBaseline (dataset : EvaluationDataset) (splits : List WalkForwardSplit)
    (value : CandidatePredictionSeries) : CandidatePredictionSeries :=
  { value with predictions := (selectedIndices dataset splits).filterMap fun index =>
      value.predictions[index]? }

/-- The strategy itself, as a candidate. -/
def primaryCandidate (manifest : StrategyManifest) (observations : List EvaluationObservation) :
    CandidatePredictionSeries where
  candidateId := manifest.strategyId ++ "/" ++ manifest.strategyVersion
  predictions := observations.map (·.predictedReturn)

/-! ## Checks -/

/-- `max(values)`. -/
def maxOf : List Decimal → Call Decimal
  | [] => .raised (.valueError "max() iterable argument is empty")
  | first :: rest => return rest.foldl max first

/-- `min(values)`. -/
def minOf : List Decimal → Call Decimal
  | [] => .raised (.valueError "min() iterable argument is empty")
  | first :: rest => return rest.foldl min first

/-- `results` of `_checks`. -/
structure CheckResults where
  baselinePassed : Bool
  costPassed : Bool
  riskPassed : Bool
  calibrationPassed : Bool
  pboPassed : Bool

def CheckResults.result (self : CheckResults) : EvaluationCheckKind → Bool
  | .pointInTime => true
  | .leakage => true
  | .survivorship => true
  | .reproducibility => true
  | .baselineComparison => self.baselinePassed
  | .costSensitivity => self.costPassed
  | .drawdown => self.riskPassed
  | .calibration => self.calibrationPassed
  | .overfitting => self.pboPassed

/-- The check of a kind. -/
def checkOf (kind : EvaluationCheckKind) (passed : Bool) : EvaluationCheck where
  kind := kind
  status := if passed then .passed else .failed
  reasonCodes := if passed then [] else [kind.value ++ "_failed"]
  detailsArtifactRef := none

/-- `_checks`; the report sorts them by the values of their kinds. -/
def checks (target : PerformanceMetrics) (baselines : List (String × PerformanceMetrics))
    (calibration : ConfidenceCalibration) (costs : List CostScenario) (pbo : Option Decimal)
    (policy : EvaluationPolicy) : Call (List EvaluationCheck) := do
  let best ← maxOf (baselines.map (·.2.netAlpha))
  let worstCost ← minOf (costs.map (·.meanNetReturn))
  let results : CheckResults := {
    baselinePassed := best < target.netAlpha
    costPassed := policy.minimumNetAlpha ≤ rounded (worstCost - target.meanBenchmarkReturn)
    riskPassed := |target.maxDrawdown| ≤ policy.maximumDrawdown
    calibrationPassed := calibration = .calibrated
    pboPassed := ∀ value ∈ pbo, value ≤ policy.maxPbo }
  return EvaluationCheckKind.all.map fun kind => checkOf kind (results.result kind)

/-! ## Metrics -/

def performanceMetrics (value : PerformanceMetrics) (segment : String) : List EvaluationMetric :=
  [⟨"mean_net_return", value.meanNetReturn, "return", segment⟩,
    ⟨"net_alpha", value.netAlpha, "return", segment⟩,
    ⟨"max_drawdown", value.maxDrawdown, "return", segment⟩,
    ⟨"hit_rate", value.hitRate, "ratio", segment⟩,
    ⟨"turnover", value.meanTurnover, "ratio", segment⟩,
    ⟨"sharpe", value.sharpeRatio, "ratio", segment⟩]

/-- `identifier.replace("/", "-")`. -/
def segmentOf (identifier : String) : String :=
  String.ofList (identifier.toList.map fun c => if c = '/' then '-' else c)

def metrics (target : PerformanceMetrics) (baselines : List (String × PerformanceMetrics))
    (calibration : CalibrationResult) (pbo : Option Decimal) (splitCount : ℕ) :
    List EvaluationMetric :=
  performanceMetrics target "candidate" ++
    baselines.flatMap (fun baseline => performanceMetrics baseline.2 (segmentOf baseline.1)) ++
    [⟨"brier_score", calibration.brierScore, "ratio", "overall"⟩,
      ⟨"calibration_error", calibration.expectedCalibrationError, "ratio", "overall"⟩,
      ⟨"walk_forward_splits", splitCount, "count", "overall"⟩,
      ⟨"out_of_sample_observations", target.observationCount, "count", "overall"⟩,
      ⟨"pbo", pbo.getD 0, "ratio", "overall"⟩]

def validateMetric (metric : EvaluationMetric) : Call Unit := do
  checkCode metric.name
  checkCode metric.segment

/-! ## The report -/

/-- `timedelta(days=days)`. -/
def daysOf (days : ℕ) : ℤ := days * 86400000000

variable [Hashing]

def evaluateForPromotion (request : EvaluationRequest) (dataset : EvaluationDataset)
    (baselines : List CandidatePredictionSeries) (policy : EvaluationPolicy) (reportId : UUID)
    (reportArtifactRef : ArtifactRef) (createdAt : UTCDateTime) : Call EvaluationReport := do
  failUnless (Bound request dataset baselines policy createdAt) .invalidInput
    "Evaluation inputs do not match immutable request binding"
  let _ ← auditDataset dataset
  let splits ← buildPurgedWalkForwardSplits dataset policy
  let observations := outOfSample dataset splits
  let candidates := baselines.map (outOfSampleBaseline dataset splits)
  failUnless (policy.minimumObservations ≤ observations.length) .invalidInput
    "Walk-forward out-of-sample observations are insufficient"
  let target ← calculateMetrics observations policy 1
  let baselineMetrics ← candidates.mapM fun value => do
    let metrics ← calculateMetrics (withPredictions observations value) policy 1
    return (value.candidateId, metrics)
  let calibration ← evaluateCalibration observations policy
  let costs ← evaluateCostSensitivity observations policy
  let primary := primaryCandidate request.manifest observations
  primary.validate
  let pbo ← estimateProbabilityOfBacktestOverfitting observations (candidates ++ [primary])
    policy.cpcvGroups
  let checks ← checks target baselineMetrics calibration.status costs pbo policy
  let metrics := metrics target baselineMetrics calibration pbo splits.length
  metrics.forM validateMetric
  Attempt.require (createdAt + daysOf policy.reportValidDays ≤ datetimeMax)
    (.overflowError "date value out of range")
  let report : EvaluationReport := {
    reportId := reportId
    strategyId := request.manifest.strategyId
    strategyVersion := request.manifest.strategyVersion
    strategyManifestHash := request.manifest.manifestHash
    datasetSnapshotId := request.datasetSnapshotId
    dataHash := request.dataHash
    runtimeHash := request.manifest.runtimeHash
    evaluationPolicyHash := policy.policyHash
    asOf := request.asOf
    windowStart := request.windowStart
    windowEnd := request.windowEnd
    checks := checks
    metrics := sorted (fun metric => toLex (metric.name, metric.segment)) metrics
    calibration := calibration.status
    baselineIds := sorted id (candidates.map (·.candidateId))
    reportArtifactRef := reportArtifactRef
    validUntil := createdAt + daysOf policy.reportValidDays
    createdAt := createdAt
    passed := checks.all fun check => check.status = .passed }
  report.validate
  return report

/-! ## What is tested -/

/-- The observations that some split tests. -/
def testObservations (dataset : EvaluationDataset) (splits : List WalkForwardSplit) :
    List EvaluationObservation :=
  dataset.observations.filter fun value =>
    ∃ split ∈ splits, value.observationId ∈ split.testObservationIds

def testStart (policy : EvaluationPolicy) (k : ℕ) : ℕ :=
  policy.trainSize + gap policy + k * policy.stepSize

/-- How many positions lie in some test window that fits into the dataset. -/
def testedCount (dataset : EvaluationDataset) (policy : EvaluationPolicy) : ℕ :=
  ((List.range dataset.observations.length).filter fun i =>
    ∃ k < dataset.observations.length,
      testStart policy k + policy.testSize ≤ dataset.observations.length ∧
        testStart policy k ≤ i ∧ i < testStart policy k + policy.testSize).length

section

variable {dataset : EvaluationDataset} {policy : EvaluationPolicy}
  {splits : List WalkForwardSplit}

omit [Hashing] in
/-- Positions that are selected by their elements. -/
theorem filterMap_getElem? {α : Type} (p : α → Bool) (xs : List α) :
    ((List.range xs.length).filter fun i => xs[i]?.any p).filterMap (fun i => xs[i]?) =
      xs.filter p := by
  induction xs with
  | nil => rfl
  | cons x xs ih =>
      rw [List.length_cons, List.range_succ_eq_map, List.filter_cons, List.filter_cons,
        List.filter_map, List.getElem?_cons_zero, Option.any_some]
      have hrest : (((List.range xs.length).filter
          ((fun i => (x :: xs)[i]?.any p) ∘ Nat.succ)).map Nat.succ).filterMap
            (fun i => (x :: xs)[i]?) = xs.filter p := by
        rw [List.filterMap_map, ← ih]
        rfl
      cases hx : p x with
      | true => simp only [if_true, List.filterMap_cons, List.getElem?_cons_zero, hrest]
      | false => simp only [Bool.false_eq_true, if_false, hrest]

omit [Hashing] in
theorem selectedIndices_eq : selectedIndices dataset splits =
    (List.range dataset.observations.length).filter fun i =>
      dataset.observations[i]?.any fun value =>
        decide (∃ split ∈ splits, value.observationId ∈ split.testObservationIds) := by
  refine List.filter_congr fun i _ => ?_
  cases dataset.observations[i]? with
  | none => simp
  | some value => simp

omit [Hashing] in
theorem outOfSample_eq : outOfSample dataset splits = testObservations dataset splits := by
  rw [outOfSample, selectedIndices_eq, filterMap_getElem?]
  rfl

omit [Hashing] in
/-- A position is tested exactly when a test window lies over it. -/
theorem tested_iff (h : buildPurgedWalkForwardSplits dataset policy = .success splits) {i : ℕ}
    {value : EvaluationObservation} (hi : dataset.observations[i]? = some value) :
    (∃ split ∈ splits, value.observationId ∈ split.testObservationIds) ↔
      ∃ k < dataset.observations.length,
        testStart policy k + policy.testSize ≤ dataset.observations.length ∧
          testStart policy k ≤ i ∧ i < testStart policy k + policy.testSize := by
  obtain ⟨-, rfl⟩ := buildPurgedWalkForwardSplits_eq_success.mp h
  have hvalue := List.mem_of_getElem? hi
  have hnodup : dataset.observations.Nodup := List.Nodup.of_map _ dataset.unique
  have hwindow : ∀ start stop, value.observationId ∈
      (slice dataset.observations start stop).map (·.observationId) ↔ start ≤ i ∧ i < stop := by
    intro start stop
    rw [mem_slice_of_id hvalue, mem_slice]
    constructor
    · rintro ⟨j, hstart, hstop, hj⟩
      obtain rfl : j = i := (List.getElem?_inj (List.getElem?_eq_some_iff.mp hj).1 hnodup).mp
        (hj.trans hi.symm)
      exact ⟨hstart, hstop⟩
    · rintro ⟨hstart, hstop⟩
      exact ⟨i, hstart, hstop, hi⟩
  constructor
  · rintro ⟨split, hsplit, hid⟩
    obtain ⟨k, hfits, rfl⟩ := (mem_splitsFrom (by omega)).mp hsplit
    have hk : k ≤ k * policy.stepSize := Nat.le_mul_of_pos_right _ policy.sizes.2.2.2.1
    have htest := policy.sizes.2.2.1.1
    exact ⟨k, by omega, hfits, (hwindow _ _).mp hid⟩
  · rintro ⟨k, -, hfits, hinside⟩
    exact ⟨_, (mem_splitsFrom (by omega)).mpr ⟨k, hfits, rfl⟩, (hwindow _ _).mpr hinside⟩

omit [Hashing] in
theorem length_testObservations
    (h : buildPurgedWalkForwardSplits dataset policy = .success splits) :
    (testObservations dataset splits).length = testedCount dataset policy := by
  have hindices : selectedIndices dataset splits =
      (List.range dataset.observations.length).filter fun i =>
        ∃ k < dataset.observations.length,
          testStart policy k + policy.testSize ≤ dataset.observations.length ∧
            testStart policy k ≤ i ∧ i < testStart policy k + policy.testSize := by
    rw [selectedIndices_eq]
    refine List.filter_congr fun i hi => ?_
    have hvalue := List.getElem?_eq_getElem (List.mem_range.mp hi)
    rw [hvalue, Option.any_some, decide_eq_decide]
    exact tested_iff h hvalue
  have hall : ∀ i ∈ selectedIndices dataset splits, (dataset.observations[i]?).isSome = true := by
    intro i hi
    rw [List.getElem?_eq_getElem (List.mem_range.mp (List.mem_filter.mp hi).1)]
    rfl
  rw [← outOfSample_eq, outOfSample, List.filterMap_length_eq_length.mpr hall, hindices,
    testedCount]

end

/-! ## The evidence of a passed report -/

omit [Hashing] in
theorem foldl_max_lt_iff {values : List Decimal} {first bound : Decimal} :
    values.foldl max first < bound ↔ ∀ value ∈ first :: values, value < bound := by
  induction values generalizing first with
  | nil => simp
  | cons value values ih => simp [ih, and_assoc]

omit [Hashing] in
theorem le_foldl_min_iff {values : List Decimal} {first bound : Decimal} :
    bound ≤ values.foldl min first ↔ ∀ value ∈ first :: values, bound ≤ value := by
  induction values generalizing first with
  | nil => simp
  | cons value values ih => simp [ih, and_assoc]

omit [Hashing] in
theorem maxOf_lt_iff {values : List Decimal} {best : Decimal} (bound : Decimal)
    (h : maxOf values = .success best) : best < bound ↔ ∀ value ∈ values, value < bound := by
  cases values with
  | nil => cases h
  | cons first rest =>
      obtain rfl := Attempt.success.inj h
      exact foldl_max_lt_iff

omit [Hashing] in
theorem minOf_le {values : List Decimal} {worst value : Decimal}
    (h : minOf values = .success worst) (hvalue : value ∈ values) : worst ≤ value := by
  cases values with
  | nil => cases h
  | cons first rest =>
      obtain rfl := Attempt.success.inj h
      exact le_foldl_min_iff.mp le_rfl value hvalue

omit [Hashing] in
@[simp] theorem status_checkOf {kind : EvaluationCheckKind} {passed : Bool} :
    (checkOf kind passed).status = .passed ↔ passed = true := by
  cases passed <;> simp [checkOf]

omit [Hashing] in
/-- All checks pass exactly when each comparison holds; an estimate that is missing compares. -/
theorem checks_passed_iff {target : PerformanceMetrics}
    {baselines : List (String × PerformanceMetrics)} {calibration : ConfidenceCalibration}
    {costs : List CostScenario} {pbo : Option Decimal} {policy : EvaluationPolicy}
    {results : List EvaluationCheck}
    (h : checks target baselines calibration costs pbo policy = .success results) :
    (results.all fun check => check.status = .passed) = true ↔
      (∀ baseline ∈ baselines, baseline.2.netAlpha < target.netAlpha) ∧
      (∃ worst, minOf (costs.map (·.meanNetReturn)) = .success worst ∧
        policy.minimumNetAlpha ≤ rounded (worst - target.meanBenchmarkReturn)) ∧
      |target.maxDrawdown| ≤ policy.maximumDrawdown ∧ calibration = .calibrated ∧
      ∀ value ∈ pbo, value ≤ policy.maxPbo := by
  simp only [checks, Attempt.bind_eq_success, Attempt.pure_eq, Attempt.success.injEq] at h
  obtain ⟨best, hbest, worst, hworst, rfl⟩ := h
  have hbaselines := maxOf_lt_iff target.netAlpha hbest
  simp only [EvaluationCheckKind.all, List.map_cons, List.map_nil, List.all_cons, List.all_nil,
    CheckResults.result, Bool.and_eq_true, decide_eq_true_eq, status_checkOf, hworst, hbaselines,
    List.forall_mem_map, Attempt.success.injEq, exists_eq_left']
  tauto

/-- What a report stands on, computed on the observations that the splits test. -/
structure Evidence (request : EvaluationRequest) (dataset : EvaluationDataset)
    (baselines : List CandidatePredictionSeries) (policy : EvaluationPolicy)
    (splits : List WalkForwardSplit) (target : PerformanceMetrics)
    (calibration : CalibrationResult) (costs : List CostScenario) (pbo : Option Decimal) :
    Prop where
  split : buildPurgedWalkForwardSplits dataset policy = .success splits
  measured : calculateMetrics (testObservations dataset splits) policy 1 = .success target
  calibrated : evaluateCalibration (testObservations dataset splits) policy = .success calibration
  costed : evaluateCostSensitivity (testObservations dataset splits) policy = .success costs
  estimated : estimateProbabilityOfBacktestOverfitting (testObservations dataset splits)
    (baselines.map (outOfSampleBaseline dataset splits) ++
      [primaryCandidate request.manifest (testObservations dataset splits)]) policy.cpcvGroups =
    .success pbo

/-- The evidence backs a passed report: every limit of the policy is met on at least the minimum of
tested observations, and the report shows the probability of overfitting that was estimated. -/
structure Backs (dataset : EvaluationDataset) (baselines : List CandidatePredictionSeries)
    (policy : EvaluationPolicy) (splits : List WalkForwardSplit) (target : PerformanceMetrics)
    (calibration : CalibrationResult) (costs : List CostScenario) (pbo : Option Decimal)
    (report : EvaluationReport) : Prop where
  counted : policy.minimumObservations ≤ (testObservations dataset splits).length
  beaten : ∀ value ∈ baselines, ∃ baseline,
    calculateMetrics (withPredictions (testObservations dataset splits)
      (outOfSampleBaseline dataset splits value)) policy 1 = .success baseline ∧
    baseline.netAlpha < target.netAlpha
  profitable : ∀ multiplier ∈ policy.costMultipliers, ∃ cost ∈ costs,
    scenario (testObservations dataset splits) policy multiplier = .success cost ∧
    policy.minimumNetAlpha ≤ rounded (cost.meanNetReturn - target.meanBenchmarkReturn)
  drawdown : |target.maxDrawdown| ≤ policy.maximumDrawdown
  brier : calibration.brierScore ≤ policy.maximumBrierScore
  error : calibration.expectedCalibrationError ≤ policy.maximumCalibrationError
  overfitting : ∃ estimate, pbo = some estimate ∧ estimate ≤ policy.maxPbo ∧
    ⟨"pbo", estimate, "ratio", "overall"⟩ ∈ report.metrics ∧
    ∀ metric ∈ report.metrics, metric.name = "pbo" → metric.value = estimate

/-- A report is backed when some evidence for it exists and backs it. -/
def Backed (request : EvaluationRequest) (dataset : EvaluationDataset)
    (baselines : List CandidatePredictionSeries) (policy : EvaluationPolicy)
    (report : EvaluationReport) : Prop :=
  ∃ splits target calibration costs pbo,
    Evidence request dataset baselines policy splits target calibration costs pbo ∧
      Backs dataset baselines policy splits target calibration costs pbo report

section

variable {request : EvaluationRequest} {dataset : EvaluationDataset}
  {baselines : List CandidatePredictionSeries} {policy : EvaluationPolicy} {reportId : UUID}
  {reportArtifactRef : ArtifactRef} {createdAt : UTCDateTime} {report : EvaluationReport}

omit [Hashing] in
/-- A metric of the whole run is the only one of its name. -/
theorem value_eq_of_name {target : PerformanceMetrics}
    {results : List (String × PerformanceMetrics)} {calibration : CalibrationResult}
    {pbo : Option Decimal} {count : ℕ} {metric other : EvaluationMetric}
    (h : metric ∈ metrics target results calibration pbo count)
    (hother : other ∈ metrics target results calibration pbo count)
    (hname : metric.name = other.name)
    (hoverall : ∀ value segment, ∀ m ∈ performanceMetrics value segment, m.name ≠ other.name) :
    metric.value = other.value := by
  have hperformance : ∀ m : EvaluationMetric, m.name = other.name →
      ∀ value segment, m ∉ performanceMetrics value segment :=
    fun m hm value segment hmem => hoverall value segment m hmem hm
  simp only [metrics, List.mem_append, List.mem_flatMap, hperformance _ hname, hperformance _ rfl,
    and_false, exists_false, false_or] at h hother
  exact congrArg EvaluationMetric.value
    (List.inj_on_of_nodup_map (f := EvaluationMetric.name) (by simp) h hother hname)

/-- A report that is returned has evidence, and it has passed exactly when the comparisons of its
checks hold. -/
theorem evidence_of_success (h : evaluateForPromotion request dataset baselines policy reportId
    reportArtifactRef createdAt = .success report) :
    ∃ splits target calibration costs pbo, ∃ results : List (String × PerformanceMetrics),
      Evidence request dataset baselines policy splits target calibration costs pbo ∧
      baselines ≠ [] ∧ policy.minimumObservations ≤ (testObservations dataset splits).length ∧
      List.Forall₂ (fun value result => calculateMetrics (withPredictions
        (testObservations dataset splits) (outOfSampleBaseline dataset splits value)) policy 1 =
          .success result.2) baselines results ∧
      (report.passed = true ↔
        (∀ baseline ∈ results, baseline.2.netAlpha < target.netAlpha) ∧
        (∃ worst, minOf (costs.map (·.meanNetReturn)) = .success worst ∧
          policy.minimumNetAlpha ≤ rounded (worst - target.meanBenchmarkReturn)) ∧
        |target.maxDrawdown| ≤ policy.maximumDrawdown ∧ calibration.status = .calibrated ∧
        ∀ value ∈ pbo, value ≤ policy.maxPbo) ∧
      ⟨"pbo", pbo.getD 0, "ratio", "overall"⟩ ∈ report.metrics ∧
      ∀ metric ∈ report.metrics, metric.name = "pbo" → metric.value = pbo.getD 0 := by
  simp only [evaluateForPromotion, outOfSample_eq, Attempt.bind_eq_success, Attempt.pure_eq,
    Attempt.success.injEq, failUnless, Attempt.demand_eq_success] at h
  obtain ⟨-, hbound, -, -, splits, hsplits, -, hcount, target, htarget, results, hresults,
    calibration, hcalibration, costs, hcosts, -, -, pbo, hpbo, checked, hchecked, -, -, -, -,
    -, -, rfl⟩ := h
  refine ⟨splits, target, calibration, costs, pbo, results,
    ⟨hsplits, htarget, hcalibration, hcosts, hpbo⟩, hbound.2.2.2.2.2.2.2.1, hcount, ?_,
    checks_passed_iff hchecked, mem_sorted.mpr (by simp [metrics]), ?_⟩
  · rw [Attempt.mapM_eq_success, List.forall₂_map_left_iff] at hresults
    refine hresults.imp fun value result hresult => ?_
    simp only [Attempt.bind_eq_success, Attempt.success.injEq] at hresult
    obtain ⟨measured, hmeasured, rfl⟩ := hresult
    exact hmeasured
  · intro metric hmetric hname
    have hpbo : (⟨"pbo", pbo.getD 0, "ratio", "overall"⟩ : EvaluationMetric) ∈
        metrics target results
        calibration pbo splits.length := by simp [metrics]
    exact value_eq_of_name (mem_sorted.mp hmetric) hpbo hname (by simp [performanceMetrics])

omit [Hashing] in
theorem testedCount_of_backed (h : Backed request dataset baselines policy report) :
    2 * policy.cpcvGroups ≤ testedCount dataset policy := by
  obtain ⟨splits, target, calibration, costs, pbo, hevidence, hbacks⟩ := h
  obtain ⟨estimate, rfl, -⟩ := hbacks.overfitting
  have henough := (estimate_isSome_iff hevidence.estimated).mp rfl
  rw [← length_testObservations hevidence.split]
  exact henough.2

/-- A passed report is backed exactly when the test windows cover two observations for each group
of the estimate. -/
theorem passed_backed_iff (h : evaluateForPromotion request dataset baselines policy reportId
    reportArtifactRef createdAt = .success report) (hpassed : report.passed = true) :
    Backed request dataset baselines policy report ↔
      2 * policy.cpcvGroups ≤ testedCount dataset policy := by
  constructor
  · exact testedCount_of_backed
  · intro htested
    obtain ⟨splits, target, calibration, costs, pbo, results, hevidence, hbaselines, hcounted,
      hresults, hreport, hpbo, hvalue⟩ := evidence_of_success h
    obtain ⟨hbeaten, ⟨worst, hworst, hprofit⟩, hdrawdown, hcalibrated, hoverfit⟩ :=
      hreport.mp hpassed
    have hlimits := (calibrated_iff hevidence.calibrated).mp hcalibrated
    have hestimate : pbo.isSome = true := by
      refine (estimate_isSome_iff hevidence.estimated).mpr ⟨?_, ?_⟩
      · have hpos := List.length_pos_iff.mpr hbaselines
        rw [List.length_append, List.length_map, List.length_singleton]
        omega
      · rw [length_testObservations hevidence.split]
        exact htested
    obtain ⟨estimate, rfl⟩ := Option.isSome_iff_exists.mp hestimate
    refine ⟨splits, target, calibration, costs, some estimate, hevidence,
      hcounted, ?_, ?_, hdrawdown, hlimits.2.1, hlimits.2.2,
      ⟨estimate, rfl, hoverfit estimate rfl, hpbo, hvalue⟩⟩
    · intro value hvalue
      obtain ⟨result, hresult, hmeasured⟩ := hresults.exists_right hvalue
      exact ⟨result.2, hmeasured, hbeaten result hresult⟩
    · intro multiplier hmultiplier
      obtain ⟨cost, hcost, hscenario⟩ :=
        (Attempt.mapM_eq_success.mp hevidence.costed).exists_right hmultiplier
      have hle := minOf_le hworst (List.mem_map_of_mem hcost)
      have hrounded := rounded_mono (sub_le_sub_right hle target.meanBenchmarkReturn)
      exact ⟨cost, hcost, hscenario, hprofit.trans hrounded⟩

end

end Evaluation

/-! ## A report without an estimate -/

namespace EvaluationScenario

open Evaluation
open scoped CodeHashing

def manifest : StrategyManifest where
  manifestId := 1
  strategyId := "momentum"
  strategyVersion := "1.0.0"
  kind := .deterministic
  sourceArtifactRef := 1
  runtimeHash := 2
  featureSpecHash := 3
  labelSpecHash := 4
  universeSpecHash := 5
  costModelHash := 6
  splitPolicyHash := 7
  parametersHash := 8
  owner := "research"
  deterministic := true
  createdAt := 0

def request : EvaluationRequest where
  requestId := 1
  manifest := manifest
  datasetSnapshotId := 1
  snapshotArtifactRef := 4
  dataHash := 2
  asOf := 100
  windowStart := 0
  windowEnd := 100
  evaluationPolicyHash := policy.policyHash
  requestedAt := 100
  deadlineAt := 200
  timeline := by decide

def flat : CandidatePredictionSeries := ⟨"flat/1.0.0", [0, 0, 0, 0]⟩

def report : EvaluationReport where
  reportId := 1
  strategyId := "momentum"
  strategyVersion := "1.0.0"
  strategyManifestHash := manifest.manifestHash
  datasetSnapshotId := 1
  dataHash := 2
  runtimeHash := 2
  evaluationPolicyHash := policy.policyHash
  asOf := 100
  windowStart := 0
  windowEnd := 100
  checks := EvaluationCheckKind.all.map fun kind => ⟨kind, .passed, [], none⟩
  metrics := [⟨"brier_score", 0, "ratio", "overall"⟩, ⟨"calibration_error", 0, "ratio", "overall"⟩,
    ⟨"hit_rate", 1, "ratio", "candidate"⟩, ⟨"hit_rate", 0, "ratio", "flat-1.0.0"⟩,
    ⟨"max_drawdown", 0, "return", "candidate"⟩, ⟨"max_drawdown", 0, "return", "flat-1.0.0"⟩,
    ⟨"mean_net_return", 1 / 50, "return", "candidate"⟩,
    ⟨"mean_net_return", 0, "return", "flat-1.0.0"⟩, ⟨"net_alpha", 19 / 1000, "return", "candidate"⟩,
    ⟨"net_alpha", -1 / 1000, "return", "flat-1.0.0"⟩,
    ⟨"out_of_sample_observations", 2, "count", "overall"⟩, ⟨"pbo", 0, "ratio", "overall"⟩,
    ⟨"sharpe", 0, "ratio", "candidate"⟩, ⟨"sharpe", 0, "ratio", "flat-1.0.0"⟩,
    ⟨"turnover", 1, "ratio", "candidate"⟩, ⟨"turnover", 1, "ratio", "flat-1.0.0"⟩,
    ⟨"walk_forward_splits", 2, "count", "overall"⟩]
  calibration := .calibrated
  baselineIds := ["flat/1.0.0"]
  reportArtifactRef := 5
  validUntil := 2592000000150
  createdAt := 150
  passed := true

theorem promotion_eq :
    evaluateForPromotion request dataset [flat] policy 1 5 150 = .success report := by
  decide +kernel

theorem passed_backed_iff_flat : Backed request dataset [flat] policy report ↔
    2 * policy.cpcvGroups ≤ testedCount dataset policy :=
  passed_backed_iff promotion_eq rfl

/-- Two observations are tested and eight are needed for an estimate; the report passes. -/
theorem passes_without_estimate :
    evaluateForPromotion request dataset [flat] policy 1 5 150 = .success report ∧
      report.passed = true ∧ ¬ Backed request dataset [flat] policy report := by
  refine ⟨promotion_eq, rfl, fun h => ?_⟩
  have htested := testedCount_of_backed h
  exact absurd htested (by decide +kernel)

end EvaluationScenario

end StonksPaper
