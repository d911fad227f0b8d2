import StonksPaper.Evaluation.Promotion

/-!
# What a promotion is judged by

The gate reads returns, probabilities and turnovers at the positions of the test windows alone. Two
inputs that agree there, and in all other columns everywhere, have one report. A position that lies
in several windows counts once.
-/

namespace StonksPaper

open Chain

/-- The observations agree in every column that is not measured. -/
structure EvaluationObservation.SameCase (o o' : EvaluationObservation) : Prop where
  observationId : o.observationId = o'.observationId
  instrumentId : o.instrumentId = o'.instrumentId
  eventAt : o.eventAt = o'.eventAt
  featureAvailableAt : o.featureAvailableAt = o'.featureAvailableAt
  predictionAt : o.predictionAt = o'.predictionAt
  outcomeAt : o.outcomeAt = o'.outcomeAt
  labelAvailableAt : o.labelAvailableAt = o'.labelAvailableAt
  universeKnownAt : o.universeKnownAt = o'.universeKnownAt
  availabilityCertainty : o.availabilityCertainty = o'.availabilityCertainty
  inHistoricalUniverse : o.inHistoricalUniverse = o'.inHistoricalUniverse

namespace Evaluation

/-- The position lies in a test window that fits into `count` observations. -/
def Tested (policy : EvaluationPolicy) (count i : ℕ) : Prop :=
  ∃ k < count, testStart policy k + policy.testSize ≤ count ∧
    testStart policy k ≤ i ∧ i < testStart policy k + policy.testSize

/-- The series agree at the tested positions. -/
structure SameTests (policy : EvaluationPolicy) (count : ℕ)
    (value value' : CandidatePredictionSeries) : Prop where
  candidateId : value.candidateId = value'.candidateId
  length : value.predictions.length = value'.predictions.length
  tested : ∀ i, Tested policy count i → value.predictions[i]? = value'.predictions[i]?

/-- The inputs differ in measured columns outside of the test windows at most. -/
structure AgreeOutOfSample (policy : EvaluationPolicy) (dataset dataset' : EvaluationDataset)
    (baselines baselines' : List CandidatePredictionSeries) : Prop where
  datasetSnapshotId : dataset.datasetSnapshotId = dataset'.datasetSnapshotId
  dataHash : dataset.dataHash = dataset'.dataHash
  asOf : dataset.asOf = dataset'.asOf
  universeArtifactRef : dataset.universeArtifactRef = dataset'.universeArtifactRef
  cases : List.Forall₂ EvaluationObservation.SameCase dataset.observations dataset'.observations
  tested : ∀ i, Tested policy dataset.observations.length i →
    dataset.observations[i]? = dataset'.observations[i]?
  baselines : List.Forall₂ (SameTests policy dataset.observations.length) baselines baselines'

variable {request : EvaluationRequest} {dataset dataset' : EvaluationDataset}
  {baselines baselines' : List CandidatePredictionSeries} {policy : EvaluationPolicy}
  {splits : List WalkForwardSplit} {createdAt : UTCDateTime}

/-! ## What does not depend on the measured columns -/

theorem failUnless_congr {p q : Prop} [Decidable p] [Decidable q] (h : p ↔ q) (code : ErrorCode)
    (message : String) : failUnless p code message = failUnless q code message := by
  simp only [failUnless, h]

theorem bind_congr_of_success {α β : Type} {x : Call α} {f g : α → Call β}
    (h : ∀ a, x = .success a → f a = g a) : (x >>= f) = (x >>= g) := by
  cases x with
  | success a => exact h a rfl
  | failure error => rfl
  | raised error => rfl

/-! ## Identifiers -/

/-- The splits of a dataset depend on its identifiers alone. -/
theorem splits_eq_of_ids (hids : dataset.observations.map (·.observationId) =
    dataset'.observations.map (·.observationId)) :
    buildPurgedWalkForwardSplits dataset policy = buildPurgedWalkForwardSplits dataset' policy := by
  have hlength := congrArg List.length hids
  rw [List.length_map, List.length_map] at hlength
  have hslice : ∀ start stop, (slice dataset.observations start stop).map (·.observationId) =
      (slice dataset'.observations start stop).map (·.observationId) := by
    intro start stop
    rw [slice, slice, List.map_take, List.map_drop, hids, ← List.map_drop, ← List.map_take]
  have hsplit : ∀ splitId start, splitAt dataset policy splitId start =
      splitAt dataset' policy splitId start := by
    intro splitId start
    simp only [splitAt, hslice]
  have hfrom : ∀ rounds splitId start, splitsFrom dataset policy rounds splitId start =
      splitsFrom dataset' policy rounds splitId start := by
    intro rounds
    induction rounds with
    | zero => exact fun _ _ => rfl
    | succ rounds ih =>
        intro splitId start
        rw [splitsFrom, splitsFrom, hsplit, hlength, ih]
  rw [buildPurgedWalkForwardSplits, buildPurgedWalkForwardSplits, hfrom, hlength]

/-- So does the selection of positions. -/
theorem selectedIndices_eq_of_ids (hids : dataset.observations.map (·.observationId) =
    dataset'.observations.map (·.observationId)) (splits : List WalkForwardSplit) :
    selectedIndices dataset splits = selectedIndices dataset' splits := by
  have hlength := congrArg List.length hids
  rw [List.length_map, List.length_map] at hlength
  have hid : ∀ i : ℕ, dataset.observations[i]?.map (·.observationId) =
      dataset'.observations[i]?.map (·.observationId) := by
    intro i
    rw [← List.getElem?_map, ← List.getElem?_map, hids]
  rw [selectedIndices, selectedIndices, hlength]
  refine List.filter_congr fun i _ => decide_eq_decide.mpr ?_
  have hi := hid i
  cases hvalue : dataset.observations[i]? with
  | none =>
      cases hvalue' : dataset'.observations[i]? with
      | none => rfl
      | some value' =>
          rw [hvalue, hvalue'] at hi
          cases hi
  | some value =>
      cases hvalue' : dataset'.observations[i]? with
      | none =>
          rw [hvalue, hvalue'] at hi
          cases hi
      | some value' =>
          rw [hvalue, hvalue', Option.map_some, Option.map_some, Option.some_inj] at hi
          simp [hi]

theorem tested_of_selected (hsplits : buildPurgedWalkForwardSplits dataset policy = .success splits)
    {i : ℕ} (hi : i ∈ selectedIndices dataset splits) :
    Tested policy dataset.observations.length i := by
  rw [selectedIndices_eq, List.mem_filter] at hi
  have hvalue := List.getElem?_eq_getElem (List.mem_range.mp hi.1)
  rw [hvalue, Option.any_some, decide_eq_true_eq] at hi
  exact (tested_iff hsplits hvalue).mp hi.2

namespace AgreeOutOfSample

variable (h : AgreeOutOfSample policy dataset dataset' baselines baselines')
include h

theorem length_eq : dataset.observations.length = dataset'.observations.length :=
  h.cases.length_eq

theorem ids_eq : dataset.observations.map (·.observationId) =
    dataset'.observations.map (·.observationId) :=
  h.cases.map_eq fun _ _ hcase => hcase.observationId

theorem audit_eq : auditDataset dataset = auditDataset dataset' := by
  have hreason : ∀ observation observation', observation.SameCase observation' →
      contaminationReason observation dataset = contaminationReason observation' dataset' := by
    intro observation observation' hcase
    simp only [contaminationReason, hcase.availabilityCertainty, hcase.predictionAt, hcase.eventAt,
      hcase.featureAvailableAt, hcase.outcomeAt, hcase.labelAvailableAt, hcase.universeKnownAt,
      hcase.inHistoricalUniverse, h.asOf]
  have hfirst : ∀ {xs ys : List EvaluationObservation},
      List.Forall₂ EvaluationObservation.SameCase xs ys →
        xs.findSome? (contaminationReason · dataset) =
          ys.findSome? (contaminationReason · dataset') := by
    intro xs ys hcases
    induction hcases with
    | nil => rfl
    | cons hcase _ ih => rw [List.findSome?_cons, List.findSome?_cons, hreason _ _ hcase, ih]
  rw [auditDataset, auditDataset, hfirst h.cases]

theorem bound_iff [Hashing] : Bound request dataset baselines policy createdAt ↔
    Bound request dataset' baselines' policy createdAt := by
  have hids : baselines.map (·.candidateId) = baselines'.map (·.candidateId) :=
    h.baselines.map_eq fun _ _ hsame => hsame.candidateId
  have haligned : (∀ value ∈ baselines, value.predictions.length = dataset'.observations.length) ↔
      ∀ value ∈ baselines', value.predictions.length = dataset'.observations.length :=
    h.baselines.forall_mem_iff fun _ _ hsame => by rw [hsame.length]
  have hwindow : (∀ value ∈ dataset.observations,
      request.windowStart ≤ value.predictionAt ∧ value.predictionAt ≤ request.windowEnd) ↔
        ∀ value ∈ dataset'.observations,
          request.windowStart ≤ value.predictionAt ∧ value.predictionAt ≤ request.windowEnd :=
    h.cases.forall_mem_iff fun _ _ hcase => by rw [hcase.predictionAt]
  have hsome : baselines ≠ [] ↔ baselines' ≠ [] := by
    rw [← List.length_pos_iff, ← List.length_pos_iff, h.baselines.length_eq]
  simp only [Bound, h.datasetSnapshotId, h.dataHash, h.asOf, h.length_eq, hids, hsome, haligned,
    hwindow]

/-! ## What is selected -/

theorem outOfSample_congr
    (hsplits : buildPurgedWalkForwardSplits dataset policy = .success splits) :
    outOfSample dataset splits = outOfSample dataset' splits := by
  rw [outOfSample, outOfSample, ← selectedIndices_eq_of_ids h.ids_eq]
  exact List.filterMap_congr fun i hi => h.tested i (tested_of_selected hsplits hi)

theorem baselines_congr
    (hsplits : buildPurgedWalkForwardSplits dataset policy = .success splits) :
    baselines.map (outOfSampleBaseline dataset splits) =
      baselines'.map (outOfSampleBaseline dataset' splits) := by
  refine h.baselines.map_eq fun value value' hsame => ?_
  have hpredictions : (selectedIndices dataset splits).filterMap (fun i => value.predictions[i]?) =
      (selectedIndices dataset' splits).filterMap (fun i => value'.predictions[i]?) := by
    rw [← selectedIndices_eq_of_ids h.ids_eq]
    exact List.filterMap_congr fun i hi => hsame.tested i (tested_of_selected hsplits hi)
  simp only [outOfSampleBaseline, hpredictions, hsame.candidateId]

theorem evaluateForPromotion_eq [Hashing] (reportId : UUID) (reportArtifactRef : ArtifactRef) :
    evaluateForPromotion request dataset baselines policy reportId reportArtifactRef createdAt =
      evaluateForPromotion request dataset' baselines' policy reportId reportArtifactRef
        createdAt := by
  have hbound : Bound request dataset baselines policy createdAt ↔
      Bound request dataset' baselines' policy createdAt := h.bound_iff
  simp only [evaluateForPromotion, h.audit_eq, ← splits_eq_of_ids h.ids_eq, failUnless_congr hbound]
  refine bind_congr_of_success fun _ _ => bind_congr_of_success fun _ _ => ?_
  refine bind_congr_of_success fun splits hsplits => ?_
  rw [h.outOfSample_congr hsplits, h.baselines_congr hsplits]

end AgreeOutOfSample

/-! ## What is counted -/

/-- The tested observations are selected, each of them once. -/
structure CountedOnce (policy : EvaluationPolicy) (dataset : EvaluationDataset)
    (selected : List EvaluationObservation) : Prop where
  once : (selected.map (·.observationId)).Nodup
  tested : ∀ i value, dataset.observations[i]? = some value →
    (value ∈ selected ↔ Tested policy dataset.observations.length i)
  count : selected.length = testedCount dataset policy

theorem countedOnce_outOfSample
    (hsplits : buildPurgedWalkForwardSplits dataset policy = .success splits) :
    CountedOnce policy dataset (outOfSample dataset splits) := by
  rw [outOfSample_eq]
  constructor
  · exact dataset.unique.sublist (List.filter_sublist.map _)
  · intro i value hvalue
    rw [testObservations, List.mem_filter, decide_eq_true_eq]
    exact (and_iff_right (List.mem_of_getElem? hvalue)).trans (tested_iff hsplits hvalue)
  · exact length_testObservations hsplits

theorem calculateMetrics_count {observations : List EvaluationObservation} {multiplier : Decimal}
    {result : PerformanceMetrics}
    (h : calculateMetrics observations policy multiplier = .success result) :
    result.observationCount = observations.length := by
  simp only [calculateMetrics, Attempt.bind_eq_success, Attempt.pure_eq, Attempt.success.injEq] at h
  obtain ⟨_, -, _, -, _, -, _, -, _, -, _, -, _, -, _, -, _, -, _, -, _, -, rfl⟩ := h
  simp [netReturns]

theorem reported_count [Hashing] {reportId : UUID} {reportArtifactRef : ArtifactRef}
    {report : EvaluationReport} (h : evaluateForPromotion request dataset baselines policy reportId
      reportArtifactRef createdAt = .success report) {metric : EvaluationMetric}
    (hmetric : metric ∈ report.metrics) (hname : metric.name = "out_of_sample_observations") :
    metric.value = testedCount dataset policy := by
  simp only [evaluateForPromotion, outOfSample_eq, Attempt.bind_eq_success, Attempt.pure_eq,
    Attempt.success.injEq] at h
  obtain ⟨-, -, -, -, splits, hsplits, -, -, target, htarget, results, -, calibration, -, costs, -,
    -, -, pbo, -, checked, -, -, -, -, -, -, -, rfl⟩ := h
  have hcount : (⟨"out_of_sample_observations", target.observationCount, "count", "overall"⟩ :
      EvaluationMetric) ∈ metrics target results calibration pbo splits.length := by simp [metrics]
  rw [value_eq_of_name (mem_sorted.mp hmetric) hcount hname (by simp [performanceMetrics]),
    calculateMetrics_count htarget, length_testObservations hsplits]

/-- The outcome of the gate depends on the measured columns at the tested positions alone, and each
tested observation counts once. -/
theorem evaluateForPromotion_outOfSample [Hashing]
    (h : AgreeOutOfSample policy dataset dataset' baselines baselines') (reportId : UUID)
    (reportArtifactRef : ArtifactRef) :
    evaluateForPromotion request dataset baselines policy reportId reportArtifactRef createdAt =
      evaluateForPromotion request dataset' baselines' policy reportId reportArtifactRef
        createdAt ∧
    (∀ splits, buildPurgedWalkForwardSplits dataset policy = .success splits →
      CountedOnce policy dataset (outOfSample dataset splits)) ∧
    ∀ report, evaluateForPromotion request dataset baselines policy reportId reportArtifactRef
      createdAt = .success report → ∀ metric ∈ report.metrics,
        metric.name = "out_of_sample_observations" →
          metric.value = testedCount dataset policy := by
  refine ⟨h.evaluateForPromotion_eq reportId reportArtifactRef, ?_, ?_⟩
  · exact fun splits hsplits => countedOnce_outOfSample hsplits
  · exact fun report hreport metric hmetric hname => reported_count hreport hmetric hname

end Evaluation

/-! ## Another past -/

namespace EvaluationScenario

open Evaluation
open scoped CodeHashing

/-- The first observation, with other returns, another probability and another turnover. -/
def otherPast : EvaluationObservation :=
  { observation 0 with
    predictedReturn := -1
    actualReturn := 5
    benchmarkReturn := 1 / 2
    directionProbability := 0
    turnover := 0
    realized_ge := by decide +kernel
    probability_unit := by decide +kernel
    turnover_nonneg := by decide +kernel }

def otherDataset : EvaluationDataset :=
  { dataset with
    observations := [otherPast, observation 1, observation 2, observation 3]
    counted := by decide
    unique := by decide
    ordered := by decide }

theorem agreeOutOfSample_other : AgreeOutOfSample policy dataset otherDataset [flat] [flat] where
  datasetSnapshotId := rfl
  dataHash := rfl
  asOf := rfl
  universeArtifactRef := rfl
  cases := .cons ⟨rfl, rfl, rfl, rfl, rfl, rfl, rfl, rfl, rfl, rfl⟩ <|
    .cons ⟨rfl, rfl, rfl, rfl, rfl, rfl, rfl, rfl, rfl, rfl⟩ <|
    .cons ⟨rfl, rfl, rfl, rfl, rfl, rfl, rfl, rfl, rfl, rfl⟩ <|
    .cons ⟨rfl, rfl, rfl, rfl, rfl, rfl, rfl, rfl, rfl, rfl⟩ .nil
  tested := by
    rintro i ⟨k, -, -, hstart, -⟩
    cases i with
    | zero =>
        have hpos : 2 ≤ testStart policy k := Nat.le_add_right _ _
        omega
    | succ i => rfl
  baselines := .cons ⟨rfl, rfl, fun _ _ => rfl⟩ .nil

theorem evaluateForPromotion_outOfSample_other :
    evaluateForPromotion request dataset [flat] policy 1 5 150 =
      evaluateForPromotion request otherDataset [flat] policy 1 5 150 ∧
    (∀ splits, buildPurgedWalkForwardSplits dataset policy = .success splits →
      CountedOnce policy dataset (outOfSample dataset splits)) ∧
    ∀ report, evaluateForPromotion request dataset [flat] policy 1 5 150 = .success report →
      ∀ metric ∈ report.metrics, metric.name = "out_of_sample_observations" →
        metric.value = testedCount dataset policy :=
  evaluateForPromotion_outOfSample agreeOutOfSample_other 1 5

end EvaluationScenario

end StonksPaper
