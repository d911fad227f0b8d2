import StonksPaper.Evaluation.OutOfSample

/-!
# What a baseline is measured on

A baseline's predictions replace those of the candidate; everything else of an observation stays,
and with it the turnover of the candidate. Two candidates are measured against one benchmark as far
as their turnovers agree at the tested positions.
-/

namespace StonksPaper

open Chain

/-- The observations agree in every column that is not the candidate's own. -/
structure EvaluationObservation.SameMarket (o o' : EvaluationObservation) : Prop
    extends o.SameCase o' where
  actualReturn : o.actualReturn = o'.actualReturn
  benchmarkReturn : o.benchmarkReturn = o'.benchmarkReturn

namespace Evaluation

/-- The datasets differ in the candidate's own columns at most. -/
structure DifferInCandidate (dataset dataset' : EvaluationDataset) : Prop where
  datasetSnapshotId : dataset.datasetSnapshotId = dataset'.datasetSnapshotId
  dataHash : dataset.dataHash = dataset'.dataHash
  asOf : dataset.asOf = dataset'.asOf
  universeArtifactRef : dataset.universeArtifactRef = dataset'.universeArtifactRef
  markets : List.Forall₂ EvaluationObservation.SameMarket dataset.observations
    dataset'.observations

/-- The candidates turn over the same at every tested position. -/
def SameTurnover (policy : EvaluationPolicy) (dataset dataset' : EvaluationDataset) : Prop :=
  ∀ i, Tested policy dataset.observations.length i →
    dataset.observations[i]?.map (·.turnover) = dataset'.observations[i]?.map (·.turnover)

/-- The reports show the same metrics of every baseline. -/
def SameBenchmark (baselines : List CandidatePredictionSeries) (report report' : EvaluationReport) :
    Prop :=
  ∀ value ∈ baselines, ∀ metric : EvaluationMetric, metric.segment = segmentOf value.candidateId →
    (metric ∈ report.metrics ↔ metric ∈ report'.metrics)

variable {request : EvaluationRequest} {dataset dataset' : EvaluationDataset}
  {baselines : List CandidatePredictionSeries} {policy : EvaluationPolicy}
  {splits : List WalkForwardSplit} {createdAt : UTCDateTime}

/-! ## What the metrics read -/

def market (value : EvaluationObservation) : Decimal × Decimal × Decimal :=
  (value.actualReturn, value.benchmarkReturn, value.turnover)

def measures (value : EvaluationObservation) : Decimal × Decimal × Decimal × Decimal :=
  (value.predictedReturn, market value)

theorem map_congr_of_measures {α : Type} {f : EvaluationObservation → α}
    (g : Decimal × Decimal × Decimal × Decimal → α) (hf : ∀ value, f value = g (measures value))
    {xs ys : List EvaluationObservation} (h : xs.map measures = ys.map measures) :
    xs.map f = ys.map f := by
  have hmap : ∀ zs : List EvaluationObservation, zs.map f = (zs.map measures).map g := by
    intro zs
    rw [List.map_map]
    exact List.map_congr_left fun value _ => hf value
  rw [hmap, hmap, h]

theorem calculateMetrics_congr {xs ys : List EvaluationObservation} (multiplier : Decimal)
    (h : xs.map measures = ys.map measures) :
    calculateMetrics xs policy multiplier = calculateMetrics ys policy multiplier := by
  have hgross : xs.map grossReturn = ys.map grossReturn :=
    map_congr_of_measures (fun m => rounded (position m.1 * m.2.1)) (fun _ => rfl) h
  have hnet : netReturns xs policy multiplier = netReturns ys policy multiplier :=
    map_congr_of_measures (fun m => rounded (rounded (position m.1 * m.2.1) - rounded (m.2.2.2 *
      rounded (rounded (rounded (policy.feeBps + policy.slippageBps) * multiplier) / 10000))))
      (fun _ => rfl) h
  have hbenchmark : xs.map (·.benchmarkReturn) = ys.map (·.benchmarkReturn) :=
    map_congr_of_measures (fun m => m.2.2.1) (fun _ => rfl) h
  have hturnover : xs.map (·.turnover) = ys.map (·.turnover) :=
    map_congr_of_measures (fun m => m.2.2.2) (fun _ => rfl) h
  have hhits : ∀ zs : List EvaluationObservation,
      (zs.filter fun value => 0 < grossReturn value).length =
        ((zs.map grossReturn).filter fun gross => 0 < gross).length := by
    intro zs
    rw [List.filter_map, List.length_map]
    rfl
  have hrate : hitRate xs = hitRate ys := by
    have hlength := congrArg List.length h
    rw [List.length_map, List.length_map] at hlength
    simp only [hitRate, hhits, hgross, hlength]
  simp only [calculateMetrics, hgross, hnet, hbenchmark, hturnover, hrate]

theorem map_measures_withPredictions (observations : List EvaluationObservation)
    (value : CandidatePredictionSeries) : (withPredictions observations value).map measures =
      List.zipWith (fun columns predicted => (predicted, columns)) (observations.map market)
        value.predictions := by
  rw [withPredictions, List.map_zipWith, List.zipWith_map_left]
  rfl

/-! ## What the baselines are measured on -/

namespace DifferInCandidate

variable (h : DifferInCandidate dataset dataset')
include h

theorem ids_eq : dataset.observations.map (·.observationId) =
    dataset'.observations.map (·.observationId) :=
  h.markets.map_eq fun _ _ hmarket => hmarket.observationId

theorem market_eq (hturnover : SameTurnover policy dataset dataset') {i : ℕ}
    (hi : Tested policy dataset.observations.length i) :
    dataset.observations[i]?.map market = dataset'.observations[i]?.map market := by
  have hreturns : dataset.observations.map (fun value =>
      (value.actualReturn, value.benchmarkReturn))
      = dataset'.observations.map fun value => (value.actualReturn, value.benchmarkReturn) :=
    h.markets.map_eq fun _ _ hmarket => by
      rw [hmarket.actualReturn, hmarket.benchmarkReturn]
  have hat := congrArg (fun values => values[i]?) hreturns
  have hturn := hturnover i hi
  simp only [List.getElem?_map] at hat
  cases hvalue : dataset.observations[i]? with
  | none =>
      cases hvalue' : dataset'.observations[i]? with
      | none => rfl
      | some value' => simp [hvalue, hvalue'] at hat
  | some value =>
      cases hvalue' : dataset'.observations[i]? with
      | none => simp [hvalue, hvalue'] at hat
      | some value' =>
          simp only [hvalue, hvalue', Option.map_some, Option.some_inj, Prod.mk.injEq] at hat hturn
          simp only [Option.map_some, market, hat.1, hat.2, hturn]

theorem outOfSample_market_eq (hturnover : SameTurnover policy dataset dataset')
    (hsplits : buildPurgedWalkForwardSplits dataset policy = .success splits) :
    (outOfSample dataset splits).map market = (outOfSample dataset' splits).map market := by
  rw [outOfSample, outOfSample, List.map_filterMap, List.map_filterMap,
    ← selectedIndices_eq_of_ids h.ids_eq]
  exact List.filterMap_congr fun i hi => h.market_eq hturnover (tested_of_selected hsplits hi)

theorem baseline_eq (hturnover : SameTurnover policy dataset dataset')
    (hsplits : buildPurgedWalkForwardSplits dataset policy = .success splits)
    (value : CandidatePredictionSeries) (multiplier : Decimal) :
    calculateMetrics (withPredictions (outOfSample dataset splits)
        (outOfSampleBaseline dataset splits value)) policy multiplier =
      calculateMetrics (withPredictions (outOfSample dataset' splits)
        (outOfSampleBaseline dataset' splits value)) policy multiplier := by
  have hvalue : outOfSampleBaseline dataset splits value =
      outOfSampleBaseline dataset' splits value := by
    rw [outOfSampleBaseline, outOfSampleBaseline, ← selectedIndices_eq_of_ids h.ids_eq]
  apply calculateMetrics_congr
  rw [map_measures_withPredictions, map_measures_withPredictions, hvalue,
    h.outOfSample_market_eq hturnover hsplits]

end DifferInCandidate

/-! ## What a report shows of a baseline -/

theorem exists_of_isCandidateId {identifier : String} (h : isCandidateId identifier = true) :
    ∃ name version, identifier.toList = name ++ '/' :: version ∧
      isCheckCode (String.ofList name) = true ∧ isVersion (String.ofList version) = true := by
  have hjoin : ['/'].intercalate (identifier.toList.splitOn '/') = identifier.toList :=
    List.intercalate_splitOn '/'
  unfold isCandidateId at h
  split at h
  · rename_i name version hsplit
    rw [Bool.and_eq_true] at h
    refine ⟨name, version, ?_, h.1, h.2⟩
    rw [← hjoin, hsplit]
    simp [List.intercalate]
  · cases h

theorem mem_segmentOf {identifier : String} (h : isCandidateId identifier = true) :
    '-' ∈ (segmentOf identifier).toList := by
  obtain ⟨name, version, hlist, -, -⟩ := exists_of_isCandidateId h
  rw [segmentOf, String.toList_ofList, List.mem_map]
  refine ⟨'/', ?_, rfl⟩
  rw [hlist]
  exact List.mem_append_right _ List.mem_cons_self

theorem segment_performanceMetrics {value : PerformanceMetrics} {segment : String}
    {metric : EvaluationMetric} (h : metric ∈ performanceMetrics value segment) :
    metric.segment = segment := by
  simp only [performanceMetrics, List.mem_cons, List.not_mem_nil, or_false] at h
  rcases h with rfl | rfl | rfl | rfl | rfl | rfl <;> rfl

/-- What a report shows under the segment of a baseline are metrics of the baselines. -/
theorem mem_metrics_iff {target : PerformanceMetrics} {results : List (String × PerformanceMetrics)}
    {calibration : CalibrationResult} {pbo : Option Decimal} {count : ℕ}
    {metric : EvaluationMetric} (h : '-' ∈ metric.segment.toList) :
    metric ∈ metrics target results calibration pbo count ↔
      ∃ result ∈ results, metric ∈ performanceMetrics result.2 (segmentOf result.1) := by
  have hcandidate : metric ∉ performanceMetrics target "candidate" := by
    intro hmem
    rw [segment_performanceMetrics hmem] at h
    exact absurd h (by decide)
  have hoverall : metric.segment ≠ "overall" := by
    intro heq
    rw [heq] at h
    exact absurd h (by decide)
  simp only [metrics, List.mem_append, List.mem_flatMap, hcandidate, false_or, List.mem_cons,
    List.not_mem_nil, or_false]
  constructor
  · rintro (hresult | rfl | rfl | rfl | rfl | rfl)
    · exact hresult
    all_goals exact absurd rfl hoverall
  · exact .inl

/-- What a returned report shows under a segment with a dash are the metrics of the baselines. -/
theorem exists_results [Hashing] {reportId : UUID} {reportArtifactRef : ArtifactRef}
    {report : EvaluationReport} (h : evaluateForPromotion request dataset baselines policy reportId
      reportArtifactRef createdAt = .success report) :
    ∃ splits results, buildPurgedWalkForwardSplits dataset policy = .success splits ∧
      Bound request dataset baselines policy createdAt ∧
      (baselines.mapM fun value => do
        let metrics ← calculateMetrics (withPredictions (outOfSample dataset splits)
          (outOfSampleBaseline dataset splits value)) policy 1
        return (value.candidateId, metrics)) = Attempt.success results ∧
      ∀ metric : EvaluationMetric, '-' ∈ metric.segment.toList → (metric ∈ report.metrics ↔
        ∃ result ∈ results, metric ∈ performanceMetrics result.2 (segmentOf result.1)) := by
  simp only [evaluateForPromotion, Attempt.bind_eq_success, Attempt.pure_eq,
    Attempt.success.injEq, failUnless, Attempt.demand_eq_success] at h
  obtain ⟨-, hbound, -, -, splits, hsplits, -, -, target, -, results, hresults, calibration, -,
    costs, -, -, -, pbo, -, checked, -, -, -, -, -, -, -, rfl⟩ := h
  refine ⟨splits, results, hsplits, hbound, ?_, fun metric hmetric => ?_⟩
  · rw [← hresults, List.mapM_map]
    rfl
  · exact mem_sorted.trans (mem_metrics_iff hmetric)

theorem candidateId_of_validate {value : CandidatePredictionSeries}
    (h : value.validate = .success ()) : isCandidateId value.candidateId = true := by
  simp only [CandidatePredictionSeries.validate, Attempt.bind_eq_success, raiseUnless_eq_success,
    exists_const] at h
  exact h.1

/-- Where the candidates turn over the same, the baselines are measured the same. -/
theorem sameBenchmark_of_sameTurnover [Hashing] (h : DifferInCandidate dataset dataset')
    (hturnover : SameTurnover policy dataset dataset')
    (hbaselines : ∀ value ∈ baselines, value.validate = .success ()) {reportId : UUID}
    {reportArtifactRef : ArtifactRef} {report report' : EvaluationReport}
    (hreport : evaluateForPromotion request dataset baselines policy reportId reportArtifactRef
      createdAt = .success report)
    (hreport' : evaluateForPromotion request dataset' baselines policy reportId reportArtifactRef
      createdAt = .success report') :
    SameBenchmark baselines report report' := by
  obtain ⟨splits, results, hsplits, -, hresults, hshown⟩ := exists_results hreport
  obtain ⟨splits', results', hsplits', -, hresults', hshown'⟩ := exists_results hreport'
  obtain rfl : splits = splits' := by
    rw [← splits_eq_of_ids h.ids_eq, hsplits] at hsplits'
    exact Attempt.success.inj hsplits'
  obtain rfl : results = results' := by
    simp only [h.baseline_eq hturnover hsplits, hresults'] at hresults
    exact (Attempt.success.inj hresults).symm
  intro value hvalue metric hsegment
  have hdash : '-' ∈ metric.segment.toList := by
    rw [hsegment]
    exact mem_segmentOf (candidateId_of_validate (hbaselines value hvalue))
  rw [hshown metric hdash, hshown' metric hdash]

/-! ## The turnover that is shown -/

def shownTurnover (dataset : EvaluationDataset) (splits : List WalkForwardSplit) : Call Decimal :=
  mean ((outOfSample dataset splits).map (·.turnover)) >>= quantize

theorem meanTurnover_of_success {observations : List EvaluationObservation} {multiplier : Decimal}
    {result : PerformanceMetrics}
    (h : calculateMetrics observations policy multiplier = .success result) :
    (mean (observations.map (·.turnover)) >>= quantize) = .success result.meanTurnover := by
  simp only [calculateMetrics, Attempt.bind_eq_success, Attempt.pure_eq, Attempt.success.injEq] at h
  obtain ⟨_, -, _, -, _, -, _, -, _, -, _, -, _, -, _, -, turnover, hturnover, _, -, _, -, rfl⟩ := h
  simpa only [Attempt.bind_eq_success] using hturnover

theorem length_selected {α : Type} {xs : List α} (h : xs.length = dataset.observations.length) :
    ((selectedIndices dataset splits).filterMap fun i => xs[i]?).length =
      (selectedIndices dataset splits).length := by
  apply List.filterMap_length_eq_length.mpr
  intro i hi
  have hlt := List.mem_range.mp (List.mem_filter.mp hi).1
  rw [List.getElem?_eq_getElem (by omega)]
  rfl

theorem length_outOfSampleBaseline {value : CandidatePredictionSeries}
    (h : value.predictions.length = dataset.observations.length) :
    (outOfSampleBaseline dataset splits value).predictions.length =
      (outOfSample dataset splits).length := by
  rw [outOfSampleBaseline, outOfSample, length_selected h, length_selected rfl]

theorem turnover_withPredictions {value : CandidatePredictionSeries}
    (hlength : value.predictions.length = dataset.observations.length) :
    (withPredictions (outOfSample dataset splits) (outOfSampleBaseline dataset splits value)).map
      (·.turnover) = (outOfSample dataset splits).map (·.turnover) := by
  have hsame : (outOfSample dataset splits).length ≤
      (outOfSampleBaseline dataset splits value).predictions.length :=
    (length_outOfSampleBaseline hlength).ge
  have hfst := List.map_fst_zip hsame
  conv_rhs => rw [← hfst, List.map_map]
  rw [withPredictions, List.map_zipWith, ← List.map_uncurry_zip_eq_zipWith]
  rfl

theorem shownTurnover_of_result {value : CandidatePredictionSeries} {result : PerformanceMetrics}
    (hlength : value.predictions.length = dataset.observations.length)
    (h : calculateMetrics (withPredictions (outOfSample dataset splits)
      (outOfSampleBaseline dataset splits value)) policy 1 = .success result) :
    shownTurnover dataset splits = .success result.meanTurnover := by
  have hmean := meanTurnover_of_success h
  rw [turnover_withPredictions hlength] at hmean
  exact hmean

theorem turnover_mem_performanceMetrics {x : Decimal} {segment segment' : String}
    {value : PerformanceMetrics} :
    ⟨"turnover", x, "ratio", segment⟩ ∈ performanceMetrics value segment' ↔
      x = value.meanTurnover ∧ segment = segment' := by
  simp [performanceMetrics]

/-- A report shows every baseline with the turnover of the candidate, and no other. -/
theorem turnover_mem_iff [Hashing] {reportId : UUID} {reportArtifactRef : ArtifactRef}
    {report : EvaluationReport} (h : evaluateForPromotion request dataset baselines policy reportId
      reportArtifactRef createdAt = .success report)
    (hbaselines : ∀ value ∈ baselines, value.validate = .success ())
    (hsplits : buildPurgedWalkForwardSplits dataset policy = .success splits)
    {value : CandidatePredictionSeries} (hvalue : value ∈ baselines) :
    ∃ turnover, shownTurnover dataset splits = .success turnover ∧
      ∀ x, ⟨"turnover", x, "ratio", segmentOf value.candidateId⟩ ∈ report.metrics ↔
        x = turnover := by
  obtain ⟨splits', results, hsplits', hbound, hresults, hshown⟩ := exists_results h
  obtain rfl : splits = splits' := Attempt.success.inj (hsplits.symm.trans hsplits')
  rw [Attempt.mapM_eq_success] at hresults
  have haligned : ∀ value ∈ baselines,
      value.predictions.length = dataset.observations.length := hbound.2.2.2.2.2.2.2.2.2.1
  have hmeasured : ∀ result ∈ results,
      shownTurnover dataset splits = .success result.2.meanTurnover := by
    intro result hresult
    obtain ⟨other, hother, hsuccess⟩ := hresults.flip.exists_right hresult
    simp only [Attempt.bind_eq_success, Attempt.pure_eq, Attempt.success.injEq] at hsuccess
    obtain ⟨measured, hmeasured, rfl⟩ := hsuccess
    exact shownTurnover_of_result (haligned other hother) hmeasured
  obtain ⟨result, hresult, hsuccess⟩ := hresults.exists_right hvalue
  simp only [Attempt.bind_eq_success, Attempt.pure_eq, Attempt.success.injEq] at hsuccess
  obtain ⟨measured, -, rfl⟩ := hsuccess
  refine ⟨measured.meanTurnover, hmeasured _ hresult, fun x => ?_⟩
  have hdash := mem_segmentOf (candidateId_of_validate (hbaselines value hvalue))
  rw [hshown ⟨"turnover", x, "ratio", segmentOf value.candidateId⟩ hdash]
  simp only [turnover_mem_performanceMetrics]
  constructor
  · rintro ⟨other, hother, hx, -⟩
    have hsame := (hmeasured _ hother).symm.trans (hmeasured _ hresult)
    rw [hx]
    exact Attempt.success.inj hsame
  · exact fun hx => ⟨_, hresult, hx, rfl⟩

/-- Two candidates that turn over the same are measured against one benchmark, and two that are
shown with different turnovers are not. -/
theorem evaluateForPromotion_benchmark [Hashing] (h : DifferInCandidate dataset dataset')
    (hbaselines : ∀ value ∈ baselines, value.validate = .success ()) {reportId : UUID}
    {reportArtifactRef : ArtifactRef} {report report' : EvaluationReport}
    (hreport : evaluateForPromotion request dataset baselines policy reportId reportArtifactRef
      createdAt = .success report)
    (hreport' : evaluateForPromotion request dataset' baselines policy reportId reportArtifactRef
      createdAt = .success report') :
    (SameTurnover policy dataset dataset' → SameBenchmark baselines report report') ∧
      (SameBenchmark baselines report report' → ∀ splits,
        buildPurgedWalkForwardSplits dataset policy = .success splits →
          shownTurnover dataset splits = shownTurnover dataset' splits) := by
  refine ⟨fun hturnover => sameBenchmark_of_sameTurnover h hturnover hbaselines hreport hreport',
    fun hsame splits hsplits => ?_⟩
  obtain ⟨value, hvalue⟩ : ∃ value, value ∈ baselines := by
    obtain ⟨-, -, -, hbound, -⟩ := exists_results hreport
    exact List.exists_mem_of_ne_nil _ hbound.2.2.2.2.2.2.2.1
  have hsplits' : buildPurgedWalkForwardSplits dataset' policy = .success splits := by
    rw [← splits_eq_of_ids h.ids_eq, hsplits]
  obtain ⟨turnover, hturnover, hmem⟩ := turnover_mem_iff hreport hbaselines hsplits hvalue
  obtain ⟨turnover', hturnover', hmem'⟩ := turnover_mem_iff hreport' hbaselines hsplits' hvalue
  have hshown := (hsame value hvalue _ rfl).mp ((hmem turnover).mpr rfl)
  rw [hturnover, hturnover', (hmem' turnover).mp hshown]

end Evaluation

/-! ## A candidate that trades and one that does not -/

namespace EvaluationScenario

open Evaluation
open scoped CodeHashing

/-- The observations of a candidate with bolder predictions, and with another turnover before the
first test. -/
def bolderDataset : EvaluationDataset :=
  { dataset with
    observations := [{ observation 0 with turnover := 0, turnover_nonneg := Rat.le_refl },
      observation 1, { observation 2 with predictedReturn := 1 / 10 },
      { observation 3 with predictedReturn := 1 / 10 }]
    counted := by decide
    unique := by decide
    ordered := by decide }

theorem differInCandidate_bolder : DifferInCandidate dataset bolderDataset where
  datasetSnapshotId := rfl
  dataHash := rfl
  asOf := rfl
  universeArtifactRef := rfl
  markets := .cons ⟨⟨rfl, rfl, rfl, rfl, rfl, rfl, rfl, rfl, rfl, rfl⟩, rfl, rfl⟩ <|
    .cons ⟨⟨rfl, rfl, rfl, rfl, rfl, rfl, rfl, rfl, rfl, rfl⟩, rfl, rfl⟩ <|
    .cons ⟨⟨rfl, rfl, rfl, rfl, rfl, rfl, rfl, rfl, rfl, rfl⟩, rfl, rfl⟩ <|
    .cons ⟨⟨rfl, rfl, rfl, rfl, rfl, rfl, rfl, rfl, rfl, rfl⟩, rfl, rfl⟩ .nil

theorem flat_validate : flat.validate = .success () := by decide

theorem evaluateForPromotion_benchmark_bolder :
    (SameTurnover policy dataset bolderDataset → SameBenchmark [flat] report report) ∧
      (SameBenchmark [flat] report report → ∀ splits,
        buildPurgedWalkForwardSplits dataset policy = .success splits →
          shownTurnover dataset splits = shownTurnover bolderDataset splits) := by
  have hbolder : evaluateForPromotion request bolderDataset [flat] policy 1 5 150 =
      .success report := by decide +kernel
  exact evaluateForPromotion_benchmark differInCandidate_bolder
    (fun value hvalue => by rw [List.mem_singleton.mp hvalue, flat_validate]) promotion_eq hbolder

def costlyPolicy : EvaluationPolicy := { policy with feeBps := 100, costs := by decide +kernel }

def costlyRequest : EvaluationRequest :=
  { request with evaluationPolicyHash := costlyPolicy.policyHash }

def idle (value : EvaluationObservation) : EvaluationObservation :=
  { value with turnover := 0, turnover_nonneg := Rat.le_refl }

def idleDataset : EvaluationDataset :=
  { dataset with
    observations := [idle (observation 0), idle (observation 1), idle (observation 2),
      idle (observation 3)]
    counted := by decide
    unique := by decide
    ordered := by decide }

theorem differInCandidate_idle : DifferInCandidate dataset idleDataset where
  datasetSnapshotId := rfl
  dataHash := rfl
  asOf := rfl
  universeArtifactRef := rfl
  markets := .cons ⟨⟨rfl, rfl, rfl, rfl, rfl, rfl, rfl, rfl, rfl, rfl⟩, rfl, rfl⟩ <|
    .cons ⟨⟨rfl, rfl, rfl, rfl, rfl, rfl, rfl, rfl, rfl, rfl⟩, rfl, rfl⟩ <|
    .cons ⟨⟨rfl, rfl, rfl, rfl, rfl, rfl, rfl, rfl, rfl, rfl⟩, rfl, rfl⟩ <|
    .cons ⟨⟨rfl, rfl, rfl, rfl, rfl, rfl, rfl, rfl, rfl, rfl⟩, rfl, rfl⟩ .nil

/-- A baseline that never takes a position loses one percent to the turnover of the candidate, and
nothing when the candidate states none. -/
theorem turnover_lowers_bar : DifferInCandidate dataset idleDataset ∧
    flat.validate = .success () ∧ ∃ report report',
      evaluateForPromotion costlyRequest dataset [flat] costlyPolicy 1 5 150 = .success report ∧
      evaluateForPromotion costlyRequest idleDataset [flat] costlyPolicy 1 5 150 =
        .success report' ∧ ¬ SameBenchmark [flat] report report' := by
  have hcostly : (evaluateForPromotion costlyRequest dataset [flat] costlyPolicy 1 5
      150).SucceedsWith
      fun report => ⟨"net_alpha", -11 / 1000, "return", "flat-1.0.0"⟩ ∈ report.metrics := by
    decide +kernel
  have hidle : (evaluateForPromotion costlyRequest idleDataset [flat] costlyPolicy 1 5
      150).SucceedsWith fun report =>
        ⟨"net_alpha", -11 / 1000, "return", "flat-1.0.0"⟩ ∉ report.metrics := by
    decide +kernel
  obtain ⟨report, hreport, hbar⟩ := hcostly
  obtain ⟨report', hreport', hnone⟩ := hidle
  refine ⟨differInCandidate_idle, flat_validate, report, report', hreport, hreport', fun h => ?_⟩
  have hsame := h flat (List.mem_singleton_self flat)
    ⟨"net_alpha", -11 / 1000, "return", "flat-1.0.0"⟩ (by decide)
  exact hnone (hsame.mp hbar)

end EvaluationScenario

end StonksPaper
