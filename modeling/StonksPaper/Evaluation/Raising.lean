import StonksPaper.Evaluation.Figures

/-!
# What leaves the gate as an exception

The estimate raises for an odd number of groups, the report for a segment or a list of baselines
that is too long, and a figure that does not fit into the precision raises where it is quantized.
Nothing else raises.
-/

namespace StonksPaper

open Chain

namespace Evaluation

variable {observations : List EvaluationObservation} {policy : EvaluationPolicy}

/-! ## The estimate -/

/-- An estimate that is attempted needs an even number of groups. -/
theorem estimate_succeeds_iff {candidates : List CandidatePredictionSeries} {groups : ℕ}
    (hgroups : 4 ≤ groups ∧ groups ≤ 8) (hcandidates : 2 ≤ candidates.length)
    (haligned : Aligned observations candidates) :
    (estimateProbabilityOfBacktestOverfitting observations candidates groups).Succeeds ↔
      groups % 2 = 0 ∨ observations.length < 2 * groups := by
  by_cases hcount : observations.length < 2 * groups
  · have hfew : candidates.length < 2 ∨ observations.length < groups * 2 := by omega
    rw [estimateProbabilityOfBacktestOverfitting, if_pos hfew]
    simp only [Attempt.pure_eq, success_succeeds, hcount, or_true]
  · have hfew : ¬ (candidates.length < 2 ∨ observations.length < groups * 2) := by omega
    have hpredictions : ∀ value ∈ candidates, value.predictions.length = observations.length :=
      haligned
    rw [estimateProbabilityOfBacktestOverfitting, if_neg hfew]
    simp only [raiseUnless_bind_succeeds, hgroups, hcount, or_false, true_and]
    refine and_iff_left ⟨hpredictions, ?_⟩
    have htrials : ((combinations (List.range groups) (groups / 2)).mapM (belowMedian observations
        candidates (groupIndices observations.length groups))).Succeeds := by
      rw [mapM_succeeds_iff]
      intro trainGroups hmem
      obtain ⟨htrain, htest⟩ := exists_mem_indices (show groups ≤ observations.length by omega)
        (by omega) hmem
      exact ⟨_, belowMedian_eq haligned htrain htest⟩
    obtain ⟨trials, htrials⟩ := htrials
    have hlength := (Attempt.mapM_eq_success.mp htrials).length_eq
    have hpos := (length_trials hgroups).1
    rw [htrials, Attempt.success_bind,
      quantize_share (List.length_filter_le id trials) (by omega), Attempt.success_bind]
    exact success_succeeds _

/-! ## Segments -/

def CodeChar (c : Char) : Prop :=
  ('a' ≤ c ∧ c ≤ 'z') ∨ ('0' ≤ c ∧ c ≤ '9') ∨ c = '_' ∨ c = '.' ∨ c = '-'

theorem isCheckCode_iff {text : String} : isCheckCode text = true ↔ ∃ c cs, text.toList = c :: cs ∧
    ('a' ≤ c ∧ c ≤ 'z') ∧ cs.length ≤ 127 ∧ ∀ d ∈ cs, CodeChar d := by
  unfold isCheckCode
  cases text.toList with
  | nil => simp
  | cons c cs =>
      simp only [Bool.and_eq_true, decide_eq_true_eq, List.all_eq_true, Bool.or_eq_true, beq_iff_eq,
        List.cons.injEq, ↓existsAndEq, CodeChar, or_assoc, and_assoc, true_and]

theorem mem_of_mem_intercalate {α : Type} {a c : α} {ls : List (List α)}
    (h : c ∈ [a].intercalate ls) : c = a ∨ ∃ l ∈ ls, c ∈ l := by
  induction ls with
  | nil => simp at h
  | cons l ls ih =>
      cases ls with
      | nil => exact .inr ⟨l, List.mem_singleton_self l, by simpa using h⟩
      | cons m ms =>
          rw [List.intercalate_cons_cons, List.mem_append, List.mem_append] at h
          rcases h with (hl | ha) | hrest
          · exact .inr ⟨l, List.mem_cons_self, hl⟩
          · exact .inl (List.mem_singleton.mp ha)
          · rcases ih hrest with ha | ⟨k, hk, hc⟩
            · exact .inl ha
            · exact .inr ⟨k, List.mem_cons_of_mem _ hk, hc⟩

theorem digit_of_isVersion {text : String} (h : isVersion text = true) {c : Char}
    (hc : c ∈ text.toList) : ('0' ≤ c ∧ c ≤ '9') ∨ c = '.' := by
  simp only [isVersion, Bool.and_eq_true, List.all_eq_true, decide_eq_true_eq] at h
  have hjoin : ['.'].intercalate (text.toList.splitOn '.') = text.toList :=
    List.intercalate_splitOn '.'
  rw [← hjoin] at hc
  rcases mem_of_mem_intercalate hc with hdot | ⟨part, hpart, hmem⟩
  · exact .inr hdot
  · exact .inl ((h.2 part hpart).2 c hmem)

theorem not_mem_version {text : String} (h : isVersion text = true) :
    '/' ∉ text.toList ∧ '-' ∉ text.toList := by
  constructor <;> intro hmem <;> exact absurd (digit_of_isVersion h hmem) (by decide)

theorem slash_not_mem_code {text : String} (h : isCheckCode text = true) : '/' ∉ text.toList := by
  obtain ⟨c, cs, hlist, hfirst, -, hrest⟩ := isCheckCode_iff.mp h
  intro hmem
  rw [hlist, List.mem_cons] at hmem
  rcases hmem with rfl | hmem
  · exact absurd hfirst (by decide)
  · exact absurd (hrest _ hmem) (by unfold CodeChar; decide)

/-- The segment of a candidate has a dash in place of the slash. -/
theorem toList_segmentOf {identifier : String} (h : isCandidateId identifier = true) :
    ∃ name version, identifier.toList = name ++ '/' :: version ∧
      (segmentOf identifier).toList = name ++ '-' :: version ∧
      isCheckCode (String.ofList name) = true ∧ isVersion (String.ofList version) = true := by
  obtain ⟨name, version, hlist, hname, hversion⟩ := exists_of_isCandidateId h
  have hkeep : ∀ cs : List Char, '/' ∉ cs → (cs.map fun c => if c = '/' then '-' else c) = cs := by
    intro cs hcs
    conv_rhs => rw [← List.map_id cs]
    refine List.map_congr_left fun c hc => if_neg ?_
    rintro rfl
    exact hcs hc
  have hslash := slash_not_mem_code hname
  have hslash' := (not_mem_version hversion).1
  rw [String.toList_ofList] at hslash hslash'
  refine ⟨name, version, hlist, ?_, hname, hversion⟩
  rw [segmentOf, String.toList_ofList, hlist, List.map_append, List.map_cons, hkeep name hslash,
    hkeep version hslash', if_pos rfl]

theorem append_cons_inj {α : Type} {a : α} {xs ys xs' ys' : List α} (hy : a ∉ ys) (hy' : a ∉ ys')
    (h : xs ++ a :: ys = xs' ++ a :: ys') : xs = xs' ∧ ys = ys' := by
  rcases List.append_eq_append_iff.mp h with ⟨zs, rfl, htail⟩ | ⟨zs, rfl, htail⟩
  · cases zs with
    | nil => simpa using htail
    | cons z zs =>
        rw [List.cons_append, List.cons.injEq] at htail
        exact absurd (htail.2 ▸ List.mem_append_right zs List.mem_cons_self) hy
  · cases zs with
    | nil => simpa [eq_comm] using htail
    | cons z zs =>
        rw [List.cons_append, List.cons.injEq] at htail
        exact absurd (htail.2 ▸ List.mem_append_right zs List.mem_cons_self) hy'

theorem segmentOf_inj {identifier identifier' : String} (h : isCandidateId identifier = true)
    (h' : isCandidateId identifier' = true) (heq : segmentOf identifier = segmentOf identifier') :
    identifier = identifier' := by
  obtain ⟨name, version, hlist, hsegment, -, hversion⟩ := toList_segmentOf h
  obtain ⟨name', version', hlist', hsegment', -, hversion'⟩ := toList_segmentOf h'
  have hdash := (not_mem_version hversion).2
  have hdash' := (not_mem_version hversion').2
  rw [String.toList_ofList] at hdash hdash'
  rw [heq, hsegment'] at hsegment
  obtain ⟨rfl, rfl⟩ := append_cons_inj hdash' hdash hsegment
  exact String.toList_inj.mp (hlist.trans hlist'.symm)

/-- The segment of a candidate fits exactly when its identifier is not too long. -/
theorem isCheckCode_segmentOf_iff {identifier : String} (h : isCandidateId identifier = true) :
    isCheckCode (segmentOf identifier) = true ↔ identifier.length ≤ 128 := by
  obtain ⟨name, version, hlist, hsegment, hname, hversion⟩ := toList_segmentOf h
  obtain ⟨c, cs, hcs, hfirst, -, hrest⟩ := isCheckCode_iff.mp hname
  rw [String.toList_ofList] at hcs
  have hlength : identifier.length = cs.length + 1 + (version.length + 1) := by
    rw [← String.length_toList, hlist, hcs]
    simp
    omega
  have hchars : ∀ d ∈ cs ++ '-' :: version, CodeChar d := by
    intro d hd
    rcases List.mem_append.mp hd with hd | hd
    · exact hrest d hd
    · rcases List.mem_cons.mp hd with rfl | hd
      · exact .inr (.inr (.inr (.inr rfl)))
      · rcases digit_of_isVersion hversion (by rwa [String.toList_ofList]) with hdigit | hdot
        · exact .inr (.inl hdigit)
        · exact .inr (.inr (.inr (.inl hdot)))
  rw [isCheckCode_iff, hsegment, hcs, hlength]
  constructor
  · rintro ⟨c', cs', hcons, -, hshort, -⟩
    rw [List.cons_append, List.cons.injEq] at hcons
    have hcount := congrArg List.length hcons.2
    rw [List.length_append, List.length_cons] at hcount
    omega
  · intro hshort
    refine ⟨c, cs ++ '-' :: version, rfl, hfirst, ?_, hchars⟩
    rw [List.length_append, List.length_cons]
    omega

theorem isCandidateId_primary {name version : String} (hname : isCheckCode name = true)
    (hversion : isVersion version = true) : isCandidateId (name ++ "/" ++ version) = true := by
  have hlist : (name ++ "/" ++ version).toList = name.toList ++ '/' :: version.toList := by
    simp [String.toList_append]
  have hsplit : (name.toList ++ '/' :: version.toList).splitOn '/' =
      [name.toList, version.toList] := by
    rw [List.splitOn_append_cons_self_of_not_mem (slash_not_mem_code hname),
      List.splitOn_eq_singleton (not_mem_version hversion).1]
  rw [isCandidateId, hlist, hsplit]
  simp only [String.ofList_toList, hname, hversion, Bool.and_self]

/-! ## Metrics and checks -/

def performanceNames : List String :=
  ["mean_net_return", "net_alpha", "max_drawdown", "hit_rate", "turnover", "sharpe"]

def overallNames : List String :=
  ["brier_score", "calibration_error", "walk_forward_splits", "out_of_sample_observations", "pbo"]

theorem map_key_metrics (target : PerformanceMetrics) (results : List (String × PerformanceMetrics))
    (calibration : CalibrationResult) (pbo : Option Decimal) (count : ℕ) :
    (metrics target results calibration pbo count).map (fun metric =>
      (metric.name, metric.segment)) =
      (("candidate" :: results.map fun result => segmentOf result.1).flatMap fun segment =>
        performanceNames.map fun name => (name, segment)) ++
          overallNames.map fun name => (name, "overall") := by
  have hperformance : ∀ (value : PerformanceMetrics) segment,
      (performanceMetrics value segment).map (fun metric => (metric.name, metric.segment)) =
        performanceNames.map fun name => (name, segment) := fun _ _ => rfl
  rw [metrics, List.map_append, List.map_append, hperformance, List.flatMap_cons, List.map_flatMap,
    List.flatMap_map]
  simp only [hperformance]
  rfl

/-- No metric is shown twice for one segment. -/
theorem nodup_metricKeys {results : List (String × PerformanceMetrics)}
    (hids : (results.map (·.1)).Nodup) (hvalid : ∀ result ∈ results, isCandidateId result.1 = true)
    (target : PerformanceMetrics) (calibration : CalibrationResult) (pbo : Option Decimal)
    (count : ℕ) : ((metrics target results calibration pbo count).map
      fun metric => (metric.name, metric.segment)).Nodup := by
  have hdash : ∀ segment ∈ results.map (fun result => segmentOf result.1), '-' ∈
      segment.toList := by
    intro segment hsegment
    obtain ⟨result, hresult, rfl⟩ := List.mem_map.mp hsegment
    exact mem_segmentOf (hvalid result hresult)
  have hsegments : (results.map fun result => segmentOf result.1).Nodup := by
    have hmap : (results.map fun result => segmentOf result.1) =
        (results.map (·.1)).map segmentOf := by rw [List.map_map]; rfl
    rw [hmap]
    refine hids.map_on fun identifier hmem identifier' hmem' heq => ?_
    obtain ⟨result, hresult, rfl⟩ := List.mem_map.mp hmem
    obtain ⟨result', hresult', rfl⟩ := List.mem_map.mp hmem'
    exact segmentOf_inj (hvalid result hresult) (hvalid result' hresult') heq
  have hall : ("candidate" :: results.map fun result => segmentOf result.1).Nodup :=
    List.nodup_cons.mpr ⟨fun hmem => absurd (hdash _ hmem) (by decide), hsegments⟩
  rw [map_key_metrics, List.nodup_append']
  refine ⟨List.nodup_flatMap.mpr ⟨fun segment _ => ?_, ?_⟩, by decide, ?_⟩
  · exact (show performanceNames.Nodup by decide).map fun _ _ h => (Prod.mk.inj h).1
  · refine hall.imp fun hne => ?_
    intro key hkey hkey'
    obtain ⟨_, -, rfl⟩ := List.mem_map.mp hkey
    obtain ⟨_, -, heq⟩ := List.mem_map.mp hkey'
    exact hne (Prod.mk.inj heq).2.symm
  · intro key hkey hkey'
    obtain ⟨segment, hsegment, hname⟩ := List.mem_flatMap.mp hkey
    obtain ⟨_, -, rfl⟩ := List.mem_map.mp hname
    obtain ⟨_, -, heq⟩ := List.mem_map.mp hkey'
    obtain rfl := (Prod.mk.inj heq).2
    rcases List.mem_cons.mp hsegment with hcandidate | hmem
    · exact absurd hcandidate (by decide)
    · exact absurd (hdash _ hmem) (by decide)

/-- The names and segments of metrics fit exactly when those of the baselines do. -/
theorem validateMetrics_iff {target : PerformanceMetrics}
    {results : List (String × PerformanceMetrics)} {calibration : CalibrationResult}
    {pbo : Option Decimal} {count : ℕ} :
    (metrics target results calibration pbo count).forM validateMetric = .success () ↔
      ∀ result ∈ results, isCheckCode (segmentOf result.1) = true := by
  have hmetric : ∀ metric : EvaluationMetric, validateMetric metric = .success () ↔
      isCheckCode metric.name = true ∧ isCheckCode metric.segment = true := by
    intro metric
    simp only [validateMetric, checkCode, Attempt.bind_eq_success, raiseUnless_eq_success,
      exists_const]
  have hkeys : (∀ metric ∈ metrics target results calibration pbo count,
      isCheckCode metric.name = true ∧ isCheckCode metric.segment = true) ↔
        ∀ key ∈ (metrics target results calibration pbo count).map
          (fun metric => (metric.name, metric.segment)),
            isCheckCode key.1 = true ∧ isCheckCode key.2 = true := by
    rw [List.forall_mem_map]
  rw [Attempt.forM_eq_success]
  simp only [hmetric]
  rw [hkeys, map_key_metrics]
  constructor
  · intro h result hresult
    have hkey := h ("turnover", segmentOf result.1) (List.mem_append_left _ (List.mem_flatMap.mpr
      ⟨segmentOf result.1, List.mem_cons_of_mem _ (List.mem_map_of_mem hresult),
        List.mem_map.mpr ⟨"turnover", by decide, rfl⟩⟩))
    exact hkey.2
  · intro h key hkey
    rcases List.mem_append.mp hkey with hmem | hmem
    · obtain ⟨segment, hsegment, hname⟩ := List.mem_flatMap.mp hmem
      obtain ⟨name, hperformance, rfl⟩ := List.mem_map.mp hname
      have hcode : isCheckCode name = true :=
        (show ∀ name ∈ performanceNames, isCheckCode name = true by decide) name hperformance
      refine ⟨hcode, ?_⟩
      rcases List.mem_cons.mp hsegment with rfl | hmem
      · exact show isCheckCode "candidate" = true by decide
      · obtain ⟨result, hresult, rfl⟩ := List.mem_map.mp hmem
        exact h result hresult
    · obtain ⟨name, hoverall, rfl⟩ := List.mem_map.mp hmem
      exact ⟨(show ∀ name ∈ overallNames, isCheckCode name = true by decide) name hoverall,
        show isCheckCode "overall" = true by decide⟩

theorem checks_eq (target : PerformanceMetrics) {baselines : List (String × PerformanceMetrics)}
    (calibration : ConfidenceCalibration) {costs : List CostScenario} (pbo : Option Decimal)
    (policy : EvaluationPolicy) (hbaselines : baselines ≠ []) (hcosts : costs ≠ []) :
    ∃ results : CheckResults, checks target baselines calibration costs pbo policy =
        .success (EvaluationCheckKind.all.map fun kind => checkOf kind (results.result kind)) ∧
      (results.calibrationPassed = true → calibration = .calibrated) := by
  cases baselines with
  | nil => exact absurd rfl hbaselines
  | cons baseline baselines =>
      cases costs with
      | nil => exact absurd rfl hcosts
      | cons cost costs =>
          refine ⟨_, rfl, fun h => ?_⟩
          exact of_decide_eq_true h

/-! ## The report -/

theorem succeeds_bind {α β : Type} {x : Call α} {f : α → Call β} :
    (x >>= f).Succeeds ↔ ∃ a, x = .success a ∧ (f a).Succeeds := by
  simp only [Attempt.Succeeds, Attempt.bind_eq_success]
  constructor
  · rintro ⟨b, a, ha, hb⟩
    exact ⟨a, ha, b, hb⟩
  · rintro ⟨a, ha, b, hb⟩
    exact ⟨b, a, ha, hb⟩

/-- The observations, candidates and policy have a report: the estimate has an even number of groups
or too few observations, segments and baselines are within their lengths, and figures fit. -/
structure Presentable (observations : List EvaluationObservation)
    (candidates : List CandidatePredictionSeries) (policy : EvaluationPolicy) : Prop where
  groups : policy.cpcvGroups % 2 = 0 ∨ observations.length < 2 * policy.cpcvGroups
  segments : ∀ value ∈ candidates, value.candidateId.length ≤ 128
  baselines : candidates.length ≤ 64
  figures : MetricsFit observations policy 1
  baselineFigures : ∀ value ∈ candidates, MetricsFit (withPredictions observations value) policy 1
  costs : CostsFit observations policy

variable [Hashing] {request : EvaluationRequest} {candidates : List CandidatePredictionSeries}
  {splitCount : ℕ} {reportId : UUID} {reportArtifactRef : ArtifactRef} {createdAt : UTCDateTime}

/-- The report of a strategy. -/
def reportOf (request : EvaluationRequest) (candidates : List CandidatePredictionSeries)
    (policy : EvaluationPolicy) (reportId : UUID) (reportArtifactRef : ArtifactRef)
    (createdAt : UTCDateTime) (checks : List EvaluationCheck) (metrics : List EvaluationMetric)
    (calibration : ConfidenceCalibration) : EvaluationReport where
  reportId := reportId
  strategyId := request.manifest.strategyId
  strategyVersion := request.manifest.strategyVersion
  strategyManifestHash := request.manifest.manifestHash
  datasetSnapshotId := request.datasetSnapshotId
  dataHash := request.dataHash
  runtimeHash := request.manifest.runtimeHash
  evaluationPolicyHash := policy.policyHash
  asOf := request.asOf
  windowStart := request.windowStart
  windowEnd := request.windowEnd
  checks := checks
  metrics := sorted (fun metric => toLex (metric.name, metric.segment)) metrics
  calibration := calibration
  baselineIds := sorted id (candidates.map (·.candidateId))
  reportArtifactRef := reportArtifactRef
  validUntil := createdAt + daysOf policy.reportValidDays
  createdAt := createdAt
  passed := checks.all fun check => check.status = .passed

/-- What the gate does once its inputs are accepted. -/
def judge (request : EvaluationRequest) (observations : List EvaluationObservation)
    (candidates : List CandidatePredictionSeries) (policy : EvaluationPolicy) (splitCount : ℕ)
    (reportId : UUID) (reportArtifactRef : ArtifactRef) (createdAt : UTCDateTime) :
    Call EvaluationReport := do
  let target ← calculateMetrics observations policy 1
  let baselineMetrics ← candidates.mapM fun value => do
    let metrics ← calculateMetrics (withPredictions observations value) policy 1
    return (value.candidateId, metrics)
  let calibration ← evaluateCalibration observations policy
  let costs ← evaluateCostSensitivity observations policy
  (primaryCandidate request.manifest observations).validate
  let pbo ← estimateProbabilityOfBacktestOverfitting observations
    (candidates ++ [primaryCandidate request.manifest observations]) policy.cpcvGroups
  let checks ← checks target baselineMetrics calibration.status costs pbo policy
  (metrics target baselineMetrics calibration pbo splitCount).forM validateMetric
  Attempt.require (createdAt + daysOf policy.reportValidDays ≤ datetimeMax)
    (.overflowError "date value out of range")
  (reportOf request candidates policy reportId reportArtifactRef createdAt checks
    (metrics target baselineMetrics calibration pbo splitCount) calibration.status).validate
  return reportOf request candidates policy reportId reportArtifactRef createdAt checks
    (metrics target baselineMetrics calibration pbo splitCount) calibration.status

theorem evaluateForPromotion_eq_judge {dataset : EvaluationDataset}
    {baselines : List CandidatePredictionSeries} :
    evaluateForPromotion request dataset baselines policy reportId reportArtifactRef createdAt = (do
      failUnless (Bound request dataset baselines policy createdAt) .invalidInput
        "Evaluation inputs do not match immutable request binding"
      let _ ← auditDataset dataset
      let splits ← buildPurgedWalkForwardSplits dataset policy
      failUnless (policy.minimumObservations ≤ (outOfSample dataset splits).length) .invalidInput
        "Walk-forward out-of-sample observations are insufficient"
      judge request (outOfSample dataset splits)
        (baselines.map (outOfSampleBaseline dataset splits)) policy splits.length reportId
        reportArtifactRef createdAt) := rfl

/-- The candidates of an accepted input. -/
structure Admitted (request : EvaluationRequest) (candidates : List CandidatePredictionSeries)
    (createdAt : UTCDateTime) : Prop where
  strategyId : isCheckCode request.manifest.strategyId = true
  strategyVersion : isVersion request.manifest.strategyVersion = true
  some : candidates ≠ []
  ids : (candidates.map (·.candidateId)).Nodup
  valid : ∀ value ∈ candidates, isCandidateId value.candidateId = true
  created : request.asOf ≤ createdAt

omit [Hashing] in
theorem validate_report_iff {report : EvaluationReport} : report.validate = .success () ↔
    isCheckCode report.strategyId = true ∧ isVersion report.strategyVersion = true ∧
    report.checks.length ≤ 64 ∧ 1 ≤ report.metrics.length ∧ report.metrics.length ≤ 512 ∧
    1 ≤ report.baselineIds.length ∧ report.baselineIds.length ≤ 64 ∧
    (report.checks.map (·.kind)).Nodup ∧
    (report.metrics.map fun metric => (metric.name, metric.segment)).Nodup ∧
    (report.baselineIds.Nodup ∧ ∀ identifier ∈ report.baselineIds, ¬ isBlank identifier = true) ∧
    (∀ kind ∈ EvaluationCheckKind.all, kind ∈ report.checks.map (·.kind)) ∧
    (report.passed = true → (∀ check ∈ report.checks, check.status = .passed) ∧
      report.calibration = .calibrated) ∧
    (report.windowStart < report.windowEnd ∧ report.windowEnd ≤ report.asOf) ∧
    report.asOf ≤ report.createdAt ∧ report.createdAt < report.validUntil := by
  simp only [EvaluationReport.validate, checkCode, versionText, maxLength, atLeast,
    Attempt.bind_eq_success, raiseUnless_eq_success, exists_const]

/-- The report itself accepts everything but too many baselines. -/
theorem validate_reportOf_iff (h : Admitted request candidates createdAt) {results : CheckResults}
    {calibration : ConfidenceCalibration} {metrics : List EvaluationMetric}
    (hcalibration : results.calibrationPassed = true → calibration = .calibrated)
    (hkeys : (metrics.map fun metric => (metric.name, metric.segment)).Nodup)
    (hcount : metrics.length = 6 * candidates.length + 11) :
    (reportOf request candidates policy reportId reportArtifactRef createdAt
      (EvaluationCheckKind.all.map fun kind => checkOf kind (results.result kind)) metrics
        calibration).validate = .success () ↔ candidates.length ≤ 64 := by
  have hids := sorted_perm id (candidates.map (·.candidateId))
  have hmetrics := sorted_perm (fun metric : EvaluationMetric =>
      toLex (metric.name, metric.segment))
    metrics
  have hlength : (sorted id (candidates.map (·.candidateId))).length = candidates.length := by
    rw [hids.length_eq, List.length_map]
  rw [validate_report_iff]
  constructor
  · intro hvalid
    rw [← hlength]
    exact hvalid.2.2.2.2.2.2.1
  · intro hfew
    have hpos := List.length_pos_iff.mpr h.some
    have hblank : ∀ identifier ∈ sorted id (candidates.map (·.candidateId)),
        ¬ isBlank identifier = true := by
      intro identifier hmem hblank
      obtain ⟨value, hvalue, rfl⟩ := List.mem_map.mp (mem_sorted.mp hmem)
      obtain ⟨name, version, hlist, -⟩ := exists_of_isCandidateId (h.valid value hvalue)
      rw [isBlank, List.all_eq_true] at hblank
      exact absurd (hblank '/' (hlist ▸ List.mem_append_right _ List.mem_cons_self)) (by decide)
    have hpassed : ((EvaluationCheckKind.all.map fun kind =>
        checkOf kind (results.result kind)).all fun check => check.status = .passed) = true →
          (∀ check ∈ EvaluationCheckKind.all.map fun kind => checkOf kind (results.result kind),
            check.status = .passed) ∧ calibration = .calibrated := by
      intro hall
      simp only [List.all_eq_true, decide_eq_true_eq] at hall
      refine ⟨hall, hcalibration ?_⟩
      exact status_checkOf.mp (hall (checkOf .calibration (results.result .calibration))
        (List.mem_map_of_mem (by decide)))
    have hlater : (0 : ℤ) < daysOf policy.reportValidDays := by
      have hdays := policy.days.1
      rw [daysOf]
      omega
    refine ⟨h.strategyId, h.strategyVersion, ?_, ?_, ?_, ?_, ?_, ?_, ?_,
      ⟨hids.nodup_iff.mpr h.ids, hblank⟩, fun kind hkind => hkind, hpassed,
      ⟨request.timeline.1, request.timeline.2.1⟩, h.created, lt_add_of_pos_right createdAt hlater⟩
    · exact show EvaluationCheckKind.all.length ≤ 64 by decide
    · exact hmetrics.length_eq ▸ (by omega)
    · exact hmetrics.length_eq ▸ (by omega)
    · exact hlength ▸ hpos
    · exact hlength ▸ hfew
    · exact show EvaluationCheckKind.all.Nodup by decide
    · exact (hmetrics.map _).nodup_iff.mpr hkeys

omit [Hashing] in
theorem length_metrics (target : PerformanceMetrics) (results : List (String × PerformanceMetrics))
    (calibration : CalibrationResult) (pbo : Option Decimal) (count : ℕ) :
    (metrics target results calibration pbo count).length = 6 * results.length + 11 := by
  have hbaselines : (results.flatMap fun result =>
      performanceMetrics result.2 (segmentOf result.1)).length = 6 * results.length := by
    induction results with
    | nil => rfl
    | cons result results ih =>
        have hsix : (performanceMetrics result.2 (segmentOf result.1)).length = 6 := rfl
        rw [List.flatMap_cons, List.length_append, ih, List.length_cons, hsix]
        omega
  have hsix : (performanceMetrics target "candidate").length = 6 := rfl
  rw [metrics, List.length_append, List.length_append, hbaselines, hsix]
  simp only [List.length_cons, List.length_nil]
  omega

omit [Hashing] in
theorem withPredictions_ne_nil {value : CandidatePredictionSeries} (hsome : observations ≠ [])
    (haligned : value.predictions.length = observations.length) :
    withPredictions observations value ≠ [] := by
  rw [← List.length_pos_iff, withPredictions, List.length_zipWith, haligned, min_self]
  exact List.length_pos_iff.mpr hsome

omit [Hashing] in
/-- The metrics of the candidates, with their identifiers. -/
theorem baselineMetrics_spec {results : List (String × PerformanceMetrics)}
    (h : (candidates.mapM fun value => do
      let metrics ← calculateMetrics (withPredictions observations value) policy 1
      return (value.candidateId, metrics)) = Attempt.success results) :
    results.map (·.1) = candidates.map (·.candidateId) ∧
      ∀ value ∈ candidates,
        (calculateMetrics (withPredictions observations value) policy 1).Succeeds := by
  have hpaired := (Attempt.mapM_eq_success.mp h).imp fun value result hresult => by
    simp only [Attempt.bind_eq_success, Attempt.pure_eq, Attempt.success.injEq] at hresult
    exact hresult
  constructor
  · refine (hpaired.map_eq fun value result hresult => ?_).symm
    obtain ⟨_, -, rfl⟩ := hresult
    rfl
  · intro value hvalue
    obtain ⟨result, -, measured, hmeasured, -⟩ := hpaired.exists_right hvalue
    exact ⟨measured, hmeasured⟩

/-- Once there are figures, only the lengths of segments and of the list of baselines can refuse the
report. -/
theorem lengths_iff (splitCount : ℕ) (reportId : UUID) (reportArtifactRef : ArtifactRef)
    (h : Admitted request candidates createdAt) (target : PerformanceMetrics)
    {results : List (String × PerformanceMetrics)} (calibration : CalibrationResult)
    {costs : List CostScenario} (pbo : Option Decimal)
    (hids : results.map (·.1) = candidates.map (·.candidateId))
    (hcosts : evaluateCostSensitivity observations policy = .success costs) :
    ∃ checked, checks target results calibration.status costs pbo policy = .success checked ∧
      ((metrics target results calibration pbo splitCount).forM validateMetric = .success () ↔
        ∀ value ∈ candidates, value.candidateId.length ≤ 128) ∧
      ((reportOf request candidates policy reportId reportArtifactRef createdAt checked
        (metrics target results calibration pbo splitCount) calibration.status).validate =
          .success () ↔ candidates.length ≤ 64) := by
  have hlength : results.length = candidates.length := by
    have hcount := congrArg List.length hids
    rwa [List.length_map, List.length_map] at hcount
  have hresults : results ≠ [] := by
    rw [← List.length_pos_iff, hlength]
    exact List.length_pos_iff.mpr h.some
  have hscenarios : costs ≠ [] := by
    have hcount := (Attempt.mapM_eq_success.mp hcosts).length_eq
    rw [← List.length_pos_iff, ← hcount]
    exact policy.multipliers.1.1
  have hvalid : ∀ result ∈ results, isCandidateId result.1 = true := by
    intro result hresult
    have hmem : result.1 ∈ candidates.map (·.candidateId) := hids ▸ List.mem_map_of_mem hresult
    obtain ⟨value, hvalue, heq⟩ := List.mem_map.mp hmem
    exact heq ▸ h.valid value hvalue
  have hkeys := nodup_metricKeys (hids ▸ h.ids) hvalid target calibration pbo splitCount
  obtain ⟨checkResults, hchecked, hcalibrated⟩ := checks_eq target calibration.status pbo policy
    hresults hscenarios
  refine ⟨_, hchecked, ?_, validate_reportOf_iff h hcalibrated hkeys ?_⟩
  · have hsegments : (∀ result ∈ results, isCheckCode (segmentOf result.1) = true) ↔
        ∀ identifier ∈ results.map (·.1), isCheckCode (segmentOf identifier) = true := by
      rw [List.forall_mem_map]
    rw [validateMetrics_iff, hsegments, hids, List.forall_mem_map]
    exact forall₂_congr fun value hvalue => isCheckCode_segmentOf_iff (h.valid value hvalue)
  · rw [length_metrics, hlength]

/-- There is a report exactly when the input is presentable. -/
theorem judge_succeeds_iff (h : Admitted request candidates createdAt)
    (htwo : 2 ≤ observations.length) (hmany : observations.length ≤ 1000000)
    (haligned : Aligned observations candidates) :
    (judge request observations candidates policy splitCount reportId reportArtifactRef
      createdAt).Succeeds ↔ Presentable observations candidates policy ∧
        createdAt + daysOf policy.reportValidDays ≤ datetimeMax := by
  have hsome : observations ≠ [] := List.ne_nil_of_length_pos (by omega)
  have hprimary : (primaryCandidate request.manifest observations).predictions.length =
      observations.length := List.length_map _
  have hall : Aligned observations
      (candidates ++ [primaryCandidate request.manifest observations]) := by
    intro value hvalue
    rcases List.mem_append.mp hvalue with hvalue | hvalue
    · exact haligned value hvalue
    · rw [List.mem_singleton.mp hvalue, hprimary]
  have htwoCandidates :
      2 ≤ (candidates ++ [primaryCandidate request.manifest observations]).length := by
    have hpos := List.length_pos_iff.mpr h.some
    rw [List.length_append, List.length_singleton]
    omega
  have hestimate := estimate_succeeds_iff policy.groups htwoCandidates hall
  have hbaseline : ∀ value ∈ candidates,
      (calculateMetrics (withPredictions observations value) policy 1).Succeeds ↔
        MetricsFit (withPredictions observations value) policy 1 := fun value hvalue =>
    calculateMetrics_succeeds_iff (withPredictions_ne_nil hsome (haligned value hvalue))
  constructor
  · rintro ⟨report, hreport⟩
    simp only [judge, Attempt.bind_eq_success, Attempt.pure_eq, Attempt.success.injEq] at hreport
    obtain ⟨target, htarget, results, hresults, calibration, -, costs, hcosts, -, -, pbo, hpbo,
      checked, hchecked, _, hmetrics, _, hdate, _, hvalid, -⟩ := hreport
    obtain ⟨hids, hmeasured⟩ := baselineMetrics_spec hresults
    obtain ⟨checked', hchecked', hsegments, hcount⟩ := lengths_iff splitCount reportId
      reportArtifactRef h target calibration pbo hids hcosts
    obtain rfl : checked = checked' := Attempt.success.inj (hchecked.symm.trans hchecked')
    refine ⟨?_, Attempt.require_eq_success.mp hdate⟩
    exact {
      groups := hestimate.mp ⟨pbo, hpbo⟩
      segments := hsegments.mp hmetrics
      baselines := hcount.mp hvalid
      figures := (calculateMetrics_succeeds_iff hsome).mp ⟨target, htarget⟩
      baselineFigures := fun value hvalue => (hbaseline value hvalue).mp (hmeasured value hvalue)
      costs := (evaluateCostSensitivity_succeeds_iff hsome).mp ⟨costs, hcosts⟩ }
  · rintro ⟨hpresentable, hdate⟩
    obtain ⟨target, htarget⟩ := (calculateMetrics_succeeds_iff hsome).mpr hpresentable.figures
    obtain ⟨results, hresults⟩ : (candidates.mapM fun value => do
        let metrics ← calculateMetrics (withPredictions observations value) policy 1
        return (value.candidateId, metrics)).Succeeds := by
      rw [mapM_succeeds_iff]
      intro value hvalue
      rw [succeeds_bind]
      obtain ⟨measured, hmeasured⟩ :=
        (hbaseline value hvalue).mpr (hpresentable.baselineFigures value hvalue)
      exact ⟨measured, hmeasured, success_succeeds _⟩
    obtain ⟨calibration, hcalibration⟩ := evaluateCalibration_succeeds policy hsome hmany
    obtain ⟨costs, hcosts⟩ := (evaluateCostSensitivity_succeeds_iff hsome).mpr hpresentable.costs
    obtain ⟨pbo, hpbo⟩ := hestimate.mpr hpresentable.groups
    obtain ⟨checked, hchecked, hsegments, hcount⟩ := lengths_iff splitCount reportId
      reportArtifactRef h target calibration pbo (baselineMetrics_spec hresults).1 hcosts
    have hvalidated : (primaryCandidate request.manifest observations).validate = .success () := by
      simp only [CandidatePredictionSeries.validate, Attempt.bind_eq_success,
        raiseUnless_eq_success,
        atLeast_eq_success, maxLength_eq_success, exists_const, hprimary]
      exact ⟨isCandidateId_primary h.strategyId h.strategyVersion, htwo, hmany⟩
    simp only [judge, succeeds_bind]
    exact ⟨target, htarget, results, hresults, calibration, hcalibration, costs, hcosts, (),
      hvalidated, pbo, hpbo, checked, hchecked, (), hsegments.mpr hpresentable.segments, (),
      Attempt.require_of hdate _, (), hcount.mpr hpresentable.baselines, success_succeeds _⟩

/-! ## What is returned -/

def NeverFails {α : Type} (x : Call α) : Prop := ∀ e, x ≠ .failure e

namespace NeverFails

variable {α β : Type}

omit [Hashing] in
theorem success (a : α) : NeverFails (.success a) := fun _ h => by cases h

omit [Hashing] in
theorem bind {x : Call α} {f : α → Call β} (hx : NeverFails x) (hf : ∀ a, NeverFails (f a)) :
    NeverFails (x >>= f) := by
  intro e h
  rcases Attempt.bind_eq_failure.mp h with hfailed | ⟨a, -, hfailed⟩
  · exact hx e hfailed
  · exact hf a e hfailed

omit [Hashing] in
theorem raiseUnless {c : Prop} [Decidable c] {message : String} :
    NeverFails (raiseUnless c message) := fun _ => Attempt.require_ne_failure

omit [Hashing] in
theorem require {c : Prop} [Decidable c] {error : Exception} :
    NeverFails (Attempt.require c error) := fun _ => Attempt.require_ne_failure

omit [Hashing] in
theorem quantize {x : Decimal} : NeverFails (quantize x) := by
  intro e h
  unfold Evaluation.quantize at h
  dsimp only at h
  split at h <;> cases h

omit [Hashing] in
theorem mean {values : List Decimal} : NeverFails (mean values) := by
  intro e h
  unfold Evaluation.mean at h
  split at h <;> cases h

omit [Hashing] in
theorem mapM {f : α → Call β} {xs : List α} (hf : ∀ x, NeverFails (f x)) :
    NeverFails (xs.mapM f) := by
  induction xs with
  | nil => exact success []
  | cons x xs ih =>
      rw [List.mapM_cons]
      exact (hf x).bind fun y => ih.bind fun ys => success _

omit [Hashing] in
theorem forM {f : α → Call Unit} {xs : List α} (hf : ∀ x, NeverFails (f x)) :
    NeverFails (xs.forM f) := by
  induction xs with
  | nil => exact success ()
  | cons x xs ih => exact (hf x).bind fun _ => ih

omit [Hashing] in
theorem maxDrawdown {returns : List Decimal} : NeverFails (maxDrawdown returns) := by
  have hloop : ∀ state, NeverFails (returns.foldlM Drawdown.after state) := by
    induction returns with
    | nil => exact fun state => success state
    | cons value returns ih =>
        intro state
        rw [List.foldlM_cons]
        exact ((require.bind fun _ => success _).bind fun _ => success _).bind ih
  exact (hloop _).bind fun _ => success _

omit [Hashing] in
theorem calculateMetrics {multiplier : Decimal} :
    NeverFails (calculateMetrics observations policy multiplier) := by
  have hmean : ∀ values, NeverFails (Evaluation.mean values >>= Evaluation.quantize) :=
    fun values => mean.bind fun _ => quantize
  have hsharpe : ∀ returns, NeverFails (Evaluation.sharpe returns) := by
    intro returns
    refine mean.bind fun average => mean.bind fun variance => ?_
    split <;> exact success _
  exact (hmean _).bind fun _ => (hmean _).bind fun _ => raiseUnless.bind fun _ =>
    (hmean _).bind fun _ => quantize.bind fun _ => (maxDrawdown.bind fun _ => quantize).bind
    fun _ => quantize.bind fun _ => raiseUnless.bind fun _ => (hmean _).bind fun _ =>
      raiseUnless.bind fun _ =>
    ((hsharpe _).bind fun _ => quantize).bind fun _ => success _

omit [Hashing] in
theorem evaluateCalibration : NeverFails (evaluateCalibration observations policy) := by
  have hmean : ∀ values, NeverFails (meanOrZero values) := by
    intro values
    unfold meanOrZero
    split
    · exact success _
    · exact mean.bind fun _ => quantize
  have hbucket : ∀ index, NeverFails (calibrationBucket observations policy index) := fun index =>
    quantize.bind fun _ => quantize.bind fun _ => (hmean _).bind fun _ => (hmean _).bind fun _ =>
    raiseUnless.bind fun _ => raiseUnless.bind fun _ => raiseUnless.bind fun _ =>
    raiseUnless.bind fun _ => success _
  exact (mean.bind fun _ => quantize).bind fun _ => (mapM hbucket).bind fun _ =>
    quantize.bind fun _ => raiseUnless.bind fun _ => raiseUnless.bind fun _ => success _

omit [Hashing] in
theorem evaluateCostSensitivity : NeverFails (evaluateCostSensitivity observations policy) :=
  mapM fun _ => (mean.bind fun _ => quantize).bind fun _ => quantize.bind fun _ =>
    raiseUnless.bind fun _ => success _

omit [Hashing] in
theorem estimate {groups : ℕ} :
    NeverFails (estimateProbabilityOfBacktestOverfitting observations candidates groups) := by
  have hkeyed : ∀ indices value, NeverFails (keyed observations indices value) :=
    fun indices value => mean.bind fun _ => success _
  unfold estimateProbabilityOfBacktestOverfitting
  split
  · exact success none
  · refine raiseUnless.bind fun _ => raiseUnless.bind fun _ => bind (mapM fun _ => ?_) fun _ =>
      quantize.bind fun _ => success _
    exact (mapM fun _ => hkeyed _ _).bind fun _ => (mapM fun _ => hkeyed _ _).bind fun _ =>
      success _

omit [Hashing] in
theorem checks {target : PerformanceMetrics} {baselines : List (String × PerformanceMetrics)}
    {calibration : ConfidenceCalibration} {costs : List CostScenario} {pbo : Option Decimal} :
    NeverFails (checks target baselines calibration costs pbo policy) := by
  have hmax : ∀ values, NeverFails (maxOf values) := by
    intro values
    cases values <;> simp [NeverFails, maxOf]
  have hmin : ∀ values, NeverFails (minOf values) := by
    intro values
    cases values <;> simp [NeverFails, minOf]
  exact (hmax _).bind fun _ => (hmin _).bind fun _ => success _

end NeverFails

theorem judge_neverFails : NeverFails (judge request observations candidates policy splitCount
    reportId reportArtifactRef createdAt) := by
  have hcandidate : ∀ value : CandidatePredictionSeries, NeverFails value.validate := fun value =>
    NeverFails.raiseUnless.bind fun _ => NeverFails.raiseUnless.bind fun _ => NeverFails.raiseUnless
  have hmetric : ∀ metric, NeverFails (validateMetric metric) := fun metric =>
    NeverFails.raiseUnless.bind fun _ => NeverFails.raiseUnless
  have hreport : ∀ report : EvaluationReport, NeverFails report.validate := by
    intro report
    unfold EvaluationReport.validate
    iterate 13 refine NeverFails.bind NeverFails.raiseUnless fun _ => ?_
    exact NeverFails.raiseUnless
  exact NeverFails.calculateMetrics.bind fun _ =>
    (NeverFails.mapM fun _ => NeverFails.calculateMetrics.bind fun _ => NeverFails.success _).bind
      fun _ => NeverFails.evaluateCalibration.bind fun _ => NeverFails.evaluateCostSensitivity.bind
      fun _ => (hcandidate _).bind fun _ => NeverFails.estimate.bind fun _ => NeverFails.checks.bind
      fun _ => (NeverFails.forM hmetric).bind fun _ => NeverFails.require.bind fun _ =>
        (hreport _).bind
      fun _ => NeverFails.success _

/-- The input passes the checks that report a failure. -/
structure Judged (request : EvaluationRequest) (dataset : EvaluationDataset)
    (baselines : List CandidatePredictionSeries) (policy : EvaluationPolicy)
    (createdAt : UTCDateTime) (splits : List WalkForwardSplit) : Prop where
  bound : Bound request dataset baselines policy createdAt
  audited : auditDataset dataset = .success {}
  split : buildPurgedWalkForwardSplits dataset policy = .success splits
  counted : policy.minimumObservations ≤ (outOfSample dataset splits).length

/-- The gate returns exactly when the tested observations, the baselines and the policy are
presentable and the report does not outlast the calendar, once the checks that report a failure have
passed. -/
theorem evaluateForPromotion_returns_iff {dataset : EvaluationDataset}
    {baselines : List CandidatePredictionSeries}
    (hmanifest : request.manifest.validate = .success ())
    (hbaselines : ∀ value ∈ baselines, value.validate = .success ()) :
    (evaluateForPromotion request dataset baselines policy reportId reportArtifactRef
      createdAt).Returns ↔ ∀ splits, Judged request dataset baselines policy createdAt splits →
        Presentable (outOfSample dataset splits)
          (baselines.map (outOfSampleBaseline dataset splits)) policy ∧
            createdAt + daysOf policy.reportValidDays ≤ datetimeMax := by
  have hjudge : ∀ splits, Judged request dataset baselines policy createdAt splits →
      ((judge request (outOfSample dataset splits)
        (baselines.map (outOfSampleBaseline dataset splits))
        policy splits.length reportId reportArtifactRef createdAt).Succeeds ↔
          Presentable (outOfSample dataset splits)
            (baselines.map (outOfSampleBaseline dataset splits)) policy ∧
              createdAt + daysOf policy.reportValidDays ≤ datetimeMax) := by
    intro splits hjudged
    have hbound := hjudged.bound
    have hids : (baselines.map (outOfSampleBaseline dataset splits)).map (·.candidateId) =
        baselines.map (·.candidateId) := by
      rw [List.map_map]
      rfl
    have hselected : (outOfSample dataset splits).length ≤ dataset.observations.length := by
      rw [outOfSample_eq]
      exact List.length_filter_le _ _
    simp only [StrategyManifest.validate, checkCode, versionText, Attempt.bind_eq_success,
      raiseUnless_eq_success, exists_const] at hmanifest
    refine judge_succeeds_iff ⟨hmanifest.1, hmanifest.2.1, ?_, ?_, ?_, hbound.2.2.2.2.1⟩
      (policy.sizes.1.1.trans hjudged.counted) (hselected.trans dataset.counted.2) ?_
    · simpa using hbound.2.2.2.2.2.2.2.1
    · rw [hids]
      exact hbound.2.2.2.2.2.2.2.2.1
    · intro value hvalue
      obtain ⟨baseline, hbaseline, rfl⟩ := List.mem_map.mp hvalue
      have hid := candidateId_of_validate (hbaselines baseline hbaseline)
      exact hid
    · intro value hvalue
      obtain ⟨baseline, hbaseline, rfl⟩ := List.mem_map.mp hvalue
      exact length_outOfSampleBaseline (hbound.2.2.2.2.2.2.2.2.2.1 baseline hbaseline)
  rw [evaluateForPromotion_eq_judge]
  constructor
  · intro hreturns splits hjudged
    rw [failUnless_eq_success (u := ()) |>.mpr hjudged.bound, Attempt.success_bind, hjudged.audited,
      Attempt.success_bind, hjudged.split, Attempt.success_bind,
      failUnless_eq_success (u := ()) |>.mpr hjudged.counted, Attempt.success_bind] at hreturns
    exact (hjudge splits hjudged).mp (hreturns.succeeds judge_neverFails)
  · intro hpresentable e hraised
    rcases Attempt.bind_eq_raised.mp hraised with h | ⟨_, hbound, hraised⟩
    · exact Attempt.demand_ne_raised h
    rcases Attempt.bind_eq_raised.mp hraised with h | ⟨summary, haudited, hraised⟩
    · unfold auditDataset at h
      split at h <;> cases h
    rcases Attempt.bind_eq_raised.mp hraised with h | ⟨splits, hsplits, hraised⟩
    · rcases Attempt.bind_eq_raised.mp h with h | ⟨_, -, h⟩
      · exact Attempt.demand_ne_raised h
      · cases h
    rcases Attempt.bind_eq_raised.mp hraised with h | ⟨_, hcounted, hraised⟩
    · exact Attempt.demand_ne_raised h
    have hempty : auditDataset dataset = .success {} := by
      unfold auditDataset at haudited ⊢
      split at haudited
      · cases haudited
      · rfl
    have hjudged : Judged request dataset baselines policy createdAt splits :=
      ⟨failUnless_eq_success.mp hbound, hempty, hsplits, failUnless_eq_success.mp hcounted⟩
    obtain ⟨report, hreport⟩ := (hjudge splits hjudged).mpr (hpresentable splits hjudged)
    rw [hreport] at hraised
    cases hraised

end Evaluation

/-! ## An odd number of groups -/

namespace EvaluationScenario

open Evaluation
open scoped CodeHashing

theorem manifest_validate : manifest.validate = .success () := by decide

theorem evaluateForPromotion_returns_iff_flat :
    (evaluateForPromotion request dataset [flat] policy 1 5 150).Returns ↔
      ∀ splits, Judged request dataset [flat] policy 150 splits →
        Presentable (outOfSample dataset splits) ([flat].map (outOfSampleBaseline dataset splits))
          policy ∧ 150 + daysOf policy.reportValidDays ≤ datetimeMax :=
  evaluateForPromotion_returns_iff manifest_validate
    fun value hvalue => by rw [List.mem_singleton.mp hvalue, flat_validate]

def twelveDays : EvaluationDataset where
  datasetSnapshotId := 1
  dataHash := 2
  asOf := 200
  universeArtifactRef := 3
  observations := (List.range 12).map observation
  counted := by decide
  unique := by decide
  ordered := by decide

def oddPolicy : EvaluationPolicy := { policy with cpcvGroups := 5, groups := by decide }

def oddRequest : EvaluationRequest :=
  { request with
    asOf := 200
    windowEnd := 200
    requestedAt := 200
    deadlineAt := 300
    evaluationPolicyHash := oddPolicy.policyHash
    timeline := by decide }

def idleBaseline : CandidatePredictionSeries := ⟨"idle/1.0.0", List.replicate 12 0⟩

/-- The policy admits five groups, and ten tested observations are enough to split them. -/
theorem odd_groups_raise : oddRequest.manifest.validate = .success () ∧
    idleBaseline.validate = .success () ∧
    evaluateForPromotion oddRequest twelveDays [idleBaseline] oddPolicy 1 5 250 =
      .raised (.valueError "CPCV groups must be an even value between four and eight") :=
  ⟨manifest_validate, by decide, by decide +kernel⟩

end EvaluationScenario

end StonksPaper
