import StonksPaper.Evaluation.Contracts

/-!
# Walk-forward splits

`leakage.py` and the splits of `walk_forward.py`. A split trains on a window of observations and
tests on a later one; the gap between them is counted in observations, while the label of an
observation becomes available at a time of its own.
-/

namespace StonksPaper

namespace Evaluation

/-! ## The audit of a dataset -/

def contaminationReason (observation : EvaluationObservation) (dataset : EvaluationDataset) :
    Option String :=
  if observation.availabilityCertainty ≠ .proven then some "publication_lag_unknown"
  else if observation.predictionAt < observation.eventAt ∨
      observation.predictionAt < observation.featureAvailableAt then
    some "feature_not_available_at_prediction"
  else if observation.featureAvailableAt < observation.eventAt then
    some "feature_availability_precedes_event"
  else if observation.outcomeAt ≤ observation.predictionAt ∨
      observation.labelAvailableAt ≤ observation.predictionAt then some "label_leakage"
  else if dataset.asOf < observation.labelAvailableAt then some "outcome_unavailable_at_as_of"
  else if observation.labelAvailableAt < observation.outcomeAt then
    some "label_availability_precedes_outcome"
  else if observation.predictionAt < observation.universeKnownAt then
    some "historical_universe_unknown"
  else if observation.inHistoricalUniverse = false then some "survivorship_contamination"
  else none

/-- The first reason of an observation is reported. -/
def auditDataset (dataset : EvaluationDataset) : Call EvaluationAuditSummary :=
  match dataset.observations.findSome? fun observation =>
    contaminationReason observation dataset with
  | some reason => .failure {
      code := .invalidInput
      message := "Evaluation dataset failed point-in-time audit"
      details := [("reason_code", reason)] }
  | none => return {}

/-! ## Splits -/

/-- `observations[start:stop]`. -/
def slice {α : Type} (observations : List α) (start stop : ℕ) : List α :=
  (observations.drop start).take (stop - start)

variable (dataset : EvaluationDataset) (policy : EvaluationPolicy)

def gap : ℕ := policy.purgeObservations + policy.embargoObservations

/-- The split whose test window begins at a position. -/
def splitAt (splitId testStart : ℕ) : WalkForwardSplit :=
  let trainEnd := testStart - gap policy
  let trainStart := trainEnd - policy.trainSize
  { splitId := splitId
    trainObservationIds := (slice dataset.observations trainStart trainEnd).map (·.observationId)
    testObservationIds :=
      (slice dataset.observations testStart (testStart + policy.testSize)).map (·.observationId)
    purgeObservations := policy.purgeObservations
    embargoObservations := policy.embargoObservations }

/-- The loop of `build_purged_walk_forward_splits`; the position grows in every round. -/
def splitsFrom : ℕ → ℕ → ℕ → List WalkForwardSplit
  | 0, _, _ => []
  | rounds + 1, splitId, testStart =>
      if testStart + policy.testSize ≤ dataset.observations.length then
        splitAt dataset policy splitId testStart ::
          splitsFrom rounds (splitId + 1) (testStart + policy.stepSize)
      else []

def buildPurgedWalkForwardSplits : Call (List WalkForwardSplit) := do
  let splits := splitsFrom dataset policy dataset.observations.length 1
    (policy.trainSize + gap policy)
  failUnless (policy.minimumSplits ≤ splits.length) .invalidInput
    "Evaluation dataset cannot satisfy walk-forward policy"
  return splits

/-! ## Test windows -/

/-- The positions at which the test windows begin. -/
def TestStart (testStart : ℕ) : Prop :=
  testStart + policy.testSize ≤ dataset.observations.length ∧
    ∃ k, testStart = policy.trainSize + gap policy + k * policy.stepSize

variable {dataset policy} {splits : List WalkForwardSplit} {split : WalkForwardSplit}
  {summary : EvaluationAuditSummary}

/-- The loop visits every start that is left, as long as it has rounds for them. -/
theorem mem_splitsFrom {rounds splitId start : ℕ}
    (hrounds : dataset.observations.length ≤ start + rounds) :
    split ∈ splitsFrom dataset policy rounds splitId start ↔
      ∃ k, start + k * policy.stepSize + policy.testSize ≤ dataset.observations.length ∧
        split = splitAt dataset policy (splitId + k) (start + k * policy.stepSize) := by
  have htest := policy.sizes.2.2.1.1
  have hstep := policy.sizes.2.2.2.1
  induction rounds generalizing splitId start with
  | zero =>
      simp only [splitsFrom, List.not_mem_nil, false_iff, not_exists, not_and]
      intro k hfits
      have hle : start ≤ start + k * policy.stepSize := Nat.le_add_right _ _
      omega
  | succ rounds ih =>
      rw [splitsFrom]
      have hrest := @ih (splitId + 1) (start + policy.stepSize) (by omega)
      by_cases hfits : start + policy.testSize ≤ dataset.observations.length
      · rw [if_pos hfits, List.mem_cons]
        refine (or_congr_right hrest).trans ?_
        constructor
        · rintro (rfl | ⟨k, hk, rfl⟩)
          · exact ⟨0, by simpa using hfits, by simp⟩
          · have hnext : start + policy.stepSize + k * policy.stepSize =
                start + (k + 1) * policy.stepSize := by ring
            have hid : splitId + 1 + k = splitId + (k + 1) := by omega
            refine ⟨k + 1, ?_, ?_⟩
            · rw [← hnext]
              exact hk
            · rw [hid, hnext]
        · rintro ⟨k, hk, rfl⟩
          cases k with
          | zero => exact .inl (by simp)
          | succ k =>
              have hnext : start + policy.stepSize + k * policy.stepSize =
                  start + (k + 1) * policy.stepSize := by ring
              have hid : splitId + 1 + k = splitId + (k + 1) := by omega
              refine .inr ⟨k, ?_, ?_⟩
              · rw [hnext]
                exact hk
              · rw [hid, hnext]
      · rw [if_neg hfits]
        simp only [List.not_mem_nil, false_iff, not_exists, not_and]
        intro k hk
        have hle : start ≤ start + k * policy.stepSize := Nat.le_add_right _ _
        omega

theorem buildPurgedWalkForwardSplits_eq_success :
    buildPurgedWalkForwardSplits dataset policy = .success splits ↔
      policy.minimumSplits ≤ splits.length ∧
        splitsFrom dataset policy dataset.observations.length 1 (policy.trainSize + gap policy) =
          splits := by
  simp only [buildPurgedWalkForwardSplits, Attempt.bind_eq_success, failUnless_eq_success,
    Attempt.pure_eq, Attempt.success.injEq, exists_const]
  constructor
  · rintro ⟨hcount, rfl⟩
    exact ⟨hcount, rfl⟩
  · rintro ⟨hcount, rfl⟩
    exact ⟨hcount, rfl⟩

/-! ## Windows -/

theorem mem_slice {α : Type} {xs : List α} {x : α} {start stop : ℕ} :
    x ∈ slice xs start stop ↔ ∃ i, start ≤ i ∧ i < stop ∧ xs[i]? = some x := by
  rw [slice, List.mem_iff_getElem?]
  constructor
  · rintro ⟨k, hk⟩
    rw [List.getElem?_take] at hk
    split at hk
    · rename_i hlt
      rw [List.getElem?_drop] at hk
      exact ⟨start + k, by omega, by omega, hk⟩
    · cases hk
  · rintro ⟨i, hstart, hstop, hi⟩
    refine ⟨i - start, ?_⟩
    have hindex : start + (i - start) = i := by omega
    rw [List.getElem?_take, if_pos (by omega), List.getElem?_drop, hindex]
    exact hi

theorem slice_append_drop {α : Type} (xs : List α) {start stop : ℕ} (h : start ≤ stop) :
    slice xs start stop ++ xs.drop stop = xs.drop start := by
  have hdrop : (xs.drop start).drop (stop - start) = xs.drop stop := by
    rw [List.drop_drop]
    congr 1
    omega
  rw [slice, ← hdrop, List.take_append_drop]

theorem length_slice {α : Type} {xs : List α} {start stop : ℕ} (h : stop ≤ xs.length) :
    (slice xs start stop).length = stop - start := by
  rw [slice, List.length_take, List.length_drop]
  omega

/-! ## Purged splits -/

variable (dataset policy) in
/-- What a split promises: its windows follow each other at the agreed distance, and every label
that it trains on is available when its first test observation is predicted. -/
structure Purged (split : WalkForwardSplit) : Prop where
  windows : ∃ before train between test after : List EvaluationObservation,
    dataset.observations = before ++ (train ++ (between ++ (test ++ after))) ∧
      split.trainObservationIds = train.map (·.observationId) ∧
      split.testObservationIds = test.map (·.observationId) ∧
      train.length = policy.trainSize ∧ test.length = policy.testSize ∧
      between.length = policy.purgeObservations + policy.embargoObservations
  disjoint : split.trainObservationIds.Disjoint split.testObservationIds
  labelled : ∀ trained ∈ dataset.observations,
    trained.observationId ∈ split.trainObservationIds → ∀ first ∈ dataset.observations,
      split.testObservationIds.head? = some first.observationId →
        trained.labelAvailableAt ≤ first.predictionAt

/-- The horizon of a label in observations: how many later predictions are made before it is
available. -/
def labelHorizon (observations : List EvaluationObservation) (i : ℕ) : ℕ :=
  match observations[i]? with
  | some observation => ((observations.drop (i + 1)).filter
      (·.predictionAt < observation.labelAvailableAt)).length
  | none => 0

variable (dataset policy) in
/-- No label horizon reaches from a training window over the gap to the test window. -/
def HorizonsFit : Prop :=
  ∀ testStart, TestStart dataset policy testStart → ∀ i,
    testStart ≤ i + gap policy + policy.trainSize → i + gap policy < testStart →
      labelHorizon dataset.observations i < testStart - i

/-- Of a property that later elements pass on to earlier ones, the elements that have it come
first. -/
theorem length_filter_le_iff {α : Type} {p : α → Bool} {xs : List α}
    (hclosed : xs.Pairwise fun x y => p y = true → p x = true) {k : ℕ} {x : α}
    (hx : xs[k]? = some x) : (xs.filter p).length ≤ k ↔ ¬ p x = true := by
  induction xs generalizing k with
  | nil => cases hx
  | cons y xs ih =>
      obtain ⟨hfirst, hrest⟩ := List.pairwise_cons.mp hclosed
      by_cases hy : p y = true
      · rw [List.filter_cons_of_pos hy, List.length_cons]
        cases k with
        | zero =>
            obtain rfl : y = x := by simpa using hx
            simp [hy]
        | succ k =>
            rw [← ih hrest (by simpa using hx)]
            omega
      · have hnone : xs.filter p = [] := by
          rw [List.filter_eq_nil_iff]
          exact fun z hz hpz => hy (hfirst z hz hpz)
        rw [List.filter_cons_of_neg hy, hnone]
        have hnot : ¬ p x = true := by
          rcases List.mem_cons.mp (List.mem_of_getElem? hx) with rfl | hmem
          · exact hy
          · exact fun hpx => hy (hfirst x hmem hpx)
        simp [hnot]

/-- A label is available at a later prediction exactly when its horizon ends before it. -/
theorem labelHorizon_lt_iff {trained first : EvaluationObservation} {i testStart : ℕ}
    (htrained : dataset.observations[i]? = some trained)
    (hfirst : dataset.observations[testStart]? = some first) (hlt : i < testStart) :
    labelHorizon dataset.observations i < testStart - i ↔
      trained.labelAvailableAt ≤ first.predictionAt := by
  have hlater : (dataset.observations.drop (i + 1))[testStart - (i + 1)]? = some first := by
    rw [List.getElem?_drop]
    have hindex : i + 1 + (testStart - (i + 1)) = testStart := by omega
    rw [hindex]
    exact hfirst
  have hclosed : (dataset.observations.drop (i + 1)).Pairwise fun earlier later =>
      decide (later.predictionAt < trained.labelAvailableAt) = true →
        decide (earlier.predictionAt < trained.labelAvailableAt) = true := by
    refine (dataset.ordered.sublist (List.drop_sublist _ _)).imp fun hordered hlate => ?_
    simp only [decide_eq_true_eq] at hlate ⊢
    exact hordered.trans hlate
  have hcount := length_filter_le_iff hclosed hlater
  rw [decide_eq_true_iff, not_lt] at hcount
  rw [labelHorizon, htrained, ← hcount]
  show (List.filter _ _).length < testStart - i ↔ _
  omega

theorem mem_slice_of_id {observation : EvaluationObservation}
    (hmem : observation ∈ dataset.observations) {start stop : ℕ} :
    observation.observationId ∈ (slice dataset.observations start stop).map (·.observationId) ↔
      observation ∈ slice dataset.observations start stop := by
  constructor
  · intro h
    obtain ⟨other, hother, hid⟩ := List.mem_map.mp h
    obtain ⟨i, -, -, hi⟩ := mem_slice.mp hother
    rw [← List.inj_on_of_nodup_map dataset.unique (List.mem_of_getElem? hi) hmem hid]
    exact hother
  · exact fun h => List.mem_map_of_mem h

/-- The windows of a split, and what is between them. -/
theorem windows_splitAt {testStart : ℕ} (h : TestStart dataset policy testStart) (splitId : ℕ) :
    ∃ before train between test after : List EvaluationObservation,
      dataset.observations = before ++ (train ++ (between ++ (test ++ after))) ∧
        (splitAt dataset policy splitId testStart).trainObservationIds =
          train.map (·.observationId) ∧
        (splitAt dataset policy splitId testStart).testObservationIds =
          test.map (·.observationId) ∧
        train.length = policy.trainSize ∧ test.length = policy.testSize ∧
        between.length = policy.purgeObservations + policy.embargoObservations := by
  obtain ⟨hfits, k, hstart⟩ := h
  have hafter : policy.trainSize + gap policy ≤ testStart := by
    rw [hstart]
    exact Nat.le_add_right _ _
  have hgap : gap policy = policy.purgeObservations + policy.embargoObservations := rfl
  refine ⟨dataset.observations.take (testStart - gap policy - policy.trainSize),
    slice dataset.observations (testStart - gap policy - policy.trainSize)
      (testStart - gap policy),
    slice dataset.observations (testStart - gap policy) testStart,
    slice dataset.observations testStart (testStart + policy.testSize),
    dataset.observations.drop (testStart + policy.testSize), ?_, rfl, rfl, ?_, ?_, ?_⟩
  · rw [slice_append_drop _ (by omega), slice_append_drop _ (by omega),
      slice_append_drop _ (by omega), List.take_append_drop]
  · rw [length_slice (by omega)]
    omega
  · rw [length_slice hfits]
    omega
  · rw [length_slice (by omega)]
    omega

theorem disjoint_of_windows {before train between test after : List EvaluationObservation}
    (h : dataset.observations = before ++ (train ++ (between ++ (test ++ after)))) :
    (train.map (·.observationId)).Disjoint (test.map (·.observationId)) := by
  have hunique := dataset.unique
  rw [h] at hunique
  simp only [List.map_append, List.nodup_append'] at hunique
  obtain ⟨-, ⟨-, -, hdisjoint⟩, -⟩ := hunique
  intro id htrain htest
  exact hdisjoint htrain (List.mem_append_right _ (List.mem_append_left _ htest))

/-- A split is purged exactly when no horizon of its training window reaches its test window. -/
theorem purged_splitAt_iff {testStart : ℕ} (h : TestStart dataset policy testStart)
    (splitId : ℕ) :
    Purged dataset policy (splitAt dataset policy splitId testStart) ↔
      ∀ i, testStart ≤ i + gap policy + policy.trainSize → i + gap policy < testStart →
        labelHorizon dataset.observations i < testStart - i := by
  have htest := policy.sizes.2.2.1.1
  have hfits := h.1
  have hbound : testStart < dataset.observations.length := by omega
  have hfirst : dataset.observations[testStart]? = some dataset.observations[testStart] :=
    List.getElem?_eq_getElem hbound
  have hhead : (splitAt dataset policy splitId testStart).testObservationIds.head? =
      some dataset.observations[testStart].observationId := by
    show ((slice _ _ _).map _).head? = _
    rw [slice, List.head?_map, List.head?_take, if_neg (by omega), List.head?_drop, hfirst]
    rfl
  constructor
  · intro hpurged i hlow hhigh
    have hi : dataset.observations[i]? = some dataset.observations[i] :=
      List.getElem?_eq_getElem (by omega)
    rw [labelHorizon_lt_iff hi hfirst (by omega)]
    refine hpurged.labelled _ (List.getElem_mem _) ?_ _ (List.getElem_mem _) hhead
    exact List.mem_map_of_mem (mem_slice.mpr ⟨i, by omega, by omega, hi⟩)
  · intro hhorizons
    obtain ⟨before, train, between, test, after, hobservations, htrainIds, htestIds, hlengths⟩ :=
      windows_splitAt h splitId
    refine ⟨⟨before, train, between, test, after, hobservations, htrainIds, htestIds, hlengths⟩,
      ?_, fun trained htrained hid first hmem hsame => ?_⟩
    · rw [htrainIds, htestIds]
      exact disjoint_of_windows hobservations
    · rw [hhead, Option.some.injEq] at hsame
      have hequal := List.inj_on_of_nodup_map dataset.unique (List.getElem_mem hbound) hmem hsame
      obtain ⟨i, hlow, hhigh, hi⟩ := mem_slice.mp ((mem_slice_of_id htrained).mp hid)
      have hlater := hhorizons i (by omega) (by omega)
      rw [labelHorizon_lt_iff hi hfirst (by omega)] at hlater
      rw [← hequal]
      exact hlater

/-- The splits are purged exactly when no label horizon, counted in observations, reaches over the
gap. -/
theorem splits_purged_iff (h : buildPurgedWalkForwardSplits dataset policy = .success splits) :
    (∀ split ∈ splits, Purged dataset policy split) ↔ HorizonsFit dataset policy := by
  obtain ⟨-, rfl⟩ := buildPurgedWalkForwardSplits_eq_success.mp h
  have hmem : ∀ split, split ∈ splitsFrom dataset policy dataset.observations.length 1
      (policy.trainSize + gap policy) ↔ _ := fun split => mem_splitsFrom (by omega)
  constructor
  · intro hpurged testStart hstart
    obtain ⟨hfits, k, rfl⟩ := hstart
    have hsplit := hpurged _ ((hmem _).mpr ⟨k, hfits, rfl⟩)
    exact (purged_splitAt_iff ⟨hfits, k, rfl⟩ _).mp hsplit
  · intro hhorizons split hsplit
    obtain ⟨k, hfits, rfl⟩ := (hmem split).mp hsplit
    exact (purged_splitAt_iff ⟨hfits, k, rfl⟩ _).mpr (hhorizons _ ⟨hfits, k, rfl⟩)

end Evaluation

/-! ## A label that reaches the test window -/

namespace EvaluationScenario

open Evaluation

/-- A prediction each day; the label is available after a day and a half. -/
def observation (day : ℕ) : EvaluationObservation where
  observationId := day
  instrumentId := 1
  eventAt := 10 * day
  featureAvailableAt := 10 * day
  predictionAt := 10 * day
  outcomeAt := 10 * day + 10
  labelAvailableAt := 10 * day + 15
  universeKnownAt := 0
  availabilityCertainty := .proven
  inHistoricalUniverse := true
  predictedReturn := 1 / 100
  actualReturn := 1 / 50
  benchmarkReturn := 1 / 1000
  directionProbability := 1
  turnover := 1
  realized_ge := by decide +kernel
  probability_unit := by decide +kernel
  turnover_nonneg := by decide +kernel

def dataset : EvaluationDataset where
  datasetSnapshotId := 1
  dataHash := 2
  asOf := 100
  universeArtifactRef := 3
  observations := [observation 0, observation 1, observation 2, observation 3]
  counted := by decide
  unique := by decide
  ordered := by decide

/-- Two observations to train on, one to test, and nothing between them. -/
def policy : EvaluationPolicy where
  minimumObservations := 2
  trainSize := 2
  testSize := 1
  stepSize := 1
  purgeObservations := 0
  embargoObservations := 0
  minimumSplits := 1
  cpcvGroups := 4
  maxPbo := 1 / 2
  feeBps := 0
  slippageBps := 0
  costMultipliers := [1]
  minimumNetAlpha := 0
  maximumDrawdown := 1 / 4
  maximumBrierScore := 1 / 4
  maximumCalibrationError := 1 / 4
  calibrationBuckets := 2
  reportValidDays := 30
  sizes := by decide
  gaps := by decide
  splits := by decide
  groups := by decide
  limits := by decide +kernel
  costs := by decide +kernel
  multipliers := by decide +kernel
  buckets := by decide
  days := by decide

def splits : List WalkForwardSplit := [⟨1, [0, 1], [2], 0, 0⟩, ⟨2, [1, 2], [3], 0, 0⟩]

theorem build_eq : buildPurgedWalkForwardSplits dataset policy = .success splits := by
  decide +kernel

theorem splits_purged_iff_daily :
    (∀ split ∈ splits, Purged dataset policy split) ↔ HorizonsFit dataset policy :=
  splits_purged_iff build_eq

/-- The dataset passes the audit, and the first split trains on a label of the day after the
prediction that it tests. -/
theorem label_leaks : auditDataset dataset = .success {} ∧
    buildPurgedWalkForwardSplits dataset policy = .success splits ∧
    ¬ ∀ split ∈ splits, Purged dataset policy split := by
  refine ⟨by decide +kernel, build_eq, fun h => ?_⟩
  have hpurged := h ⟨1, [0, 1], [2], 0, 0⟩ (by decide)
  have hlate := hpurged.labelled (observation 1) (by decide +kernel) (by decide) (observation 2)
    (by decide +kernel) (by decide)
  exact absurd hlate (by decide)

end EvaluationScenario

end StonksPaper
