import StonksPaper.Base.Averages
import StonksPaper.Base.Context
import StonksPaper.Evaluation.Figures

/-!
# Calibration in exact arithmetic

`calibration.py` in any context; the default one gives the calibration of a report. In exact
arithmetic only the printed figures are rounded, to twelve places. The buckets cut the observations
into groups, so the calibration error before it is printed is a gap between group averages.
-/

namespace StonksPaper

namespace Evaluation

open Averages

/-! ## Any context -/

section context

variable (context : Context)

def meanIn (values : List Decimal) : Call Decimal :=
  if values = [] then .raised (.valueError "cannot calculate mean of empty values")
  else return context.round (context.sum values / values.length)

/-- `quantize(mean(values)) if values else Decimal(0)`. -/
def meanOrZeroIn (values : List Decimal) : Call Decimal :=
  if values = [] then return 0 else meanIn context values >>= quantize

/-- `min(int(probability * count), count - 1)`. -/
def bucketIndexIn (policy : EvaluationPolicy) (value : EvaluationObservation) : ℕ :=
  min ⌊context.round (value.directionProbability * policy.calibrationBuckets)⌋.toNat
    (policy.calibrationBuckets - 1)

/-- A bucket of `_buckets`. -/
def calibrationBucketIn (observations : List EvaluationObservation) (policy : EvaluationPolicy)
    (index : ℕ) : Call CalibrationBucket := do
  let count := policy.calibrationBuckets
  let width := context.round (1 / count)
  let members := observations.filter fun value => bucketIndexIn context policy value = index
  let lowerBound ← quantize (context.round (width * index))
  let upperBound ← quantize (context.round (width * (index + 1)))
  let meanProbability ← meanOrZeroIn context (members.map (·.directionProbability))
  let observedFrequency ← meanOrZeroIn context (members.map actual)
  unitDecimal lowerBound
  unitDecimal upperBound
  unitDecimal meanProbability
  unitDecimal observedFrequency
  return ⟨lowerBound, upperBound, members.length, meanProbability, observedFrequency⟩

def evaluateCalibrationIn (observations : List EvaluationObservation) (policy : EvaluationPolicy) :
    Call CalibrationResult := do
  let brier ← meanIn context (observations.map fun value =>
    context.square (context.round (value.directionProbability - actual value))) >>= quantize
  let buckets ← (List.range policy.calibrationBuckets).mapM
    (calibrationBucketIn context observations policy)
  let error ← quantize (context.sum (buckets.map fun bucket =>
    context.round (context.round (bucket.count / observations.length) *
      |context.round (bucket.meanProbability - bucket.observedFrequency)|)))
  unitDecimal brier
  unitDecimal error
  return {
    status := if policy.minimumObservations ≤ observations.length ∧
      brier ≤ policy.maximumBrierScore ∧ error ≤ policy.maximumCalibrationError
      then .calibrated else .uncalibrated
    brierScore := brier
    expectedCalibrationError := error
    buckets := buckets }

theorem evaluateCalibrationIn_default :
    evaluateCalibrationIn (.significant 28) = evaluateCalibration :=
  rfl

end context

/-! ## Exact arithmetic -/

variable {observations : List EvaluationObservation} {policy : EvaluationPolicy}

abbrev bucketIndex (policy : EvaluationPolicy) (value : EvaluationObservation) : ℕ :=
  bucketIndexIn .exact policy value

/-- A bucket, with its figures to twelve places. -/
def bucketOf (observations : List EvaluationObservation) (policy : EvaluationPolicy) (index : ℕ) :
    CalibrationBucket where
  lowerBound := shown (1 / policy.calibrationBuckets * index)
  upperBound := shown (1 / policy.calibrationBuckets * (index + 1))
  count := (members (bucketIndex policy) observations index).length
  meanProbability :=
    shown (average ((members (bucketIndex policy) observations index).map (·.directionProbability)))
  observedFrequency :=
    shown (average ((members (bucketIndex policy) observations index).map actual))

def exactBrierScore (observations : List EvaluationObservation) : Decimal :=
  average (observations.map fun value => (value.directionProbability - actual value) ^ 2)

/-- The calibration error, before any figure is printed. -/
def exactCalibrationError (observations : List EvaluationObservation) (policy : EvaluationPolicy) :
    Decimal :=
  Averages.gap (bucketIndex policy) policy.calibrationBuckets (·.directionProbability) actual
    observations

theorem bucketIndex_lt (policy : EvaluationPolicy) (value : EvaluationObservation) :
    bucketIndex policy value < policy.calibrationBuckets := by
  have hbuckets := policy.buckets.1
  unfold bucketIndex bucketIndexIn
  omega

/-- The probability is between the bounds of its bucket. -/
theorem bucketIndex_bounds (policy : EvaluationPolicy) (value : EvaluationObservation) :
    1 / policy.calibrationBuckets * (bucketIndex policy value : Decimal) ≤
    value.directionProbability ∧
      value.directionProbability ≤
        1 / policy.calibrationBuckets * ((bucketIndex policy value : Decimal) + 1) := by
  obtain ⟨hlow, hhigh⟩ := value.probability_unit
  have hbuckets := policy.buckets.1
  have hcount : (0 : Decimal) < policy.calibrationBuckets := by
    have hpos : 0 < policy.calibrationBuckets := by omega
    exact_mod_cast hpos
  have hproduct : 0 ≤ value.directionProbability * policy.calibrationBuckets := by positivity
  have hfloor : 0 ≤ ⌊value.directionProbability * policy.calibrationBuckets⌋ :=
    Int.floor_nonneg.mpr hproduct
  have hcast : ((⌊value.directionProbability * policy.calibrationBuckets⌋.toNat : ℕ) : Decimal) =
      ⌊value.directionProbability * policy.calibrationBuckets⌋ := by
    exact_mod_cast Int.toNat_of_nonneg hfloor
  have hle := Int.floor_le (value.directionProbability * policy.calibrationBuckets)
  have hlt := Int.lt_floor_add_one (value.directionProbability * policy.calibrationBuckets)
  have hindex : bucketIndex policy value = min
      ⌊value.directionProbability * policy.calibrationBuckets⌋.toNat
        (policy.calibrationBuckets - 1) := rfl
  have hscaled : ∀ x : Decimal, 1 / policy.calibrationBuckets * x =
      x / policy.calibrationBuckets := by
    intro x
    ring
  rw [hscaled, hscaled, div_le_iff₀ hcount, le_div_iff₀ hcount, hindex]
  -- the clamp matters for the probability one only
  rcases le_total ⌊value.directionProbability * policy.calibrationBuckets⌋.toNat
      (policy.calibrationBuckets - 1) with hclamp | hclamp
  · rw [min_eq_left hclamp, hcast]
    exact ⟨hle, hlt.le⟩
  · have hlast : ((policy.calibrationBuckets - 1 : ℕ) : Decimal) + 1 =
        policy.calibrationBuckets := by
      exact_mod_cast Nat.sub_add_cancel (by omega : 1 ≤ policy.calibrationBuckets)
    have hclamped : ((policy.calibrationBuckets - 1 : ℕ) : Decimal) ≤
        ⌊value.directionProbability * policy.calibrationBuckets⌋.toNat := by exact_mod_cast hclamp
    rw [min_eq_right hclamp, hlast]
    refine ⟨by linarith, ?_⟩
    nlinarith

theorem meanOrZeroIn_exact {values : List Decimal} (h : ∀ value ∈ values, 0 ≤ value ∧ value ≤ 1) :
    meanOrZeroIn .exact values = .success (shown (average values)) := by
  obtain ⟨hlow, hhigh⟩ := average_unit h
  have hfits : Fits (average values) := fits_of_unit ⟨shown_nonneg hlow, shown_le_one hhigh⟩
  unfold meanOrZeroIn meanIn
  by_cases hnil : values = []
  · simp [hnil, average, shown_zero]
  · rw [if_neg hnil, if_neg hnil, Attempt.pure_eq, Attempt.success_bind, Context.sum_exact,
      Context.round_exact]
    exact quantize_eq hfits

theorem probabilities_unit (xs : List EvaluationObservation) :
    ∀ value ∈ xs.map (·.directionProbability), 0 ≤ value ∧ value ≤ 1 := by
  intro value hvalue
  obtain ⟨observation, -, rfl⟩ := List.mem_map.mp hvalue
  exact observation.probability_unit

theorem actuals_unit (xs : List EvaluationObservation) :
    ∀ value ∈ xs.map actual, 0 ≤ value ∧ value ≤ 1 := by
  intro value hvalue
  obtain ⟨observation, -, rfl⟩ := List.mem_map.mp hvalue
  exact actual_unit observation

theorem shown_average_unit {values : List Decimal} (h : ∀ value ∈ values, 0 ≤ value ∧ value ≤ 1) :
    0 ≤ shown (average values) ∧ shown (average values) ≤ 1 :=
  ⟨shown_nonneg (average_unit h).1, shown_le_one (average_unit h).2⟩

theorem bound_unit (policy : EvaluationPolicy) {index : ℕ} (h : index ≤ policy.calibrationBuckets) :
    0 ≤ shown (1 / policy.calibrationBuckets * (index : Decimal)) ∧
      shown (1 / policy.calibrationBuckets * (index : Decimal)) ≤ 1 := by
  have hbuckets := policy.buckets.1
  have hcount : (0 : Decimal) < policy.calibrationBuckets := by
    have hpos : 0 < policy.calibrationBuckets := by omega
    exact_mod_cast hpos
  have hcast : (index : Decimal) ≤ policy.calibrationBuckets := by exact_mod_cast h
  refine ⟨shown_nonneg (by positivity), shown_le_one ?_⟩
  rw [one_div, inv_mul_le_iff₀ hcount, mul_one]
  exact hcast

theorem calibrationBucketIn_exact (observations : List EvaluationObservation)
    (policy : EvaluationPolicy) {index : ℕ} (h : index < policy.calibrationBuckets) :
    calibrationBucketIn .exact observations policy index =
      .success (bucketOf observations policy index) := by
  have hlower := bound_unit policy h.le
  have hupper := bound_unit policy (Nat.succ_le_of_lt h)
  rw [Nat.cast_succ] at hupper
  exact checkedBucket_eq (members (bucketIndex policy) observations index).length
    (quantize_eq (fits_of_unit hlower)) (quantize_eq (fits_of_unit hupper))
    (meanOrZeroIn_exact (probabilities_unit _)) (meanOrZeroIn_exact (actuals_unit _)) hlower hupper
    (shown_average_unit (probabilities_unit _)) (shown_average_unit (actuals_unit _))

/-! ## The scores -/

theorem evaluationQuantum_nonneg : 0 ≤ evaluationQuantum := evaluationQuantum_pos.le

theorem abs_shown_sub_le (x : Decimal) : |shown x - x| ≤ evaluationQuantum / 2 := by
  have hhalf := Quantum.abs_sub_halfEven_le (x / evaluationQuantum)
  have hne : evaluationQuantum ≠ 0 := evaluationQuantum_pos.ne'
  have hfactor : shown x - x =
      -((x / evaluationQuantum - Quantum.halfEven (x / evaluationQuantum)) *
        evaluationQuantum) := by
    rw [shown, Quantum.halfEvenTo, sub_mul, div_mul_cancel₀ x hne]
    ring
  rw [hfactor, abs_neg, abs_mul, abs_of_pos evaluationQuantum_pos]
  calc _ ≤ 1 / 2 * evaluationQuantum := mul_le_mul_of_nonneg_right hhalf evaluationQuantum_nonneg
    _ = evaluationQuantum / 2 := by ring

theorem sum_counts (observations : List EvaluationObservation) (policy : EvaluationPolicy) :
    ((List.range policy.calibrationBuckets).map fun index =>
      (bucketOf observations policy index).count).sum = observations.length :=
  length_members fun value _ => bucketIndex_lt policy value

def share (observations : List EvaluationObservation) (policy : EvaluationPolicy) (index : ℕ) :
    Decimal := (bucketOf observations policy index).count / observations.length

theorem sum_shares (h : observations ≠ []) (policy : EvaluationPolicy) :
    ((List.range policy.calibrationBuckets).map (share observations policy)).sum = 1 := by
  have hlength : (observations.length : Decimal) ≠ 0 := by
    have hpos := List.length_pos_iff.mpr h
    exact_mod_cast hpos.ne'
  have hcounts : ((List.range policy.calibrationBuckets).map fun index =>
      ((bucketOf observations policy index).count : Decimal)).sum = observations.length := by
    rw [← sum_counts observations policy, Nat.cast_list_sum, List.map_map]
    rfl
  have hshare : share observations policy = fun index =>
      ((bucketOf observations policy index).count : Decimal) *
        (observations.length : Decimal)⁻¹ := by
    funext index
    rw [share, div_eq_mul_inv]
  rw [hshare, List.sum_map_mul_right, hcounts, mul_inv_cancel₀ hlength]

theorem share_nonneg (observations : List EvaluationObservation) (policy : EvaluationPolicy) :
    ∀ index ∈ List.range policy.calibrationBuckets, 0 ≤ share observations policy index := by
  intro index _
  unfold share
  positivity

/-- The difference between the printed figures of a bucket. -/
def printedGap (observations : List EvaluationObservation) (policy : EvaluationPolicy)
    (index : ℕ) : Decimal :=
  |(bucketOf observations policy index).meanProbability -
    (bucketOf observations policy index).observedFrequency|

/-- The calibration error of the printed buckets. -/
def printedError (observations : List EvaluationObservation) (policy : EvaluationPolicy) :
    Decimal :=
  ((List.range policy.calibrationBuckets).map fun index =>
    share observations policy index * printedGap observations policy index).sum

theorem printedError_nonneg (observations : List EvaluationObservation)
    (policy : EvaluationPolicy) :
    0 ≤ printedError observations policy := by
  refine List.sum_nonneg fun term hterm => ?_
  obtain ⟨index, hindex, rfl⟩ := List.mem_map.mp hterm
  exact mul_nonneg (share_nonneg observations policy index hindex) (abs_nonneg _)

theorem printedError_le_one (h : observations ≠ []) (policy : EvaluationPolicy) :
    printedError observations policy ≤ 1 := by
  refine weighted_le (share_nonneg observations policy) (sum_shares h policy) fun index _ => ?_
  have hprobability := shown_average_unit
    (probabilities_unit (members (bucketIndex policy) observations index))
  have hfrequency := shown_average_unit
    (actuals_unit (members (bucketIndex policy) observations index))
  rw [printedGap, abs_le]
  simp only [bucketOf]
  constructor <;> linarith

theorem abs_printedError_sub_le (h : observations ≠ []) (policy : EvaluationPolicy) :
    |printedError observations policy - exactCalibrationError observations policy| ≤
      evaluationQuantum := by
  refine abs_weighted_sub_le (share_nonneg observations policy) (sum_shares h policy)
    fun index _ => ?_
  have hprobability := abs_shown_sub_le (average
    ((members (bucketIndex policy) observations index).map (·.directionProbability)))
  have hfrequency := abs_shown_sub_le (average
    ((members (bucketIndex policy) observations index).map actual))
  refine (abs_abs_sub_abs_le _ _).trans ?_
  simp only [bucketOf]
  rw [abs_le] at hprobability hfrequency ⊢
  constructor <;> linarith

theorem abs_shown_printedError_sub_le (h : observations ≠ []) (policy : EvaluationPolicy) :
    |shown (printedError observations policy) - exactCalibrationError observations policy| ≤
      3 / 2 * evaluationQuantum := by
  have hprinted := abs_shown_sub_le (printedError observations policy)
  have hmoved := abs_printedError_sub_le h policy
  rw [abs_le] at hprinted hmoved ⊢
  constructor <;> linarith

/-! ## The result -/

/-- What is reported, in exact arithmetic. -/
def calibration (observations : List EvaluationObservation) (policy : EvaluationPolicy) :
    CalibrationResult where
  status := if policy.minimumObservations ≤ observations.length ∧
    shown (exactBrierScore observations) ≤ policy.maximumBrierScore ∧
    shown (printedError observations policy) ≤ policy.maximumCalibrationError
    then .calibrated else .uncalibrated
  brierScore := shown (exactBrierScore observations)
  expectedCalibrationError := shown (printedError observations policy)
  buckets := (List.range policy.calibrationBuckets).map (bucketOf observations policy)

theorem deviation_unit (value : EvaluationObservation) :
    0 ≤ (value.directionProbability - actual value) ^ 2 ∧
      (value.directionProbability - actual value) ^ 2 ≤ 1 := by
  obtain ⟨hlow, hhigh⟩ := value.probability_unit
  obtain ⟨hnone, hall⟩ := actual_unit value
  refine ⟨sq_nonneg _, (sq_le_one_iff_abs_le_one _).mpr (abs_le.mpr ?_)⟩
  constructor <;> linarith

theorem exactBrierScore_unit (observations : List EvaluationObservation) :
    0 ≤ exactBrierScore observations ∧ exactBrierScore observations ≤ 1 := by
  refine average_unit fun square hsquare => ?_
  obtain ⟨value, -, rfl⟩ := List.mem_map.mp hsquare
  exact deviation_unit value

theorem meanSquare_exact (h : observations ≠ []) :
    (meanIn .exact (observations.map fun value =>
      Context.exact.square (Context.exact.round (value.directionProbability - actual value))) >>=
        quantize) =
      .success (shown (exactBrierScore observations)) := by
  have hunit := exactBrierScore_unit observations
  have hfits := fits_of_unit ⟨shown_nonneg hunit.1, shown_le_one hunit.2⟩
  simp only [Context.square_exact, Context.round_exact, ← pow_two]
  rw [meanIn, if_neg (by simpa using h), Attempt.pure_eq, Attempt.success_bind, Context.sum_exact,
    Context.round_exact]
  exact quantize_eq hfits

theorem evaluateCalibrationIn_exact (h : observations ≠ []) (policy : EvaluationPolicy) :
    evaluateCalibrationIn .exact observations policy =
      .success (calibration observations policy) := by
  have hbrier := exactBrierScore_unit observations
  have hbuckets : (List.range policy.calibrationBuckets).mapM
      (calibrationBucketIn .exact observations policy) =
        .success ((List.range policy.calibrationBuckets).map (bucketOf observations policy)) := by
    rw [Attempt.mapM_eq_success, List.forall₂_map_right_iff, List.forall₂_same]
    exact fun index hindex =>
      calibrationBucketIn_exact observations policy (List.mem_range.mp hindex)
  have hlow := shown_nonneg (printedError_nonneg observations policy)
  have hhigh := shown_le_one (printedError_le_one h policy)
  have herror : quantize (Context.exact.sum
      (((List.range policy.calibrationBuckets).map (bucketOf observations policy)).map fun bucket =>
        Context.exact.round (Context.exact.round (bucket.count / observations.length) *
          |Context.exact.round (bucket.meanProbability - bucket.observedFrequency)|))) =
        .success (shown (printedError observations policy)) := by
    rw [Context.sum_exact, List.map_map]
    exact quantize_eq (fits_of_unit ⟨hlow, hhigh⟩)
  have hchecked : ∀ value : Decimal, 0 ≤ value ∧ value ≤ 1 → unitDecimal value = .success () :=
    fun value hvalue => unitDecimal_eq_success.mpr hvalue
  rw [evaluateCalibrationIn, meanSquare_exact h, Attempt.success_bind, hbuckets,
    Attempt.success_bind, herror, Attempt.success_bind,
    hchecked _ ⟨shown_nonneg hbrier.1, shown_le_one hbrier.2⟩, Attempt.success_bind,
    hchecked _ ⟨hlow, hhigh⟩, Attempt.success_bind]
  rfl

theorem bucketOf_perm {permuted : List EvaluationObservation} (h : permuted.Perm observations)
    (policy : EvaluationPolicy) : bucketOf permuted policy = bucketOf observations policy := by
  funext index
  have hmembers : (members (bucketIndex policy) permuted index).Perm
      (members (bucketIndex policy) observations index) := members_perm h index
  simp only [bucketOf, hmembers.length_eq, average_perm (hmembers.map _)]

theorem calibration_perm {permuted : List EvaluationObservation} (h : permuted.Perm observations)
    (policy : EvaluationPolicy) : calibration permuted policy =
    calibration observations policy := by
  have hbrier : exactBrierScore permuted = exactBrierScore observations := average_perm (h.map _)
  have herror : printedError permuted policy = printedError observations policy := by
    simp only [printedError, share, printedGap, bucketOf_perm h, h.length_eq]
  simp only [calibration, hbrier, herror, bucketOf_perm h, h.length_eq]

def meanDistance (observations : List EvaluationObservation) : Decimal :=
  average (observations.map fun value => |value.directionProbability - actual value|)

theorem exactCalibrationError_bounds (observations : List EvaluationObservation)
    (policy : EvaluationPolicy) : 0 ≤ exactCalibrationError observations policy ∧
      exactCalibrationError observations policy ≤ meanDistance observations ∧
      exactCalibrationError observations policy ^ 2 ≤ exactBrierScore observations := by
  have hgroups : ∀ value ∈ observations, bucketIndex policy value < policy.calibrationBuckets :=
    fun value _ => bucketIndex_lt policy value
  exact ⟨gap_nonneg .., gap_le hgroups .., sq_gap_le hgroups ..⟩

theorem printedError_eq_zero (h : ∀ bucket ∈ (calibration observations policy).buckets,
    bucket.meanProbability = bucket.observedFrequency) :
    (calibration observations policy).expectedCalibrationError = 0 := by
  have hzero : printedError observations policy = 0 := by
    refine List.sum_eq_zero fun term hterm => ?_
    obtain ⟨index, hindex, rfl⟩ := List.mem_map.mp hterm
    have hequal := h (bucketOf observations policy index) (List.mem_map_of_mem hindex)
    rw [printedGap, hequal, sub_self, abs_zero, mul_zero]
  show shown (printedError observations policy) = 0
  rw [hzero, shown_zero]

/-- The buckets of a result partition the observations. -/
structure Partitioned (observations : List EvaluationObservation) (policy : EvaluationPolicy)
    (result : CalibrationResult) : Prop where
  length : result.buckets.length = policy.calibrationBuckets
  /-- Each observation has one bucket. -/
  index_lt : ∀ value ∈ observations, bucketIndex policy value < policy.calibrationBuckets
  counts : ∀ index bucket, result.buckets[index]? = some bucket →
    bucket.count = (observations.filter (bucketIndex policy · = index)).length
  total : (result.buckets.map (·.count)).sum = observations.length
  /-- The probability is between the exact bounds, and what is printed of it between the printed
  bounds. -/
  bounds : ∀ value ∈ observations, ∀ bucket,
    result.buckets[bucketIndex policy value]? = some bucket →
      (bucket.lowerBound ≤ shown value.directionProbability ∧
        shown value.directionProbability ≤ bucket.upperBound) ∧
      1 / policy.calibrationBuckets * (bucketIndex policy value : Decimal) ≤
          value.directionProbability ∧
        value.directionProbability ≤
          1 / policy.calibrationBuckets * ((bucketIndex policy value : Decimal) + 1)

theorem calibration_partitioned (observations : List EvaluationObservation)
    (policy : EvaluationPolicy) :
    Partitioned observations policy (calibration observations policy) := by
  have hbucket : ∀ index bucket, (calibration observations policy).buckets[index]? = some bucket →
      bucketOf observations policy index = bucket := by
    intro index bucket hat
    have hmap : (((List.range policy.calibrationBuckets).map
        (bucketOf observations policy))[index]?) =
        some bucket := hat
    rw [List.getElem?_map] at hmap
    obtain ⟨i, hi, hof⟩ := Option.map_eq_some_iff.mp hmap
    have hindex : index = i := by
      have hrange := List.getElem?_eq_some_iff.mp hi
      obtain ⟨hlt, hget⟩ := hrange
      rwa [List.getElem_range] at hget
    rw [hindex, hof]
  refine ⟨?_, fun value _ => bucketIndex_lt policy value, ?_, ?_, ?_⟩
  · show ((List.range policy.calibrationBuckets).map (bucketOf observations policy)).length = _
    rw [List.length_map, List.length_range]
  · intro index bucket hat
    rw [← hbucket index bucket hat]
    rfl
  · show ((((List.range policy.calibrationBuckets).map (bucketOf observations policy)).map
      (·.count)).sum) = observations.length
    rw [List.map_map]
    exact sum_counts observations policy
  · intro value _ bucket hat
    obtain ⟨hlow, hhigh⟩ := bucketIndex_bounds policy value
    rw [← hbucket _ bucket hat]
    exact ⟨⟨shown_mono hlow, shown_mono hhigh⟩, hlow, hhigh⟩

/-- Printing moves the two scores by so little that they keep their order up to it. -/
theorem sq_shown_printedError_le (h : observations ≠ []) (policy : EvaluationPolicy) :
    shown (printedError observations policy) ^ 2 ≤
      shown (exactBrierScore observations) + 4 * evaluationQuantum := by
  obtain ⟨hnonneg, -, hsquare⟩ := exactCalibrationError_bounds observations policy
  have hscore := exactBrierScore_unit observations
  have hmoved := (abs_le.mp (abs_shown_printedError_sub_le h policy)).2
  have hprinted := (abs_le.mp (abs_shown_sub_le (exactBrierScore observations))).1
  have hlow := shown_nonneg (printedError_nonneg observations policy)
  have hone : exactCalibrationError observations policy ≤ 1 := by nlinarith
  have hquantum : evaluationQuantum = 1 / 1000000000000 := rfl
  have hle : shown (printedError observations policy) ≤
      exactCalibrationError observations policy + 3 / 2 * evaluationQuantum := by linarith
  have hpow := pow_le_pow_left₀ hlow hle 2
  nlinarith

/-- The buckets partition the observations in any order of them. The error is at most the mean
distance, and its square at most the Brier score; what is printed is as close to them as the twelve
places allow. -/
theorem evaluateCalibration_consistent (h : observations ≠ []) (policy : EvaluationPolicy) :
    ∃ result, evaluateCalibrationIn .exact observations policy = .success result ∧
      Partitioned observations policy result ∧
      (∀ permuted : List EvaluationObservation, permuted.Perm observations →
        evaluateCalibrationIn .exact permuted policy = .success result) ∧
      (exactCalibrationError observations policy ≤ meanDistance observations ∧
        exactCalibrationError observations policy ^ 2 ≤ exactBrierScore observations ∧
        |result.expectedCalibrationError - exactCalibrationError observations policy| ≤
          3 / 2 * evaluationQuantum ∧
        |result.brierScore - exactBrierScore observations| ≤ evaluationQuantum / 2) ∧
      (0 ≤ result.expectedCalibrationError ∧
        result.expectedCalibrationError ≤ meanDistance observations + 3 / 2 * evaluationQuantum ∧
        result.expectedCalibrationError ^ 2 ≤ result.brierScore + 4 * evaluationQuantum ∧
        result.brierScore ≤ 1) ∧
      ((∀ bucket ∈ result.buckets, bucket.meanProbability = bucket.observedFrequency) →
        result.expectedCalibrationError = 0) := by
  obtain ⟨hnonneg, hle, hsquare⟩ := exactCalibrationError_bounds observations policy
  have hmoved := abs_shown_printedError_sub_le h policy
  have hclose : shown (printedError observations policy) ≤
      meanDistance observations + 3 / 2 * evaluationQuantum := by
    linarith [(abs_le.mp hmoved).2]
  refine ⟨calibration observations policy, evaluateCalibrationIn_exact h policy,
    calibration_partitioned observations policy, ?_,
    ⟨hle, hsquare, hmoved, abs_shown_sub_le _⟩,
    ⟨shown_nonneg (printedError_nonneg observations policy), hclose,
      sq_shown_printedError_le h policy, shown_le_one (exactBrierScore_unit observations).2⟩,
    printedError_eq_zero⟩
  intro permuted hperm
  have hsome : permuted ≠ [] := by
    intro hnil
    rw [hnil] at hperm
    exact h hperm.nil_eq.symm
  rw [evaluateCalibrationIn_exact hsome, calibration_perm hperm]

end Evaluation

namespace EvaluationScenario

open Evaluation

theorem flat_realized : -1 ≤ (0 : Decimal) ∧ -1 ≤ (1 / 1000 : Decimal) := by norm_num

/-- A day without a return. -/
def flatDay (day : ℕ) (probability : Decimal) (h : 0 ≤ probability ∧ probability ≤ 1) :
    EvaluationObservation :=
  { observation day with
    actualReturn := 0
    directionProbability := probability
    realized_ge := flat_realized
    probability_unit := h }

theorem faint_unit : 0 ≤ (6 / 10 ^ 13 : Decimal) ∧ (6 / 10 ^ 13 : Decimal) ≤ 1 := by norm_num

theorem third_unit : 0 ≤ (33333333333333 / 10 ^ 14 : Decimal) ∧
    (33333333333333 / 10 ^ 14 : Decimal) ≤ 1 := by norm_num

def faint : List EvaluationObservation := [flatDay 0 _ faint_unit, flatDay 1 _ faint_unit]

def third : List EvaluationObservation := [flatDay 0 _ third_unit, flatDay 1 _ third_unit]

theorem three_buckets : 2 ≤ 3 ∧ 3 ≤ 20 := by omega

def thirds : EvaluationPolicy :=
  { policy with calibrationBuckets := 3, buckets := three_buckets }

/-- Probabilities below the last place are printed as one unit of it, which is more than they differ
from the outcomes; one just below a third is past the printed bound of its bucket. -/
theorem calibration_prints :
    (∃ result, evaluateCalibrationIn .exact faint policy = .success result ∧
      meanDistance faint < result.expectedCalibrationError ∧
      result.brierScore < result.expectedCalibrationError ^ 2) ∧
    ∃ result, evaluateCalibrationIn .exact third thirds = .success result ∧
      ∃ bucket, result.buckets[0]? = some bucket ∧ bucket.count = 2 ∧
        ∀ value ∈ third, bucketIndex thirds value = 0 ∧
          ¬ value.directionProbability ≤ bucket.upperBound := by
  refine ⟨⟨calibration faint policy, evaluateCalibrationIn_exact (by decide) policy, ?_⟩,
    calibration third thirds, evaluateCalibrationIn_exact (by decide) thirds,
    bucketOf third thirds 0, rfl, ?_⟩
  · decide +kernel
  · decide +kernel

theorem evaluateCalibration_consistent_faint :
    ∃ result, evaluateCalibrationIn .exact faint policy = .success result ∧
      result.expectedCalibrationError ^ 2 ≤ result.brierScore + 4 * evaluationQuantum := by
  have hfaint : faint ≠ [] := by decide
  obtain ⟨result, hresult, -, -, -, ⟨-, -, hsquare, -⟩, -⟩ :=
    evaluateCalibration_consistent hfaint policy
  exact ⟨result, hresult, hsquare⟩

end EvaluationScenario

end StonksPaper
