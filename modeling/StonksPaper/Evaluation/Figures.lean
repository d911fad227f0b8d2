import StonksPaper.Evaluation.Overfitting

/-!
# The figures of a report

A figure is quantized to twelve places, which raises when it has more than sixteen digits before
them. Metrics and costs can have such figures; those of the calibration are between zero and one,
whatever is lost to rounding on the way.
-/

namespace StonksPaper

open Chain

namespace Evaluation

variable {observations : List EvaluationObservation} {policy : EvaluationPolicy}

/-! ## Quantized figures -/

def shown (x : Decimal) : Decimal := Quantum.halfEvenTo x evaluationQuantum

def Fits (x : Decimal) : Prop := |shown x| < 10000000000000000

def meanOf (values : List Decimal) : Decimal := rounded (decimalSum values / values.length)

theorem mean_eq {values : List Decimal} (h : values ≠ []) :
    mean values = .success (meanOf values) :=
  if_neg h

theorem quantize_eq {x : Decimal} (h : Fits x) : quantize x = .success (shown x) := if_pos h

theorem quantize_eq_success {x y : Decimal} : quantize x = .success y ↔ Fits x ∧ shown x = y := by
  by_cases h : Fits x
  · rw [quantize_eq h, Attempt.success.injEq, and_iff_right h]
  · have hraised : quantize x = .raised
        (.decimalException "quantize result has too many digits for current context") := if_neg h
    rw [hraised]
    simp [h]

theorem quantize_bind_succeeds {α : Type} {x : Decimal} {f : Decimal → Call α} :
    (quantize x >>= f).Succeeds ↔ Fits x ∧ (f (shown x)).Succeeds := by
  simp only [Attempt.Succeeds, Attempt.bind_eq_success, quantize_eq_success]
  constructor
  · rintro ⟨a, y, ⟨hfits, rfl⟩, ha⟩
    exact ⟨hfits, a, ha⟩
  · rintro ⟨hfits, a, ha⟩
    exact ⟨a, _, ⟨hfits, rfl⟩, ha⟩

theorem mean_quantize_bind_succeeds {α : Type} {values : List Decimal} (h : values ≠ [])
    {f : Decimal → Call α} : ((mean values >>= quantize) >>= f).Succeeds ↔
      Fits (meanOf values) ∧ (f (shown (meanOf values))).Succeeds := by
  rw [mean_eq h, Attempt.success_bind, quantize_bind_succeeds]

theorem raiseUnless_bind_succeeds {α : Type} {c : Prop} [Decidable c] {message : String}
    {f : Unit → Call α} : (raiseUnless c message >>= f).Succeeds ↔ c ∧ (f ()).Succeeds := by
  simp only [Attempt.Succeeds, Attempt.bind_eq_success, raiseUnless_eq_success]
  constructor
  · rintro ⟨a, _, hc, ha⟩
    exact ⟨hc, a, ha⟩
  · rintro ⟨hc, a, ha⟩
    exact ⟨a, (), hc, ha⟩

@[simp] theorem success_succeeds {α : Type} (a : α) : (.success a : Call α).Succeeds := ⟨a, rfl⟩

theorem shown_mono {x y : Decimal} (h : x ≤ y) : shown x ≤ shown y :=
  Quantum.halfEvenTo_mono evaluationQuantum_pos h

theorem shown_zero : shown 0 = 0 := by norm_num [shown, Quantum.halfEvenTo, Quantum.halfEven]

theorem shown_one : shown 1 = 1 := by
  refine Quantum.halfEvenTo_of_isQuantized (Quantum.isQuantized_iff.mpr
    ⟨evaluationQuantum_pos, 1000000000000, ?_⟩)
  norm_num [evaluationQuantum]

theorem shown_nonneg {x : Decimal} (h : 0 ≤ x) : 0 ≤ shown x := by
  have hmono := shown_mono h
  rwa [shown_zero] at hmono

theorem shown_le_one {x : Decimal} (h : x ≤ 1) : shown x ≤ 1 := by
  have hmono := shown_mono h
  rwa [shown_one] at hmono

theorem fits_of_unit {x : Decimal} (h : 0 ≤ shown x ∧ shown x ≤ 1) : Fits x := by
  rw [Fits, abs_of_nonneg h.1]
  linarith [h.2]

theorem rounded_one : rounded 1 = 1 :=
  Significant.round_of_hasDigits (Significant.hasDigits_one (by omega))

theorem rounded_le_one {x : Decimal} (h : x ≤ 1) : rounded x ≤ 1 := by
  have hmono := rounded_mono h
  rwa [rounded_one] at hmono

/-! ## Sums of numbers between zero and one -/

theorem rounded_natCast {n : ℕ} (h : n ≤ 1000000) : rounded (n : Decimal) = n := by
  refine Significant.round_of_hasDigits ⟨n, 0, ?_, by simp⟩
  rw [abs_of_nonneg (by positivity)]
  have hcast : (n : ℤ) ≤ 1000000 := by exact_mod_cast h
  linarith [show (1000000 : ℤ) < 10 ^ 28 by norm_num]

theorem decimalSum_le_length {values : List Decimal} (h : ∀ value ∈ values, value ≤ 1)
    (hcount : values.length ≤ 1000000) : decimalSum values ≤ values.length := by
  have hfold : ∀ (total : Decimal) (n : ℕ), total ≤ n → n + values.length ≤ 1000000 →
      values.foldl (fun total value => rounded (total + value)) total ≤
        (n + values.length : ℕ) := by
    induction values with
    | nil =>
        intro total n htotal _
        simpa using htotal
    | cons value values ih =>
        intro total n htotal hn
        obtain ⟨hvalue, hvalues⟩ := List.forall_mem_cons.mp h
        rw [List.length_cons] at hn hcount
        have hnext : rounded (total + value) ≤ (n + 1 : ℕ) := by
          rw [← rounded_natCast (show n + 1 ≤ 1000000 by omega)]
          apply rounded_mono
          push_cast
          linarith
        have hrest := ih hvalues (by omega) _ _ hnext (by omega)
        rw [List.foldl_cons, List.length_cons]
        rwa [show n + (values.length + 1) = n + 1 + values.length by omega]
  have hzero := hfold 0 0 (by simp) (by omega)
  rwa [Nat.zero_add] at hzero

theorem meanOf_unit {values : List Decimal} (h : ∀ value ∈ values, 0 ≤ value ∧ value ≤ 1)
    (hcount : values.length ≤ 1000000) : 0 ≤ meanOf values ∧ meanOf values ≤ 1 := by
  refine ⟨(mean_signs fun value hvalue => (h value hvalue).1).1, ?_⟩
  apply rounded_le_one
  apply div_le_one_of_le₀ _ (by positivity)
  exact decimalSum_le_length (fun value hvalue => (h value hvalue).2) hcount

/-! ## The metrics -/

/-- The ratio of mean and deviation, for a year. -/
def sharpeOf (returns : List Decimal) : Decimal :=
  let variance := meanOf (returns.map fun value => square (rounded (value - meanOf returns)))
  if variance = 0 then 0
  else rounded (rounded (meanOf returns / decimalSqrt variance) * decimalSqrt 252)

theorem sharpe_eq {returns : List Decimal} (h : returns ≠ []) :
    sharpe returns = .success (sharpeOf returns) := by
  have hsquares : returns.map (fun value => square (rounded (value - meanOf returns))) ≠ [] := by
    simpa using h
  simp only [sharpe, mean_eq h, Attempt.success_bind, mean_eq hsquares, sharpeOf, Attempt.pure_eq]
  split <;> rfl

def equityAfter (equity value : Decimal) : Decimal := productOf equity (rounded (1 + value))

/-- A round of the loop of `_max_drawdown` that does not overflow. -/
def Drawdown.next (self : Drawdown) (value : Decimal) : Drawdown :=
  let equity := equityAfter self.equity value
  let peak := max self.peak equity
  ⟨equity, peak, min self.drawdown (rounded (rounded (equity / peak) - 1))⟩

/-- The equity stays in the exponents of the context after every return. -/
def Compounds (returns : List Decimal) : Prop :=
  ∀ before value, before ++ [value] <+: returns →
    InExponents ((before ++ [value]).foldl equityAfter 1)

def maxDrawdownOf (returns : List Decimal) : Decimal :=
  (returns.foldl Drawdown.next ⟨1, 1, 0⟩).drawdown

theorem Drawdown.after_eq_success {state next : Drawdown} {value : Decimal} :
    state.after value = .success next ↔
      InExponents (equityAfter state.equity value) ∧ next = state.next value := by
  simp only [Drawdown.after, product, Attempt.bind_eq_success, Attempt.require_eq_success,
    Attempt.pure_eq, Attempt.success.injEq]
  constructor
  · rintro ⟨_, ⟨_, hreached, rfl⟩, rfl⟩
    exact ⟨hreached, rfl⟩
  · rintro ⟨hreached, rfl⟩
    exact ⟨_, ⟨(), hreached, rfl⟩, rfl⟩

/-- The loop runs through exactly when no equity overflows. -/
theorem foldlM_after_eq_success {returns : List Decimal} {state last : Drawdown} :
    returns.foldlM Drawdown.after state = .success last ↔
      (∀ before value, before ++ [value] <+: returns →
        InExponents ((before ++ [value]).foldl equityAfter state.equity)) ∧
          last = returns.foldl Drawdown.next state := by
  induction returns generalizing state with
  | nil =>
      simp only [List.foldlM_nil, Attempt.pure_eq, Attempt.success.injEq, List.foldl_nil]
      constructor
      · rintro rfl
        refine ⟨fun before value hpre => ?_, rfl⟩
        simp at hpre
      · rintro ⟨-, rfl⟩
        rfl
  | cons value returns ih =>
      simp only [List.foldlM_cons, Attempt.bind_eq_success, Drawdown.after_eq_success, ih,
        List.foldl_cons]
      constructor
      · rintro ⟨_, ⟨hreached, rfl⟩, hlater, rfl⟩
        refine ⟨fun before other hpre => ?_, rfl⟩
        cases before with
        | nil =>
            obtain ⟨rfl, -⟩ := List.cons_prefix_cons.mp hpre
            exact hreached
        | cons first before =>
            rw [List.cons_append, List.cons_prefix_cons] at hpre
            obtain ⟨rfl, hpre⟩ := hpre
            exact hlater before other hpre
      · rintro ⟨hall, rfl⟩
        refine ⟨_, ⟨hall [] value ?_, rfl⟩, fun before other hpre => ?_, rfl⟩
        · exact List.cons_prefix_cons.mpr ⟨rfl, List.nil_prefix⟩
        · exact hall (value :: before) other (List.cons_prefix_cons.mpr ⟨rfl, hpre⟩)

theorem maxDrawdown_eq_success {returns : List Decimal} {drawdown : Decimal} :
    maxDrawdown returns = .success drawdown ↔
      Compounds returns ∧ drawdown = maxDrawdownOf returns := by
  simp only [maxDrawdown, Attempt.bind_eq_success, foldlM_after_eq_success, Attempt.pure_eq,
    Attempt.success.injEq]
  constructor
  · rintro ⟨_, ⟨hcompounds, rfl⟩, rfl⟩
    exact ⟨hcompounds, rfl⟩
  · rintro ⟨hcompounds, rfl⟩
    exact ⟨_, ⟨hcompounds, rfl⟩, rfl⟩

theorem drawdown_quantize_bind_succeeds {α : Type} {returns : List Decimal}
    {f : Decimal → Call α} : ((maxDrawdown returns >>= quantize) >>= f).Succeeds ↔
      Compounds returns ∧ Fits (maxDrawdownOf returns) ∧
        (f (shown (maxDrawdownOf returns))).Succeeds := by
  simp only [Attempt.Succeeds, Attempt.bind_eq_success, maxDrawdown_eq_success,
    quantize_eq_success]
  constructor
  · rintro ⟨result, _, ⟨_, ⟨hcompounds, rfl⟩, hfits, rfl⟩, hresult⟩
    exact ⟨hcompounds, hfits, result, hresult⟩
  · rintro ⟨hcompounds, hfits, result, hresult⟩
    exact ⟨result, _, ⟨_, ⟨hcompounds, rfl⟩, hfits, rfl⟩, hresult⟩

/-- Every figure of the metrics fits. -/
structure MetricsFit (observations : List EvaluationObservation) (policy : EvaluationPolicy)
    (multiplier : Decimal) : Prop where
  meanNet : Fits (meanOf (netReturns observations policy multiplier))
  meanBenchmark : Fits (meanOf (observations.map (·.benchmarkReturn)))
  meanGross : Fits (meanOf (observations.map grossReturn))
  netAlpha : Fits (rounded (shown (meanOf (netReturns observations policy multiplier)) -
    shown (meanOf (observations.map (·.benchmarkReturn)))))
  equity : Compounds (netReturns observations policy multiplier)
  maxDrawdown : Fits (maxDrawdownOf (netReturns observations policy multiplier))
  meanTurnover : Fits (meanOf (observations.map (·.turnover)))
  sharpe : Fits (sharpeOf (netReturns observations policy multiplier))

theorem hitRate_unit (observations : List EvaluationObservation) :
    0 ≤ hitRate observations ∧ hitRate observations ≤ 1 := by
  refine ⟨rounded_nonneg (by positivity), rounded_le_one ?_⟩
  apply div_le_one_of_le₀ _ (by positivity)
  exact_mod_cast List.length_filter_le _ observations

theorem meanTurnover_nonneg (observations : List EvaluationObservation) :
    0 ≤ meanOf (observations.map (·.turnover)) := by
  refine (mean_signs fun value hvalue => ?_).1
  obtain ⟨observation, -, rfl⟩ := List.mem_map.mp hvalue
  exact observation.turnover_nonneg

theorem calculateMetrics_succeeds_iff (h : observations ≠ []) {multiplier : Decimal} :
    (calculateMetrics observations policy multiplier).Succeeds ↔
      MetricsFit observations policy multiplier := by
  have hnet : netReturns observations policy multiplier ≠ [] := by simpa [netReturns] using h
  have hmap : ∀ f : EvaluationObservation → Decimal, observations.map f ≠ [] := by simpa using h
  have hcount : 1 ≤ (netReturns observations policy multiplier).length :=
    List.length_pos_iff.mpr hnet
  have hhits := hitRate_unit observations
  have hunit : 0 ≤ shown (hitRate observations) ∧ shown (hitRate observations) ≤ 1 :=
    ⟨shown_nonneg hhits.1, shown_le_one hhits.2⟩
  have hturnover := shown_nonneg (meanTurnover_nonneg observations)
  simp only [calculateMetrics, mean_quantize_bind_succeeds hnet,
    mean_quantize_bind_succeeds (hmap _),
    atLeast, unitDecimal, nonNegativeDecimal, raiseUnless_bind_succeeds, quantize_bind_succeeds,
    drawdown_quantize_bind_succeeds, sharpe_eq hnet, Attempt.success_bind, Attempt.pure_eq,
      success_succeeds, hcount, hunit,
    fits_of_unit hunit, hturnover, and_true, true_and, and_self]
  constructor
  · rintro ⟨h1, h2, h3, h4, h5, h6, h7, h8⟩
    exact ⟨h1, h2, h3, h4, h5, h6, h7, h8⟩
  · rintro ⟨h1, h2, h3, h4, h5, h6, h7, h8⟩
    exact ⟨h1, h2, h3, h4, h5, h6, h7, h8⟩

/-! ## The costs -/

/-- What the costs take from the returns. -/
def totalCostOf (observations : List EvaluationObservation) (policy : EvaluationPolicy)
    (multiplier : Decimal) : Decimal :=
  rounded (decimalSum (observations.map grossReturn) -
    decimalSum (netReturns observations policy multiplier))

/-- Every figure of the cost scenarios fits. -/
def CostsFit (observations : List EvaluationObservation) (policy : EvaluationPolicy) : Prop :=
  ∀ multiplier ∈ policy.costMultipliers,
    Fits (meanOf (netReturns observations policy multiplier)) ∧
      Fits (totalCostOf observations policy multiplier)

theorem decimalSum_mono {xs ys : List Decimal} (h : List.Forall₂ (· ≤ ·) xs ys) :
    decimalSum xs ≤ decimalSum ys := by
  have hfold : ∀ total total' : Decimal, total ≤ total' →
      xs.foldl (fun total value => rounded (total + value)) total ≤
        ys.foldl (fun total value => rounded (total + value)) total' := by
    induction h with
    | nil => exact fun _ _ htotal => htotal
    | cons hle _ ih => exact fun _ _ htotal => ih _ _ (rounded_mono (add_le_add htotal hle))
  exact hfold 0 0 le_rfl

/-- Costs do not add to a return. -/
theorem net_le_gross {multiplier : Decimal} (h : 0 < multiplier) :
    List.Forall₂ (· ≤ ·) (netReturns observations policy multiplier)
      (observations.map grossReturn) := by
  have hrate : 0 ≤ rounded (rounded (rounded (policy.feeBps + policy.slippageBps) * multiplier) /
      10000) := by
    have hfees := rounded_nonneg (add_nonneg policy.costs.1 policy.costs.2)
    have hscaled := rounded_nonneg (mul_nonneg hfees h.le)
    exact rounded_nonneg (by positivity)
  rw [netReturns, List.forall₂_map_left_iff, List.forall₂_map_right_iff, List.forall₂_same]
  intro value _
  have hcost := rounded_nonneg (mul_nonneg value.turnover_nonneg hrate)
  have hgross : rounded (grossReturn value) = grossReturn value :=
    Significant.round_round (by omega) _
  calc rounded (grossReturn value - rounded (value.turnover * _))
      ≤ rounded (grossReturn value) := rounded_mono (by linarith)
    _ = grossReturn value := hgross

theorem scenario_succeeds_iff (h : observations ≠ []) {multiplier : Decimal}
    (hmultiplier : 0 < multiplier) : (scenario observations policy multiplier).Succeeds ↔
      Fits (meanOf (netReturns observations policy multiplier)) ∧
        Fits (totalCostOf observations policy multiplier) := by
  have hnet : netReturns observations policy multiplier ≠ [] := by simpa [netReturns] using h
  have hcost : 0 ≤ shown (rounded (decimalSum (observations.map grossReturn) -
      decimalSum (netReturns observations policy multiplier))) :=
    shown_nonneg (rounded_nonneg (sub_nonneg.mpr (decimalSum_mono (net_le_gross hmultiplier))))
  simp only [scenario, mean_quantize_bind_succeeds hnet, quantize_bind_succeeds, nonNegativeDecimal,
    raiseUnless_bind_succeeds, hcost, Attempt.pure_eq, success_succeeds, and_true, totalCostOf]

theorem mapM_succeeds_iff {α β : Type} {f : α → Call β} {xs : List α} :
    (xs.mapM f).Succeeds ↔ ∀ x ∈ xs, (f x).Succeeds := by
  constructor
  · rintro ⟨ys, hys⟩ x hx
    obtain ⟨y, -, hy⟩ := (Attempt.mapM_eq_success.mp hys).exists_right hx
    exact ⟨y, hy⟩
  · intro h
    have hpaired : ∀ x ∈ xs, ∃ y, f x = .success y ∧ True := by simpa [Attempt.Succeeds] using h
    obtain ⟨ys, hys, -⟩ := exists_mapM hpaired
    exact ⟨ys, hys⟩

theorem evaluateCostSensitivity_succeeds_iff (h : observations ≠ []) :
    (evaluateCostSensitivity observations policy).Succeeds ↔ CostsFit observations policy := by
  rw [evaluateCostSensitivity, mapM_succeeds_iff]
  exact forall₂_congr fun multiplier hmem =>
    scenario_succeeds_iff h (policy.multipliers.2.1 multiplier hmem)

/-! ## The calibration -/

theorem square_unit {x : Decimal} (hlow : -1 ≤ x) (hhigh : x ≤ 1) :
    0 ≤ square (rounded x) ∧ square (rounded x) ≤ 1 := by
  have hle := rounded_le_one hhigh
  have hge : -1 ≤ rounded x := by
    have hneg := rounded_le_one (show -x ≤ 1 by linarith)
    rw [rounded_neg] at hneg
    linarith
  have hdigits : 1 ≤ 31 := by norm_num
  have hproduct : rounded x * rounded x ≤ 1 := by nlinarith
  constructor
  · have hpower := Significant.round_mono (K := Decimal) hdigits (mul_self_nonneg (rounded x))
    rw [show Significant.round 31 (0 : Decimal) = 0 by simp [Significant.round]] at hpower
    exact rounded_nonneg hpower
  · have hpower := Significant.round_mono hdigits hproduct
    rw [Significant.round_of_hasDigits (Significant.hasDigits_one hdigits)] at hpower
    exact rounded_le_one hpower

theorem actual_unit (value : EvaluationObservation) : 0 ≤ actual value ∧ actual value ≤ 1 := by
  unfold actual
  split <;> norm_num

def bucketMean (values : List Decimal) : Decimal := if values = [] then 0 else shown (meanOf values)

theorem meanOrZero_eq {values : List Decimal} (h : ∀ value ∈ values, 0 ≤ value ∧ value ≤ 1)
    (hcount : values.length ≤ 1000000) : meanOrZero values = .success (bucketMean values) ∧
      0 ≤ bucketMean values ∧ bucketMean values ≤ 1 := by
  obtain ⟨hlow, hhigh⟩ := meanOf_unit h hcount
  have hunit : 0 ≤ shown (meanOf values) ∧ shown (meanOf values) ≤ 1 :=
    ⟨shown_nonneg hlow, shown_le_one hhigh⟩
  unfold meanOrZero bucketMean
  by_cases hnil : values = []
  · simp [hnil]
  · rw [if_neg hnil, if_neg hnil, mean_eq hnil, Attempt.success_bind,
      quantize_eq (fits_of_unit hunit)]
    exact ⟨rfl, hunit⟩

/-- The bounds of the buckets, to twelve places, end at one. -/
theorem bucketBound_unit {count index : ℕ} (hcount : 2 ≤ count ∧ count ≤ 20) (h : index ≤ count) :
    0 ≤ shown (rounded (rounded (1 / count) * index)) ∧
      shown (rounded (rounded (1 / count) * index)) ≤ 1 := by
  have hwidth : 0 ≤ rounded (1 / count) := rounded_nonneg (by positivity)
  refine ⟨shown_nonneg (rounded_nonneg (by positivity)), ?_⟩
  have hmono : shown (rounded (rounded (1 / count) * index)) ≤
      shown (rounded (rounded (1 / count) * count)) := by
    apply shown_mono
    apply rounded_mono
    have hcast : (index : Decimal) ≤ count := by exact_mod_cast h
    exact mul_le_mul_of_nonneg_left hcast hwidth
  have hlast : ∀ count ∈ List.range' 2 19,
      shown (rounded (rounded (1 / (count : ℕ)) * (count : ℕ))) ≤ 1 := by
    decide +kernel
  have hmem : count ∈ List.range' 2 19 := by
    rw [List.mem_range'_1]
    omega
  exact hmono.trans (hlast count hmem)

/-- The observations of a bucket. -/
def bucketMembers (observations : List EvaluationObservation) (policy : EvaluationPolicy)
    (index : ℕ) : List EvaluationObservation :=
  observations.filter fun value =>
    min ⌊rounded (value.directionProbability * policy.calibrationBuckets)⌋.toNat
      (policy.calibrationBuckets - 1) = index

theorem calibrationBucket_eq (observations : List EvaluationObservation) (policy : EvaluationPolicy)
    (index : ℕ) : calibrationBucket observations policy index = (do
      let lowerBound ← quantize (rounded (rounded (1 / policy.calibrationBuckets) * index))
      let upperBound ← quantize (rounded (rounded (1 / policy.calibrationBuckets) * (index + 1)))
      let meanProbability ←
        meanOrZero ((bucketMembers observations policy index).map (·.directionProbability))
      let observedFrequency ← meanOrZero ((bucketMembers observations policy index).map actual)
      unitDecimal lowerBound
      unitDecimal upperBound
      unitDecimal meanProbability
      unitDecimal observedFrequency
      .success ⟨lowerBound, upperBound, (bucketMembers observations policy index).length,
        meanProbability, observedFrequency⟩) := rfl

/-- A bucket is built when its figures are there and between zero and one. -/
theorem checkedBucket_eq (count : ℕ) {x y lower upper probability frequency : Decimal}
    {p f : Call Decimal} (hx : quantize x = .success lower) (hy : quantize y = .success upper)
    (hp : p = .success probability) (hf : f = .success frequency)
    (hlower : 0 ≤ lower ∧ lower ≤ 1) (hupper : 0 ≤ upper ∧ upper ≤ 1)
    (hprobability : 0 ≤ probability ∧ probability ≤ 1)
    (hfrequency : 0 ≤ frequency ∧ frequency ≤ 1) :
    (do
      let lowerBound ← quantize x
      let upperBound ← quantize y
      let meanProbability ← p
      let observedFrequency ← f
      unitDecimal lowerBound
      unitDecimal upperBound
      unitDecimal meanProbability
      unitDecimal observedFrequency
      .success ⟨lowerBound, upperBound, count, meanProbability, observedFrequency⟩ :
        Call CalibrationBucket) = .success ⟨lower, upper, count, probability, frequency⟩ := by
  have hchecked : ∀ value : Decimal, 0 ≤ value ∧ value ≤ 1 → unitDecimal value = .success () :=
    fun value hvalue => unitDecimal_eq_success.mpr hvalue
  simp only [hx, hy, hp, hf, Attempt.success_bind, hchecked lower hlower, hchecked upper hupper,
    hchecked probability hprobability, hchecked frequency hfrequency]

/-- A bucket whose figures are between zero and one, with its count. -/
def SoundBucket (observations : List EvaluationObservation) (policy : EvaluationPolicy) (index : ℕ)
    (bucket : CalibrationBucket) : Prop :=
  bucket.count = (bucketMembers observations policy index).length ∧
    (0 ≤ bucket.meanProbability ∧ bucket.meanProbability ≤ 1) ∧
    0 ≤ bucket.observedFrequency ∧ bucket.observedFrequency ≤ 1

theorem calibrationBucket_spec (policy : EvaluationPolicy) (hcount : observations.length ≤ 1000000)
    {index : ℕ}
    (hindex : index < policy.calibrationBuckets) :
    ∃ bucket, calibrationBucket observations policy index = .success bucket ∧
      SoundBucket observations policy index bucket := by
  have hmembers : (bucketMembers observations policy index).length ≤ 1000000 :=
    (List.length_filter_le _ observations).trans hcount
  have hmap : ∀ f : EvaluationObservation → Decimal,
      ((bucketMembers observations policy index).map f).length ≤ 1000000 := by
    intro f
    rwa [List.length_map]
  have hprobabilities : ∀ value ∈ (bucketMembers observations policy index).map
      (·.directionProbability), 0 ≤ value ∧ value ≤ 1 := by
    intro value hvalue
    obtain ⟨observation, -, rfl⟩ := List.mem_map.mp hvalue
    exact observation.probability_unit
  have hactuals : ∀ value ∈ (bucketMembers observations policy index).map actual,
      0 ≤ value ∧ value ≤ 1 := by
    intro value hvalue
    obtain ⟨observation, -, rfl⟩ := List.mem_map.mp hvalue
    exact actual_unit observation
  obtain ⟨hprobability, hprobabilityUnit⟩ := meanOrZero_eq hprobabilities (hmap _)
  obtain ⟨hfrequency, hfrequencyUnit⟩ := meanOrZero_eq hactuals (hmap _)
  have hlower := bucketBound_unit policy.buckets hindex.le
  have hupper := bucketBound_unit policy.buckets (Nat.succ_le_of_lt hindex)
  rw [Nat.cast_succ] at hupper
  have hbucket := checkedBucket_eq (bucketMembers observations policy index).length
    (quantize_eq (fits_of_unit hlower)) (quantize_eq (fits_of_unit hupper)) hprobability hfrequency
    hlower hupper hprobabilityUnit hfrequencyUnit
  rw [← calibrationBucket_eq] at hbucket
  exact ⟨_, hbucket, rfl, hprobabilityUnit, hfrequencyUnit⟩

/-! ## The calibration error -/

def roundoff : Decimal := 1 / 10 ^ 27

theorem rounded_le_mul {x : Decimal} (h : 0 ≤ x) : rounded x ≤ x * (1 + roundoff) := by
  have hmove := (abs_le.mp (Significant.abs_round_sub_le 28 x)).2
  have hpow : (10 : Decimal) ^ (1 - (28 : ℕ) : ℤ) = roundoff := by norm_num [roundoff]
  rw [abs_of_nonneg h, hpow] at hmove
  rw [rounded]
  linarith

theorem sum_nonneg_of_forall {values : List Decimal} (h : ∀ value ∈ values, 0 ≤ value) :
    0 ≤ values.sum := by
  induction values with
  | nil => simp
  | cons value values ih =>
      obtain ⟨hvalue, hvalues⟩ := List.forall_mem_cons.mp h
      rw [List.sum_cons]
      exact add_nonneg hvalue (ih hvalues)

theorem decimalSum_le_mul {values : List Decimal} (h : ∀ value ∈ values, 0 ≤ value) :
    decimalSum values ≤ values.sum * (1 + roundoff) ^ values.length := by
  have hroundoff : 0 ≤ roundoff := by norm_num [roundoff]
  have hfold : ∀ total : Decimal, 0 ≤ total →
      values.foldl (fun total value => rounded (total + value)) total ≤
        (total + values.sum) * (1 + roundoff) ^ values.length := by
    induction values with
    | nil => simp
    | cons value values ih =>
        intro total htotal
        obtain ⟨hvalue, hvalues⟩ := List.forall_mem_cons.mp h
        have hsum : 0 ≤ values.sum := sum_nonneg_of_forall hvalues
        have hnext := rounded_le_mul (add_nonneg htotal hvalue)
        have hpow : 0 ≤ (1 + roundoff) ^ values.length := by positivity
        rw [List.foldl_cons, List.sum_cons, List.length_cons, pow_succ]
        calc values.foldl (fun total value => rounded (total + value)) (rounded (total + value))
            ≤ (rounded (total + value) + values.sum) * (1 + roundoff) ^ values.length :=
              ih hvalues _ (rounded_nonneg (add_nonneg htotal hvalue))
          _ ≤ ((total + (value + values.sum)) * (1 + roundoff)) * (1 + roundoff) ^
              values.length := by
              apply mul_le_mul_of_nonneg_right _ hpow
              nlinarith
          _ = (total + (value + values.sum)) *
              ((1 + roundoff) ^ values.length * (1 + roundoff)) := by
              ring
  have hzero := hfold 0 le_rfl
  rwa [zero_add] at hzero

theorem length_filter_lt_succ {α : Type} (f : α → ℕ) (xs : List α) (count : ℕ) :
    (xs.filter fun x => f x < count).length + (xs.filter fun x => f x = count).length =
      (xs.filter fun x => f x < count + 1).length := by
  induction xs with
  | nil => rfl
  | cons x xs ih =>
      simp only [List.filter_cons, decide_eq_true_eq]
      rcases lt_trichotomy (f x) count with hlt | heq | hgt
      · rw [if_pos hlt, if_neg hlt.ne, if_pos (by omega), List.length_cons, List.length_cons]
        omega
      · rw [if_neg (by omega), if_pos heq, if_pos (by omega), List.length_cons, List.length_cons]
        omega
      · rw [if_neg (by omega), if_neg hgt.ne', if_neg (by omega), ih]

/-- Each observation is in one bucket at most. -/
theorem sum_bucketMembers_le (observations : List EvaluationObservation) (policy : EvaluationPolicy)
    (count : ℕ) : ((List.range count).map fun index =>
      (bucketMembers observations policy index).length).sum ≤ observations.length := by
  have hfilter : ((List.range count).map fun index =>
      (bucketMembers observations policy index).length).sum =
        (observations.filter fun value =>
          min ⌊rounded (value.directionProbability * policy.calibrationBuckets)⌋.toNat
            (policy.calibrationBuckets - 1) < count).length := by
    induction count with
    | zero => simp
    | succ count ih =>
        rw [List.range_succ, List.map_append, List.sum_append, ih, List.map_singleton,
          List.sum_singleton, bucketMembers, length_filter_lt_succ]
  rw [hfilter]
  exact List.length_filter_le _ observations

/-- What a bucket adds to the calibration error. -/
def bucketError (observations : List EvaluationObservation) (bucket : CalibrationBucket) :
    Decimal :=
  rounded (rounded (bucket.count / observations.length) *
    |rounded (bucket.meanProbability - bucket.observedFrequency)|)

theorem bucketError_bounds (observations : List EvaluationObservation) {bucket : CalibrationBucket}
    (hprobability : 0 ≤ bucket.meanProbability ∧ bucket.meanProbability ≤ 1)
    (hfrequency : 0 ≤ bucket.observedFrequency ∧ bucket.observedFrequency ≤ 1) :
    0 ≤ bucketError observations bucket ∧ bucketError observations bucket ≤
      bucket.count / observations.length * (1 + roundoff) := by
  have hshare : 0 ≤ (bucket.count : Decimal) / observations.length := by positivity
  have hrounded := rounded_nonneg hshare
  have hgap : |rounded (bucket.meanProbability - bucket.observedFrequency)| ≤ 1 := by
    rw [abs_le]
    have hhigh := rounded_le_one (show bucket.meanProbability - bucket.observedFrequency ≤ 1 by
      linarith)
    have hlow := rounded_le_one (show -(bucket.meanProbability - bucket.observedFrequency) ≤ 1 by
      linarith)
    rw [rounded_neg] at hlow
    constructor <;> linarith
  have hround : rounded (rounded ((bucket.count : Decimal) / observations.length)) =
      rounded (bucket.count / observations.length) := Significant.round_round (by omega) _
  refine ⟨rounded_nonneg (mul_nonneg hrounded (abs_nonneg _)), ?_⟩
  calc bucketError observations bucket
      ≤ rounded (rounded (bucket.count / observations.length)) :=
        rounded_mono (mul_le_of_le_one_right hrounded hgap)
    _ = rounded (bucket.count / observations.length) := hround
    _ ≤ bucket.count / observations.length * (1 + roundoff) := rounded_le_mul hshare

theorem sum_bucketErrors_le {indices : List ℕ} {buckets : List CalibrationBucket}
    (h : List.Forall₂ (SoundBucket observations policy) indices buckets) :
    (∀ error ∈ buckets.map (bucketError observations), 0 ≤ error) ∧
      (buckets.map (bucketError observations)).sum ≤
        ((indices.map fun index => (bucketMembers observations policy index).length).sum : ℕ) /
          observations.length * (1 + roundoff) := by
  induction h with
  | nil => simp
  | @cons index bucket indices buckets hbucket _ ih =>
      obtain ⟨hcount, hprobability, hfrequency⟩ := hbucket
      obtain ⟨hnonneg, hsum⟩ := ih
      obtain ⟨hlow, hhigh⟩ := bucketError_bounds observations hprobability hfrequency
      rw [List.map_cons, List.map_cons, List.sum_cons, List.sum_cons, List.forall_mem_cons]
      refine ⟨⟨hlow, hnonneg⟩, ?_⟩
      rw [← hcount, Nat.cast_add, add_div, add_mul]
      linarith

/-- The calibration error of sound buckets is between zero and one. -/
theorem calibrationError_unit (hsome : observations ≠ []) {buckets : List CalibrationBucket}
    (h : List.Forall₂ (SoundBucket observations policy)
      (List.range policy.calibrationBuckets) buckets) :
    0 ≤ shown (decimalSum (buckets.map (bucketError observations))) ∧
      shown (decimalSum (buckets.map (bucketError observations))) ≤ 1 := by
  obtain ⟨hnonneg, hsum⟩ := sum_bucketErrors_le h
  refine ⟨shown_nonneg (decimalSum_signs hnonneg).1, ?_⟩
  have hroundoff : 0 ≤ roundoff := by norm_num [roundoff]
  have hpos : (0 : Decimal) < observations.length := by
    exact_mod_cast List.length_pos_iff.mpr hsome
  have hshares : (((List.range policy.calibrationBuckets).map fun index =>
      (bucketMembers observations policy index).length).sum : Decimal) /
        observations.length ≤ 1 := by
    rw [div_le_one hpos]
    exact_mod_cast sum_bucketMembers_le observations policy policy.calibrationBuckets
  have hlength : (buckets.map (bucketError observations)).length ≤ 20 := by
    rw [List.length_map, ← h.length_eq, List.length_range]
    exact policy.buckets.2
  have hpow : (1 + roundoff) ^ (buckets.map (bucketError observations)).length ≤
      (1 + roundoff) ^ 20 := pow_le_pow_right₀ (by linarith) hlength
  have htotal : (buckets.map (bucketError observations)).sum ≤ 1 + roundoff := by
    refine hsum.trans ?_
    calc _ ≤ 1 * (1 + roundoff) := mul_le_mul_of_nonneg_right hshares (by linarith)
      _ = 1 + roundoff := one_mul _
  have hbound : decimalSum (buckets.map (bucketError observations)) ≤ 1 + 1 / 10 ^ 13 := by
    calc decimalSum (buckets.map (bucketError observations))
        ≤ (buckets.map (bucketError observations)).sum *
            (1 + roundoff) ^ (buckets.map (bucketError observations)).length :=
          decimalSum_le_mul hnonneg
      _ ≤ (1 + roundoff) * (1 + roundoff) ^ 20 :=
          mul_le_mul htotal hpow (by positivity) (by linarith)
      _ ≤ 1 + 1 / 10 ^ 13 := by norm_num [roundoff]
  have hlast : shown (1 + 1 / 10 ^ 13) ≤ 1 := by decide +kernel
  exact (shown_mono hbound).trans hlast

/-- There is always a calibration. -/
theorem evaluateCalibration_succeeds (policy : EvaluationPolicy) (hsome : observations ≠ [])
    (hcount : observations.length ≤ 1000000) :
    (evaluateCalibration observations policy).Succeeds := by
  have hbrier : ∀ value ∈ observations.map fun value =>
      square (rounded (value.directionProbability - actual value)), 0 ≤ value ∧ value ≤ 1 := by
    intro squared hsquared
    obtain ⟨value, -, rfl⟩ := List.mem_map.mp hsquared
    have hprobability := value.probability_unit
    have hactual := actual_unit value
    exact square_unit (by linarith) (by linarith)
  obtain ⟨hlow, hhigh⟩ := meanOf_unit hbrier (by rwa [List.length_map])
  have hunit := And.intro (shown_nonneg hlow) (shown_le_one hhigh)
  obtain ⟨buckets, hbuckets, hsound⟩ := exists_mapM fun index hindex =>
    calibrationBucket_spec policy hcount (List.mem_range.mp hindex)
  have herror := calibrationError_unit hsome hsound
  have hsquares : observations.map (fun value =>
      square (rounded (value.directionProbability - actual value))) ≠ [] := by simpa using hsome
  rw [evaluateCalibration, mean_quantize_bind_succeeds hsquares, hbuckets, Attempt.success_bind]
  refine ⟨fits_of_unit hunit, ?_⟩
  show (quantize (decimalSum (buckets.map (bucketError observations))) >>= _).Succeeds
  rw [quantize_bind_succeeds]
  refine ⟨fits_of_unit herror, ?_⟩
  simp only [unitDecimal, raiseUnless_bind_succeeds, Attempt.pure_eq, success_succeeds, and_true]
  exact ⟨hunit, herror⟩

end Evaluation

end StonksPaper
