import StonksPaper.Analytics.EventStudy
import StonksPaper.Base.LeastSquares

/-!
# What a study reads

In exact arithmetic the market model is the least squares line of its estimation window, and a study
is a function of the two windows. Which observations are in them depends on the days only.
-/

namespace StonksPaper

open Chain

namespace Analytics

variable {request : EventStudyRequest} {policy : EventStudyPolicy}
  {observations estimation : List AlignedReturn}

/-! ## The market model -/

/-- The least squares line of the stock over the market. -/
def modelOf (estimation : List AlignedReturn) : MarketModelFit where
  alpha := LeastSquares.intercept (·.marketReturn) (·.stockReturn) estimation
  beta := LeastSquares.slope (·.marketReturn) (·.stockReturn) estimation
  rSquared :=
    let total := LeastSquares.variation (·.stockReturn) estimation
    max 0 (min 1 (if total = 0 then 0 else
      1 - LeastSquares.squares (·.marketReturn) (·.stockReturn) estimation
        (LeastSquares.intercept (·.marketReturn) (·.stockReturn) estimation)
        (LeastSquares.slope (·.marketReturn) (·.stockReturn) estimation) / total))
  nObservations := estimation.length

def abnormalReturn (model : MarketModelFit) (item : AlignedReturn) : Decimal :=
  item.stockReturn - (model.alpha + model.beta * item.marketReturn)

theorem meanOf_exact (f : AlignedReturn → Decimal) (estimation : List AlignedReturn) :
    meanOf .exact (estimation.map f) = Averages.average (estimation.map f) := by
  rw [meanOf, Context.sum_exact, Context.round_exact, Averages.average]

theorem squaresAround_exact (f : AlignedReturn → Decimal) (estimation : List AlignedReturn) :
    squaresAround .exact (Averages.average (estimation.map f)) (estimation.map f) =
      LeastSquares.variation f estimation := by
  simp only [squaresAround, Context.sum_exact, Context.round_exact, List.map_map,
    Function.comp_def, LeastSquares.variation, pow_two]

theorem zipWith_exact (f : Decimal → Decimal → Decimal) (g h : AlignedReturn → Decimal)
    (estimation : List AlignedReturn) :
    List.zipWith f (estimation.map g) (estimation.map h) =
      estimation.map fun item => f (g item) (h item) := by
  rw [List.zipWith_map, List.zipWith_self]

theorem fitMarketModel_exact (h : 2 ≤ estimation.length) :
    fitMarketModel exactPrecision (estimation.map (·.stockReturn))
      (estimation.map (·.marketReturn)) = .success (modelOf estimation) := by
  have hpaired : requirePaired (estimation.map (·.stockReturn))
      (estimation.map (·.marketReturn)) 2 =
      .success () := by
    refine raiseUnless_of ⟨?_, ?_⟩ _
    · rw [List.length_map, List.length_map]
    · rwa [List.length_map]
  rw [fitMarketModel, hpaired, Attempt.success_bind, Attempt.pure_eq, Attempt.success.injEq]
  simp only [exactPrecision, meanOf_exact, squaresAround_exact, List.map_map, zipWith_exact,
    Context.sum_exact, Context.round_exact, Function.comp_def, cleanDecimal, List.length_map,
      modelOf,
    LeastSquares.intercept, LeastSquares.slope, LeastSquares.covariation, LeastSquares.squares,
    pow_two]

theorem computeAbnormalReturns_exact {eventWindow : List AlignedReturn} (h : eventWindow ≠ [])
    (model : MarketModelFit) :
    computeAbnormalReturns .exact (eventWindow.map (·.stockReturn))
      (eventWindow.map (·.marketReturn)) model.alpha model.beta =
        .success (eventWindow.map (abnormalReturn model)) := by
  have hpaired : requirePaired (eventWindow.map (·.stockReturn))
      (eventWindow.map (·.marketReturn)) 1 = .success () := by
    refine raiseUnless_of ⟨?_, ?_⟩ _
    · rw [List.length_map, List.length_map]
    · rw [List.length_map]
      exact List.length_pos_iff.mpr h
  rw [computeAbnormalReturns, hpaired, Attempt.success_bind, Attempt.pure_eq,
    Attempt.success.injEq, zipWith_exact]
  rfl

/-! ## The windows -/

def aligned (observations : List AlignedReturn) : List AlignedReturn :=
  sorted (·.tradingDay) observations

def eventIndex (request : EventStudyRequest) (observations : List AlignedReturn) : ℕ :=
  (aligned observations).findIdx (·.tradingDay = request.eventDay)

def estimationWindow (request : EventStudyRequest) (policy : EventStudyPolicy)
    (observations : List AlignedReturn) : List AlignedReturn :=
  window (aligned observations) (eventIndex request observations + policy.estimationStart)
    (eventIndex request observations + policy.estimationEnd)

def eventWindow (request : EventStudyRequest) (policy : EventStudyPolicy)
    (observations : List AlignedReturn) : List AlignedReturn :=
  window (aligned observations) (eventIndex request observations)
    (min (eventIndex request observations + policy.eventWindowEnd)
      ((aligned observations).length - 1))

/-- The observations that a study accepts. -/
structure Accepts (request : EventStudyRequest) (policy : EventStudyPolicy)
    (observations : List AlignedReturn) : Prop where
  unique : (observations.map (·.tradingDay)).Nodup
  past : ∀ item ∈ observations,
    item.availableAt ≤ request.asOf ∧ item.tradingDay ≤ dateOf request.asOf
  event : ∃ item, (aligned observations).find? (·.tradingDay = request.eventDay) = some item ∧
    request.filingAvailableAt ≤ item.availableAt
  start : 0 ≤ eventIndex request observations + policy.estimationStart
  enough : policy.minimumEstimationObservations ≤
    (estimationWindow request policy observations).length

/-- What is reported of the two windows. -/
def carOf (request : EventStudyRequest) (estimation eventWindow : List AlignedReturn) : EventCAR :=
  let abnormal := eventWindow.map (abnormalReturn (modelOf estimation))
  { eventId := request.eventId
    evidenceId := request.evidenceId
    instrumentId := request.instrumentId
    eventDay := request.eventDay
    asOf := request.asOf
    marketModel := modelOf estimation
    dailyAbnormalReturns := abnormal
    car01 := carIfAvailable .exact abnormal 1
    car02 := carIfAvailable .exact abnormal 2
    car05 := carIfAvailable .exact abnormal 5
    car020 := carIfAvailable .exact abnormal 20 }

theorem Accepts.index_lt (h : Accepts request policy observations) :
    eventIndex request observations < (aligned observations).length := by
  obtain ⟨item, hitem, -⟩ := h.event
  have hday := List.find?_some hitem
  exact List.findIdx_lt_length.mpr ⟨item, List.mem_of_find?_eq_some hitem, hday⟩

theorem eventWindow_ne_nil (h : Accepts request policy observations) :
    eventWindow request policy observations ≠ [] := by
  have hlt := h.index_lt
  intro hnil
  have hlength := congrArg List.length hnil
  simp only [eventWindow, window, List.length_drop, List.length_take, List.length_nil] at hlength
  omega

theorem analyzeEvent_exact_iff {car : EventCAR} :
    analyzeEvent exactPrecision request observations policy = .success car ↔
      Accepts request policy observations ∧
        carOf request (estimationWindow request policy observations)
          (eventWindow request policy observations) = car := by
  simp only [analyzeEvent, validatedObservations, Attempt.bind_eq_success, failUnless_eq_success,
    orFail_eq_success, Attempt.pure_eq, Attempt.success.injEq]
  constructor
  · intro h
    obtain ⟨_, ⟨_, -, _, hunique, _, hpast, rfl⟩, event, hevent, _, hfiling, _, hstart, _, henough,
      model, hmodel, abnormal, habnormal, hcar⟩ := h
    have haccepts : Accepts request policy observations :=
      ⟨hunique, hpast, ⟨event, hevent, hfiling⟩, hstart.1, henough⟩
    have htwo : 2 ≤ (estimationWindow request policy observations).length :=
      policy.minimum_bounds.1.trans henough
    have hfit := fitMarketModel_exact htwo
    obtain rfl := Attempt.success.inj (hfit.symm.trans hmodel)
    have hreturns := computeAbnormalReturns_exact (eventWindow_ne_nil haccepts)
      (modelOf (estimationWindow request policy observations))
    obtain rfl := Attempt.success.inj (hreturns.symm.trans habnormal)
    exact ⟨haccepts, hcar⟩
  · intro h
    obtain ⟨haccepts, hcar⟩ := h
    obtain ⟨event, hevent, hfiling⟩ := haccepts.event
    have hsome : observations ≠ [] := by
      rintro rfl
      simp [aligned] at hevent
    have htwo : 2 ≤ (estimationWindow request policy observations).length :=
      policy.minimum_bounds.1.trans haccepts.enough
    have hordered : (eventIndex request observations : ℤ) + policy.estimationStart ≤
        eventIndex request observations + policy.estimationEnd :=
      add_le_add_right policy.ordered _
    exact ⟨_, ⟨(), hsome, (), haccepts.unique, (), haccepts.past, rfl⟩, event, hevent, (), hfiling,
      (), ⟨haccepts.start, hordered⟩, (), haccepts.enough, _, fitMarketModel_exact htwo, _,
      computeAbnormalReturns_exact (eventWindow_ne_nil haccepts) _, hcar⟩

end Analytics

end StonksPaper
