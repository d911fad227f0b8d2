import StonksPaper.Analytics.MarketModel

/-!
# Estimation and event apart

A change of returns keeps the days, so it passes through the windows: what it leaves alone in them
is the same study. The estimation window ends before the event, so a change from the event on leaves
the model alone. Later observations only lengthen the event window.
-/

namespace StonksPaper

open Chain

namespace Analytics

variable {request : EventStudyRequest} {policy : EventStudyPolicy}
  {observations permuted extra : List AlignedReturn}

/-! ## Permutations -/

theorem accepts_perm (hperm : permuted.Perm observations)
    (h : Accepts request policy observations) :
    Accepts request policy permuted ∧ aligned permuted = aligned observations := by
  have hunique : (permuted.map (·.tradingDay)).Nodup := (hperm.map _).nodup_iff.mpr h.unique
  have haligned : aligned permuted = aligned observations := sorted_eq_of_perm hperm h.unique
  have hindex : eventIndex request permuted = eventIndex request observations := by
    rw [eventIndex, eventIndex, haligned]
  refine ⟨⟨hunique, fun item hitem => h.past item (hperm.mem_iff.mp hitem), ?_, ?_, ?_⟩, haligned⟩
  · rw [haligned]
    exact h.event
  · rw [hindex]
    exact h.start
  · rw [estimationWindow, hindex, haligned]
    exact h.enough

/-! ## Changes of the returns -/

/-- A change of returns: the day and when it became available stay. -/
def KeepsDays (change : AlignedReturn → AlignedReturn) : Prop :=
  ∀ item, (change item).tradingDay = item.tradingDay ∧
    (change item).availableAt = item.availableAt

section change

variable {change : AlignedReturn → AlignedReturn}

theorem aligned_map (hchange : KeepsDays change) (observations : List AlignedReturn) :
    aligned (observations.map change) = (aligned observations).map change :=
  sorted_map (fun item => (hchange item).1) observations

theorem find_map (hchange : KeepsDays change) (request : EventStudyRequest)
    (xs : List AlignedReturn) :
    (xs.map change).find? (·.tradingDay = request.eventDay) =
      (xs.find? (·.tradingDay = request.eventDay)).map change := by
  rw [List.find?_map]
  simp only [Function.comp_def, (hchange _).1]

theorem eventIndex_map (hchange : KeepsDays change) (request : EventStudyRequest)
    (observations : List AlignedReturn) :
    eventIndex request (observations.map change) = eventIndex request observations := by
  rw [eventIndex, eventIndex, aligned_map hchange, List.findIdx_map]
  simp only [Function.comp_def, (hchange _).1]

theorem window_map {α : Type} (f : α → α) (xs : List α) (start end_ : ℤ) :
    window (xs.map f) start end_ = (window xs start end_).map f := by
  rw [window, window, ← List.map_take, ← List.map_drop]

theorem estimationWindow_map (hchange : KeepsDays change) (request : EventStudyRequest)
    (policy : EventStudyPolicy) (observations : List AlignedReturn) :
    estimationWindow request policy (observations.map change) =
      (estimationWindow request policy observations).map change := by
  rw [estimationWindow, estimationWindow, aligned_map hchange, eventIndex_map hchange, window_map]

theorem eventWindow_map (hchange : KeepsDays change) (request : EventStudyRequest)
    (policy : EventStudyPolicy) (observations : List AlignedReturn) :
    eventWindow request policy (observations.map change) =
      (eventWindow request policy observations).map change := by
  rw [eventWindow, eventWindow, aligned_map hchange, eventIndex_map hchange, window_map,
    List.length_map]

theorem accepts_map (hchange : KeepsDays change) (h : Accepts request policy observations) :
    Accepts request policy (observations.map change) := by
  have hdays : (observations.map change).map (·.tradingDay) = observations.map (·.tradingDay) := by
    rw [List.map_map]
    exact List.map_congr_left fun item _ => (hchange item).1
  obtain ⟨event, hevent, hfiling⟩ := h.event
  refine ⟨hdays ▸ h.unique, ?_, ⟨change event, ?_, ?_⟩, ?_, ?_⟩
  · intro item hitem
    obtain ⟨before, hbefore, rfl⟩ := List.mem_map.mp hitem
    rw [(hchange before).1, (hchange before).2]
    exact h.past before hbefore
  · rw [aligned_map hchange, find_map hchange, hevent, Option.map_some]
  · rwa [(hchange event).2]
  · rw [eventIndex_map hchange]
    exact h.start
  · rw [estimationWindow_map hchange, List.length_map]
    exact h.enough

theorem analyzeEvent_map {car : EventCAR} (hchange : KeepsDays change)
    (h : analyzeEvent exactPrecision request observations policy = .success car) :
    analyzeEvent exactPrecision request (observations.map change) policy =
      .success (carOf request ((estimationWindow request policy observations).map change)
        ((eventWindow request policy observations).map change)) := by
  obtain ⟨haccepts, -⟩ := analyzeEvent_exact_iff.mp h
  rw [analyzeEvent_exact_iff, estimationWindow_map hchange, eventWindow_map hchange]
  exact ⟨accepts_map hchange haccepts, rfl⟩

end change

theorem map_eq_self {α : Type} {f : α → α} {xs : List α} (h : ∀ x ∈ xs, f x = x) :
    xs.map f = xs := by
  rw [List.map_congr_left h, List.map_id']

/-! ## Before the event -/

/-- The estimation window ends before the event. -/
theorem estimationWindow_lt (h : Accepts request policy observations) {item : AlignedReturn}
    (hitem : item ∈ estimationWindow request policy observations) :
    item.tradingDay < request.eventDay := by
  have hend := policy.end_bounds.2
  have hlt := h.index_lt
  have hmem : item ∈ (aligned observations).take (eventIndex request observations) := by
    have htaken := List.mem_of_mem_drop hitem
    exact (List.take_prefix_take_left (by omega)).subset htaken
  obtain ⟨i, hi, rfl⟩ := List.mem_take_iff_getElem.mp hmem
  have hbefore : i < eventIndex request observations := by omega
  have hne : ((aligned observations)[i]).tradingDay ≠ request.eventDay := by
    have hnot := List.not_of_lt_findIdx hbefore
    simpa using hnot
  have hevent : ((aligned observations)[eventIndex request observations]).tradingDay =
      request.eventDay := by
    have hfound := List.findIdx_getElem (w := hlt)
    exact of_decide_eq_true hfound
  have hpairwise : (aligned observations).Pairwise (·.tradingDay ≤ ·.tradingDay) :=
    sorted_pairwise (·.tradingDay) observations
  have hsorted := List.pairwise_iff_getElem.mp hpairwise
  have hle := hsorted i (eventIndex request observations) (by omega) hlt hbefore
  exact lt_of_le_of_ne (hle.trans_eq hevent) hne

/-! ## Later observations -/

theorem aligned_append (hlater : ∀ item ∈ observations, ∀ later ∈ extra,
      item.tradingDay < later.tradingDay)
    (hunique : ((observations ++ extra).map (·.tradingDay)).Nodup) :
    aligned (observations ++ extra) = aligned observations ++ aligned extra := by
  have hpairwise : (aligned observations ++ aligned extra).Pairwise
      (·.tradingDay ≤ ·.tradingDay) := by
    refine List.pairwise_append.mpr ⟨sorted_pairwise _ _, sorted_pairwise _ _, ?_⟩
    intro item hitem later hmem
    exact (hlater item (mem_sorted.mp hitem) later (mem_sorted.mp hmem)).le
  have hperm : (aligned observations ++ aligned extra).Perm (observations ++ extra) :=
    (sorted_perm _ _).append (sorted_perm _ _)
  have hsame := sorted_eq_of_perm hperm hunique
  rw [sorted_of_pairwise hpairwise] at hsame
  exact hsame.symm

theorem eventIndex_append (h : Accepts request policy observations)
    (hlater : ∀ item ∈ observations, ∀ later ∈ extra, item.tradingDay < later.tradingDay)
    (hunique : ((observations ++ extra).map (·.tradingDay)).Nodup) :
    eventIndex request (observations ++ extra) = eventIndex request observations := by
  have hlt := h.index_lt
  unfold eventIndex at hlt ⊢
  rw [aligned_append hlater hunique, List.findIdx_append, if_pos hlt]

theorem estimationWindow_append (h : Accepts request policy observations)
    (hlater : ∀ item ∈ observations, ∀ later ∈ extra, item.tradingDay < later.tradingDay)
    (hunique : ((observations ++ extra).map (·.tradingDay)).Nodup) :
    estimationWindow request policy (observations ++ extra) =
      estimationWindow request policy observations := by
  have hlt := h.index_lt
  have hend := policy.end_bounds.2
  rw [estimationWindow, estimationWindow, eventIndex_append h hlater hunique,
    aligned_append hlater hunique, window, window, List.take_append_of_le_length (by omega)]

theorem eventWindow_append (h : Accepts request policy observations)
    (hlater : ∀ item ∈ observations, ∀ later ∈ extra, item.tradingDay < later.tradingDay)
    (hunique : ((observations ++ extra).map (·.tradingDay)).Nodup) :
    eventWindow request policy observations <+:
      eventWindow request policy (observations ++ extra) := by
  have hlt := h.index_lt
  rw [eventWindow, eventWindow, eventIndex_append h hlater hunique, aligned_append hlater hunique,
    window, window, List.length_append]
  refine List.IsPrefix.drop ?_ _
  refine List.prefix_of_prefix_length_le
    ((List.take_prefix _ _).trans (List.prefix_append _ (aligned extra))) (List.take_prefix _ _) ?_
  rw [List.length_take, List.length_take, List.length_append]
  omega

theorem accepts_append (h : Accepts request policy observations)
    (hlater : ∀ item ∈ observations, ∀ later ∈ extra, item.tradingDay < later.tradingDay)
    (hunique : (extra.map (·.tradingDay)).Nodup)
    (havailable : ∀ later ∈ extra, later.availableAt ≤ request.asOf) :
    Accepts request policy (observations ++ extra) := by
  have hnodup : ((observations ++ extra).map (·.tradingDay)).Nodup := by
    rw [List.map_append, List.nodup_append]
    refine ⟨h.unique, hunique, fun day hday other hother heq => ?_⟩
    obtain ⟨item, hitem, rfl⟩ := List.mem_map.mp hday
    obtain ⟨later, hmem, rfl⟩ := List.mem_map.mp hother
    exact (hlater item hitem later hmem).ne heq
  obtain ⟨event, hevent, hfiling⟩ := h.event
  refine ⟨hnodup, ?_, ⟨event, ?_, hfiling⟩, ?_, ?_⟩
  · intro item hitem
    rcases List.mem_append.mp hitem with hmem | hmem
    · exact h.past item hmem
    · have hpast := havailable item hmem
      exact ⟨hpast, item.available.trans (dateOf_mono hpast)⟩
  · rw [aligned_append hlater hnodup, List.find?_append, hevent, Option.some_or]
  · rw [eventIndex_append h hlater hnodup]
    exact h.start
  · rw [estimationWindow_append h hlater hnodup]
    exact h.enough

theorem carIfAvailable_extended {values longer : List Decimal} {end_ : ℕ} {car : Decimal}
    (hextended : values <+: longer) (h : carIfAvailable .exact values end_ = some car) :
    carIfAvailable .exact longer end_ = some car := by
  have hlength := hextended.length_le
  by_cases hlt : end_ < values.length
  · obtain ⟨rest, rfl⟩ := hextended
    rw [carIfAvailable, if_pos hlt] at h
    rw [carIfAvailable, if_pos (by omega), List.take_append_of_le_length (by omega)]
    exact h
  · rw [carIfAvailable, if_neg hlt] at h
    cases h

/-! ## A shift of the stock returns -/

def addToStock (c : Decimal) (item : AlignedReturn) : AlignedReturn :=
  { item with stockReturn := item.stockReturn + c }

theorem keepsDays_addToStock (c : Decimal) : KeepsDays (addToStock c) := fun _ => ⟨rfl, rfl⟩

theorem modelOf_addToStock {estimation : List AlignedReturn} (h : estimation ≠ []) (c : Decimal) :
    (modelOf (estimation.map (addToStock c))).alpha = (modelOf estimation).alpha + c ∧
      (modelOf (estimation.map (addToStock c))).beta = (modelOf estimation).beta := by
  have hmap : ∀ f : AlignedReturn → Decimal,
      (estimation.map (addToStock c)).map f = estimation.map (f ∘ addToStock c) :=
    fun f => List.map_map
  have hslope : LeastSquares.slope (·.marketReturn) (·.stockReturn)
      (estimation.map (addToStock c)) =
        LeastSquares.slope (·.marketReturn) (fun item => item.stockReturn + c) estimation := by
    simp only [LeastSquares.slope, LeastSquares.variation, LeastSquares.covariation, hmap]
    rfl
  have hintercept : LeastSquares.intercept (·.marketReturn) (·.stockReturn)
      (estimation.map (addToStock c)) =
        LeastSquares.intercept (·.marketReturn) (fun item => item.stockReturn + c) estimation := by
    simp only [LeastSquares.intercept, hslope, hmap]
    rfl
  constructor
  · exact hintercept.trans (LeastSquares.intercept_add_const h c)
  · exact hslope.trans (LeastSquares.slope_add_const h c)

theorem abnormalReturn_addToStock {estimation : List AlignedReturn} (h : estimation ≠ [])
    (c : Decimal) (item : AlignedReturn) :
    abnormalReturn (modelOf (estimation.map (addToStock c))) (addToStock c item) =
      abnormalReturn (modelOf estimation) item := by
  obtain ⟨halpha, hbeta⟩ := modelOf_addToStock h c
  simp only [abnormalReturn, halpha, hbeta, addToStock]
  ring

/-! ## The study -/

/-- The order of the observations does not matter, nor do returns outside the two windows; the model
does not read the event, and is the best line through the estimation window; later observations only
lengthen the study, and a constant in all stock returns leaves what is abnormal of them. -/
theorem analyzeEvent_separates {car : EventCAR}
    (h : analyzeEvent exactPrecision request observations policy = .success car) :
    (∀ permuted : List AlignedReturn, permuted.Perm observations →
      analyzeEvent exactPrecision request permuted policy = .success car) ∧
    (∀ change, KeepsDays change →
      (∀ item, item ∈ estimationWindow request policy observations ∨
        item ∈ eventWindow request policy observations → change item = item) →
      analyzeEvent exactPrecision request (observations.map change) policy = .success car) ∧
    (∀ change, KeepsDays change →
      (∀ item, item.tradingDay < request.eventDay → change item = item) →
      ∃ changed, analyzeEvent exactPrecision request (observations.map change) policy =
          .success changed ∧ changed.marketModel = car.marketModel) ∧
    (∀ extra : List AlignedReturn,
      (∀ item ∈ observations, ∀ later ∈ extra, item.tradingDay < later.tradingDay) →
      (extra.map (·.tradingDay)).Nodup → (∀ later ∈ extra, later.availableAt ≤ request.asOf) →
      ∃ longer, analyzeEvent exactPrecision request (observations ++ extra) policy =
          .success longer ∧ longer.marketModel = car.marketModel ∧
        car.dailyAbnormalReturns <+: longer.dailyAbnormalReturns ∧
        ∀ value, (car.car01 = some value → longer.car01 = some value) ∧
          (car.car02 = some value → longer.car02 = some value) ∧
          (car.car05 = some value → longer.car05 = some value) ∧
          (car.car020 = some value → longer.car020 = some value)) ∧
    (∀ alpha beta : Decimal,
      LeastSquares.squares (·.marketReturn) (·.stockReturn)
          (estimationWindow request policy observations) car.marketModel.alpha
          car.marketModel.beta ≤
        LeastSquares.squares (·.marketReturn) (·.stockReturn)
          (estimationWindow request policy observations) alpha beta) ∧
    ∀ c, ∃ shifted, analyzeEvent exactPrecision request (observations.map (addToStock c)) policy =
        .success shifted ∧ shifted.dailyAbnormalReturns = car.dailyAbnormalReturns := by
  obtain ⟨haccepts, rfl⟩ := analyzeEvent_exact_iff.mp h
  have hsome : estimationWindow request policy observations ≠ [] := by
    have htwo := policy.minimum_bounds.1.trans haccepts.enough
    exact List.length_pos_iff.mp (by omega)
  refine ⟨?_, ?_, ?_, ?_, LeastSquares.squares_le, ?_⟩
  · intro permuted hperm
    obtain ⟨hpermuted, haligned⟩ := accepts_perm hperm haccepts
    rw [analyzeEvent_exact_iff]
    refine ⟨hpermuted, ?_⟩
    simp only [estimationWindow, eventWindow, eventIndex, haligned]
  · intro change hchange hsame
    rw [analyzeEvent_map hchange h, map_eq_self fun item hitem => hsame item (.inl hitem),
      map_eq_self fun item hitem => hsame item (.inr hitem)]
  · intro change hchange hsame
    refine ⟨_, analyzeEvent_map hchange h, ?_⟩
    rw [map_eq_self fun item hitem => hsame item (estimationWindow_lt haccepts hitem)]
    rfl
  · intro extra hlater hunique havailable
    have hlonger := accepts_append haccepts hlater hunique havailable
    have hextended := (eventWindow_append haccepts hlater hlonger.unique).map
      (abnormalReturn (modelOf (estimationWindow request policy observations)))
    refine ⟨_, analyzeEvent_exact_iff.mpr ⟨hlonger, rfl⟩, ?_⟩
    rw [estimationWindow_append haccepts hlater hlonger.unique]
    exact ⟨rfl, hextended, fun value => ⟨carIfAvailable_extended hextended,
      carIfAvailable_extended hextended, carIfAvailable_extended hextended,
      carIfAvailable_extended hextended⟩⟩
  · intro c
    refine ⟨_, analyzeEvent_map (keepsDays_addToStock c) h, ?_⟩
    show (List.map _ (List.map _ _)) = List.map _ _
    rw [List.map_map]
    exact List.map_congr_left fun item _ => abnormalReturn_addToStock hsome c item

end Analytics

namespace AnalyticsScenario

open Analytics

theorem noon_available (day : ℕ) : (day : ℤ) ≤ dateOf ((day : ℤ) * 86400000000 + 43200000000) := by
  unfold dateOf
  omega

/-- The returns of a day are available at noon. -/
def aligned (day : ℕ) (stock market : Decimal) : AlignedReturn where
  tradingDay := day
  stockReturn := stock
  marketReturn := market
  availableAt := day * 86400000000 + 43200000000
  available := noon_available day

theorem request_timeline : dateOf 172800000000 ≤ 2 ∧ 2 ≤ dateOf 864000000000 := by decide

def request : EventStudyRequest where
  eventId := 1
  evidenceId := 2
  instrumentId := 3
  filingAvailableAt := 172800000000
  eventDay := 2
  asOf := 864000000000
  filed := by decide
  timeline := request_timeline

/-- Two days to estimate from, and the day after the event. -/
def policy : EventStudyPolicy where
  estimationStart := -2
  estimationEnd := -1
  minimumEstimationObservations := 2
  eventWindowEnd := 1
  start_bounds := by decide
  end_bounds := by decide
  minimum_bounds := by decide
  window_bounds := by decide
  ordered := by decide

def observations : List AlignedReturn :=
  [aligned 2 (1 / 20) (1 / 100), aligned 0 (1 / 100) 0, aligned 1 (1 / 50) (1 / 100)]

def car : EventCAR where
  eventId := 1
  evidenceId := 2
  instrumentId := 3
  eventDay := 2
  asOf := 864000000000
  marketModel := ⟨1 / 100, 1, 1, 2⟩
  dailyAbnormalReturns := [3 / 100]
  car01 := none
  car02 := none
  car05 := none
  car020 := none

theorem analyzeEvent_observations :
    analyzeEvent exactPrecision request observations policy = .success car := by
  decide +kernel

theorem analyzeEvent_separates_observations :
    analyzeEvent exactPrecision request observations.reverse policy = .success car ∧
      ∃ shifted, analyzeEvent exactPrecision request (observations.map (addToStock (1 / 100)))
          policy = .success shifted ∧ shifted.dailyAbnormalReturns = [3 / 100] := by
  obtain ⟨hperm, -, -, -, -, hshift⟩ := analyzeEvent_separates analyzeEvent_observations
  exact ⟨hperm _ (List.reverse_perm observations), hshift (1 / 100)⟩

end AnalyticsScenario

end StonksPaper
