import Mathlib.Data.Int.ConditionallyCompleteOrder
import StonksPaper.Backtest.Economics

/-!
# The deterministic schedule

`_expected_fill_schedules` of `_backtest_validation.py`, and the plan that it describes: what each
order gets on each bar, in the order of the bars and, on a bar, of the orders.
-/

namespace StonksPaper

open Chain

namespace Backtest

def keyed {α : Type} : Option α → Call α
  | some value => .success value
  | none => .raised (.valueError "KeyError")

end Backtest

namespace BacktestJob

/-- `instruments[id]`. -/
def instrument? (self : BacktestJob) (id : UUID) : Option BacktestInstrument :=
  self.dataset.instruments.find? (·.instrumentId = id)

def orderedBars (self : BacktestJob) : List BacktestBar :=
  sorted (fun item => toLex (item.opensAt, item.barId)) self.dataset.bars

/-- `first_session_date` of an order of the job. -/
def daySession (self : BacktestJob) (order : BacktestOrder) : Option ℤ :=
  (self.instrument? order.instrumentId).bind (self.dataset.calendar.firstSessionDate order)

end BacktestJob

namespace Backtest

def IsOrderOpportunity (order : BacktestOrder) (bar : BacktestBar) : Prop :=
  bar.instrumentId = order.instrumentId ∧ order.issuedAt < bar.opensAt ∧
    bar.opensAt < order.validUntil

instance (order : BacktestOrder) (bar : BacktestBar) : Decidable (IsOrderOpportunity order bar) :=
  inferInstanceAs (Decidable (_ ∧ _))

section

variable [DecimalContext]

/-! ## The schedule of the contract -/

/-- The variables of the loops of `_expected_fill_schedules`. -/
structure ScheduleState where
  remaining : UUID → Decimal
  attemptedIoc : List UUID
  planned : UUID → List (UUID × Decimal)

def ScheduleState.marked (self : ScheduleState) (order : BacktestOrder) : ScheduleState :=
  if order.timeInForce = .ioc then { self with attemptedIoc := order.orderId :: self.attemptedIoc }
  else self

/-- An order takes a quantity of a bar. -/
def ScheduleState.taken (self : ScheduleState) (order : BacktestOrder) (bar : BacktestBar)
    (quantity : Decimal) : ScheduleState :=
  { self with
    planned := Function.update self.planned order.orderId
      (self.planned order.orderId ++ [(bar.barId, quantity)])
    remaining := Function.update self.remaining order.orderId
      (round (self.remaining order.orderId - quantity)) }

/-- The inner loop: an order on a bar. -/
def scheduleOrder (job : BacktestJob) (bar : BacktestBar) (instrument : BacktestInstrument)
    (step : ScheduleState × Decimal) (order : BacktestOrder) : Call (ScheduleState × Decimal) := do
  let (state, available) := step
  if state.remaining order.orderId ≤ 0 ∨ order.orderId ∈ state.attemptedIoc then return step
  else if ¬ IsOrderOpportunity order bar then return step
  else
    match job.dataset.calendar.sessionForBar bar instrument with
    | none => .raised (.valueError "backtest bar session mapping changed")
    | some session =>
        if order.timeInForce = .day ∧ job.daySession order ≠ some session.sessionDate then
          return step
        else
          let state := state.marked order
          if bar.tradable = false then return (state, available)
          else
            let price ← canonicalFillPrice order bar instrument job.costModel
            let quantity := min (state.remaining order.orderId) available
            if price ≠ none ∧ 0 < quantity then
              return (state.taken order bar quantity, round (available - quantity))
            else return (state, available)

/-- The outer loop: a bar. -/
def scheduleBar (job : BacktestJob) (state : ScheduleState) (bar : BacktestBar) :
    Call ScheduleState := do
  let instrument ← keyed (job.instrument? bar.instrumentId)
  let available ← barCapacity bar instrument job.costModel
  let (state, _) ← job.orders.foldlM (scheduleOrder job bar instrument) (state, available)
  return state

omit [DecimalContext] in
def openingRemaining (job : BacktestJob) (id : UUID) : Decimal :=
  ((job.orders.find? (·.orderId = id)).map (·.quantity.value)).getD 0

def expectedFillSchedules (job : BacktestJob) : Call (List (UUID × List (UUID × Decimal))) := do
  let state ← job.orderedBars.foldlM (scheduleBar job) ⟨openingRemaining job, [], fun _ => []⟩
  return job.orders.map fun order => (order.orderId, state.planned order.orderId)

/-! ## The plan -/

omit [DecimalContext] in
/-- What an order gets on a bar. -/
structure Placement where
  order : BacktestOrder
  bar : BacktestBar
  quantity : Decimal

/-- The quantities that are left, the orders that may not try again, and what was placed. -/
structure Plan where
  remaining : UUID → Decimal
  attempted : List UUID
  placements : List Placement

/-- The order takes part in the bar. -/
def Tries (job : BacktestJob) (plan : Plan) (bar : BacktestBar) (instrument : BacktestInstrument)
    (order : BacktestOrder) : Prop :=
  0 < plan.remaining order.orderId ∧ order.orderId ∉ plan.attempted ∧
    IsOrderOpportunity order bar ∧
    (order.timeInForce = .day → job.daySession order =
      (job.dataset.calendar.sessionForBar bar instrument).map (·.sessionDate))

omit [DecimalContext] in
instance (job : BacktestJob) (plan : Plan) (bar : BacktestBar) (instrument : BacktestInstrument)
    (order : BacktestOrder) : Decidable (Tries job plan bar instrument order) :=
  inferInstanceAs (Decidable (_ ∧ _))

def price? (order : BacktestOrder) (bar : BacktestBar) (instrument : BacktestInstrument)
    (cost : BacktestCostModel) : Option Decimal :=
  (canonicalFillPrice order bar instrument cost).toOption.join

def Plan.marked (self : Plan) (order : BacktestOrder) : Plan :=
  if order.timeInForce = .ioc then { self with attempted := order.orderId :: self.attempted }
  else self

def Plan.taken (self : Plan) (order : BacktestOrder) (bar : BacktestBar) (quantity : Decimal) :
    Plan :=
  { self with
    remaining := Function.update self.remaining order.orderId
      (round (self.remaining order.orderId - quantity))
    placements := self.placements ++ [⟨order, bar, quantity⟩] }

/-- An order that tries to get its quantity on a bar. -/
def Plan.place (job : BacktestJob) (bar : BacktestBar) (instrument : BacktestInstrument)
    (step : Plan × Decimal) (order : BacktestOrder) : Plan × Decimal :=
  let (plan, available) := step
  if Tries job plan bar instrument order then
    let quantity := min (plan.remaining order.orderId) available
    if bar.tradable = true ∧ price? order bar instrument job.costModel ≠ none ∧ 0 < quantity then
      ((plan.marked order).taken order bar quantity, round (available - quantity))
    else (plan.marked order, available)
  else step

/-- The capacity of a bar, which is that of `barCapacity`. -/
def capacity (bar : BacktestBar) (instrument : BacktestInstrument) (cost : BacktestCostModel) :
    Decimal :=
  floorQuantum (round (bar.volume.value * cost.maxVolumeParticipation)) instrument.quantityQuantum

def Plan.onBar (job : BacktestJob) (plan : Plan) (bar : BacktestBar) : Plan :=
  match job.instrument? bar.instrumentId with
  | none => plan
  | some instrument => (job.orders.foldl (Plan.place job bar instrument)
      (plan, capacity bar instrument job.costModel)).1

def plan (job : BacktestJob) : Plan :=
  job.orderedBars.foldl (Plan.onBar job) ⟨openingRemaining job, [], []⟩

def placedFor (placements : List Placement) (id : UUID) : List (UUID × Decimal) :=
  (placements.filter (·.order.orderId = id)).map fun item => (item.bar.barId, item.quantity)

def groupedBy (job : BacktestJob) (placements : List Placement) :
    List (UUID × List (UUID × Decimal)) :=
  job.orders.map fun order => (order.orderId, placedFor placements order.orderId)

/-! ## The contract follows the plan -/

/-- The check on the capacity of every bar. -/
def CapacitiesBounded (job : BacktestJob) : Prop :=
  ∀ bar ∈ job.dataset.bars,
    |productAdjusted bar.volume job.costModel.maxVolumeParticipation| ≤ 64

def Plan.schedule (plan : Plan) : ScheduleState :=
  ⟨plan.remaining, plan.attempted, placedFor plan.placements⟩

section

variable {job : BacktestJob} {bar : BacktestBar} {order : BacktestOrder}
  {instrument : BacktestInstrument} {plan : Plan} {available : Decimal}

omit [DecimalContext] in
theorem mem_orderedBars : bar ∈ job.orderedBars ↔ bar ∈ job.dataset.bars := mem_sorted

omit [DecimalContext] in
theorem instrument?_eq_some (h : job.instrument? bar.instrumentId = some instrument) :
    instrument ∈ job.dataset.instruments ∧ instrument.instrumentId = bar.instrumentId :=
  ⟨List.mem_of_find?_eq_some h, by simpa using List.find?_some h⟩

omit [DecimalContext] in
theorem instrument?_of_mem {id : UUID} (h : instrument ∈ job.dataset.instruments)
    (hid : instrument.instrumentId = id) : job.instrument? id = some instrument := by
  have hsome : (job.instrument? id).isSome = true := by
    rw [BacktestJob.instrument?, List.find?_isSome]
    exact ⟨instrument, h, by simpa using hid⟩
  obtain ⟨other, hother⟩ := Option.isSome_iff_exists.mp hsome
  have hmem := List.mem_of_find?_eq_some hother
  have hotherId : other.instrumentId = id := by simpa using List.find?_some hother
  obtain rfl : other = instrument :=
    List.inj_on_of_nodup_map job.dataset.instrumentsOrdered.2 hmem h (hotherId.trans hid.symm)
  exact hother

omit [DecimalContext] in
theorem exists_session (h : bar ∈ job.dataset.bars) : ∃ instrument session,
    job.instrument? bar.instrumentId = some instrument ∧
      job.dataset.calendar.sessionForBar bar instrument = some session := by
  obtain ⟨instrument, hmem, hid, -, -, -, session, hsession, -⟩ := job.dataset.barsValid bar h
  exact ⟨instrument, session, instrument?_of_mem hmem hid, hsession⟩

omit [DecimalContext] in
theorem session_of_bar (h : bar ∈ job.dataset.bars)
    (hinstrument : job.instrument? bar.instrumentId = some instrument) :
    ∃ session, job.dataset.calendar.sessionForBar bar instrument = some session := by
  obtain ⟨other, session, hother, hsession⟩ := exists_session h
  obtain rfl := Option.some.inj (hother.symm.trans hinstrument)
  exact ⟨session, hsession⟩

theorem price?_of_success {price : Option Decimal}
    (h : canonicalFillPrice order bar instrument job.costModel = .success price) :
    price? order bar instrument job.costModel = price := by
  rw [price?, h]
  rfl

omit [DecimalContext] in
theorem placedFor_append {placements : List Placement} {item : Placement} :
    placedFor (placements ++ [item]) =
      Function.update (placedFor placements) item.order.orderId
        (placedFor placements item.order.orderId ++ [(item.bar.barId, item.quantity)]) := by
  funext id
  by_cases hid : item.order.orderId = id
  · subst hid
    rw [Function.update_self]
    simp [placedFor]
  · rw [Function.update_of_ne (Ne.symm hid)]
    simp [placedFor, hid]

omit [DecimalContext] in
theorem not_tries_of_day {session : BacktestSession}
    (hsession : job.dataset.calendar.sessionForBar bar instrument = some session)
    (hday : order.timeInForce = .day ∧ job.daySession order ≠ some session.sessionDate) :
    ¬ Tries job plan bar instrument order := by
  rintro ⟨-, -, -, h⟩
  exact hday.2 (by rw [h hday.1, hsession]; rfl)

omit [DecimalContext] in
theorem tries_of {session : BacktestSession}
    (hsession : job.dataset.calendar.sessionForBar bar instrument = some session)
    (hleft : ¬ (plan.remaining order.orderId ≤ 0 ∨ order.orderId ∈ plan.attempted))
    (hopportunity : IsOrderOpportunity order bar)
    (hday : ¬ (order.timeInForce = .day ∧ job.daySession order ≠ some session.sessionDate)) :
    Tries job plan bar instrument order := by
  rw [not_or, not_le] at hleft
  refine ⟨hleft.1, hleft.2, hopportunity, fun h => ?_⟩
  rw [hsession, Option.map_some]
  exact by_contra fun hne => hday ⟨h, hne⟩

omit [DecimalContext] in
@[simp] theorem remaining_marked : (plan.marked order).remaining = plan.remaining := by
  unfold Plan.marked
  split <;> rfl

omit [DecimalContext] in
@[simp] theorem placements_marked : (plan.marked order).placements = plan.placements := by
  unfold Plan.marked
  split <;> rfl

omit [DecimalContext] in
theorem schedule_marked : (plan.marked order).schedule = plan.schedule.marked order := by
  unfold Plan.marked ScheduleState.marked
  split <;> rfl

theorem schedule_taken {quantity : Decimal} :
    (plan.taken order bar quantity).schedule = plan.schedule.taken order bar quantity := by
  simp only [Plan.taken, Plan.schedule, ScheduleState.taken, placedFor_append]

/-- One order on one bar. -/
theorem scheduleOrder_eq (hlaw : Lawful) (hjob : job.Valid) (horder : order ∈ job.orders)
    (hbar : bar ∈ job.dataset.bars)
    (hinstrument : job.instrument? bar.instrumentId = some instrument) :
    scheduleOrder job bar instrument (plan.schedule, available) order =
      .success ((Plan.place job bar instrument (plan, available) order).1.schedule,
        (Plan.place job bar instrument (plan, available) order).2) := by
  obtain ⟨session, hsession⟩ := session_of_bar hbar hinstrument
  obtain ⟨hmem, hid⟩ := instrument?_eq_some hinstrument
  have hleft_iff : (plan.schedule.remaining order.orderId ≤ 0 ∨
      order.orderId ∈ plan.schedule.attemptedIoc) ↔
      (plan.remaining order.orderId ≤ 0 ∨ order.orderId ∈ plan.attempted) := Iff.rfl
  by_cases hleft : plan.remaining order.orderId ≤ 0 ∨ order.orderId ∈ plan.attempted
  · have hnot : ¬ Tries job plan bar instrument order := by
      rintro ⟨hpos, hnew, -⟩
      rcases hleft with h | h
      · exact absurd hpos (not_lt.mpr h)
      · exact hnew h
    simp only [scheduleOrder, Plan.place, hleft_iff, hleft, hnot, ↓reduceIte, Attempt.pure_eq]
  · by_cases hopportunity : IsOrderOpportunity order bar
    · by_cases hday : order.timeInForce = .day ∧ job.daySession order ≠ some session.sessionDate
      · have hnot : ¬ Tries job plan bar instrument order := not_tries_of_day hsession hday
        simp only [scheduleOrder, Plan.place, hleft_iff, hleft, hopportunity, hsession, hday, hnot,
          not_true_eq_false, ↓reduceIte, Attempt.pure_eq, ne_eq, not_false_eq_true, and_self]
      · have htries := tries_of hsession hleft hopportunity hday
        obtain ⟨price, hprice⟩ := canonicalFillPrice_of_valid hlaw hjob horder hbar hmem hid
          hopportunity.1.symm
        have hprice? := price?_of_success hprice
        have hquantity : (plan.schedule.marked order).remaining = plan.remaining := by
          rw [← schedule_marked]
          exact remaining_marked
        simp only [scheduleOrder, Plan.place, hleft_iff, hleft, hopportunity, hsession, hday,
          htries, not_true_eq_false, ↓reduceIte, Attempt.pure_eq, hprice, hprice?,
          Attempt.success_bind, hquantity]
        cases htradable : bar.tradable with
        | false => simp only [Bool.false_eq_true, false_and, ↓reduceIte, schedule_marked]
        | true =>
            simp only [Bool.true_eq_false, true_and, ↓reduceIte]
            split
            · rw [schedule_taken, schedule_marked]
            · rw [schedule_marked]
    · have hnot : ¬ Tries job plan bar instrument order := fun h => hopportunity h.2.2.1
      simp only [scheduleOrder, Plan.place, hleft_iff, hleft, hopportunity, hnot,
        not_false_eq_true, ↓reduceIte, Attempt.pure_eq]

theorem scheduleBar_eq (hlaw : Lawful) (hjob : job.Valid) (hbar : bar ∈ job.dataset.bars)
    (hcapacity : |productAdjusted bar.volume job.costModel.maxVolumeParticipation| ≤ 64) :
    scheduleBar job plan.schedule bar = .success (plan.onBar job bar).schedule := by
  obtain ⟨instrument, session, hinstrument, -⟩ := exists_session hbar
  have hloop := Attempt.foldlM_eq_foldl (v := fun t : Plan × Decimal => (t.1.schedule, t.2))
    (fun order horder _ => scheduleOrder_eq hlaw hjob horder hbar hinstrument)
    (plan, capacity bar instrument job.costModel)
  simp only [scheduleBar, Plan.onBar, hinstrument, keyed, Attempt.success_bind, barCapacity,
    raiseUnless_of hcapacity, Attempt.pure_eq]
  rw [← capacity, hloop]
  rfl

theorem expectedFillSchedules_eq (hlaw : Lawful) (hjob : job.Valid)
    (hcapacities : CapacitiesBounded job) :
    expectedFillSchedules job = .success (groupedBy job (Backtest.plan job).placements) := by
  have hbars : ∀ bar ∈ job.orderedBars, ∀ plan : Plan,
      scheduleBar job plan.schedule bar = .success (plan.onBar job bar).schedule := by
    intro bar hbar plan
    have hmem := mem_orderedBars.mp hbar
    exact scheduleBar_eq hlaw hjob hmem (hcapacities bar hmem)
  have hloop := Attempt.foldlM_eq_foldl hbars ⟨openingRemaining job, [], []⟩
  unfold expectedFillSchedules
  rw [show (⟨openingRemaining job, [], fun _ => []⟩ : ScheduleState) =
    Plan.schedule ⟨openingRemaining job, [], []⟩ from rfl, hloop]
  rfl

theorem bounded_of_barCapacity {cost : BacktestCostModel}
    (h : barCapacity bar instrument cost = .success available) :
    |productAdjusted bar.volume cost.maxVolumeParticipation| ≤ 64 := by
  obtain ⟨_, hbound, -⟩ := Attempt.bind_eq_success.mp h
  exact raiseUnless_eq_success.mp hbound

theorem capacitiesBounded_of_success {expected : List (UUID × List (UUID × Decimal))}
    (h : expectedFillSchedules job = .success expected) : CapacitiesBounded job := by
  obtain ⟨state, hstate, -⟩ := Attempt.bind_eq_success.mp h
  have hround : ∀ (a : ScheduleState) (bar : BacktestBar) (b : ScheduleState),
      scheduleBar job a bar = .success b →
        |productAdjusted bar.volume job.costModel.maxVolumeParticipation| ≤ 64 := by
    intro a bar b hb
    obtain ⟨_, -, hb⟩ := Attempt.bind_eq_success.mp hb
    obtain ⟨_, hcapacity, -⟩ := Attempt.bind_eq_success.mp hb
    exact bounded_of_barCapacity hcapacity
  intro bar hbar
  exact Attempt.forall_of_foldlM hround hstate bar (mem_orderedBars.mpr hbar)

/-! ## What the plan holds -/

omit [DecimalContext] in
theorem eq_of_opensAt {other : BacktestBar} (h : bar ∈ job.dataset.bars)
    (hother : other ∈ job.dataset.bars) (hsame : bar.instrumentId = other.instrumentId)
    (hopens : bar.opensAt = other.opensAt) : bar = other := by
  have hchain := job.dataset.apart bar.instrumentId (List.mem_map_of_mem h)
  have hlater : (job.dataset.bars.filter (·.instrumentId = bar.instrumentId)).IsChain
      fun previous current => previous.opensAt < current.opensAt :=
    hchain.imp fun previous _ hle => previous.timeline.1.trans_le hle
  have htrans : IsTrans BacktestBar fun a b => a.opensAt < b.opensAt := ⟨fun _ _ _ => lt_trans⟩
  have hpairwise := List.isChain_iff_pairwise.mp hlater
  have hnodup : ((job.dataset.bars.filter (·.instrumentId = bar.instrumentId)).map
      (·.opensAt)).Nodup := List.pairwise_map.mpr (hpairwise.imp fun hlt => hlt.ne)
  exact List.inj_on_of_nodup_map hnodup (List.mem_filter.mpr ⟨h, by simp⟩)
    (List.mem_filter.mpr ⟨hother, by simp [hsame]⟩) hopens

omit [DecimalContext] in
theorem orderedBars_pairwise : job.orderedBars.Pairwise fun earlier later =>
    earlier.instrumentId = later.instrumentId → earlier.opensAt < later.opensAt := by
  have hsorted := sorted_pairwise (fun item : BacktestBar => toLex (item.opensAt, item.barId))
    job.dataset.bars
  have hnodup : job.orderedBars.Nodup :=
    (sorted_perm _ _).nodup_iff.mpr (List.Nodup.of_map _ job.dataset.barsUnique)
  refine (hsorted.and hnodup).imp_of_mem fun {a b} ha hb hab hsame => ?_
  have hle : a.opensAt ≤ b.opensAt := by
    rcases Prod.Lex.le_iff.mp hab.1 with h | ⟨h, -⟩
    · exact h.le
    · exact h.le
  refine lt_of_le_of_ne hle fun hopens => hab.2 ?_
  exact eq_of_opensAt (mem_orderedBars.mp ha) (mem_orderedBars.mp hb) hsame hopens

variable (job bar order instrument) in
/-- What a round of the plan does. -/
theorem place_cases (plan : Plan) (available : Decimal) :
    Plan.place job bar instrument (plan, available) order = (plan, available) ∨
    Tries job plan bar instrument order ∧
      (Plan.place job bar instrument (plan, available) order = (plan.marked order, available) ∨
        bar.tradable = true ∧ price? order bar instrument job.costModel ≠ none ∧
        0 < min (plan.remaining order.orderId) available ∧
        Plan.place job bar instrument (plan, available) order =
          ((plan.marked order).taken order bar (min (plan.remaining order.orderId) available),
            round (available - min (plan.remaining order.orderId) available))) := by
  by_cases htries : Tries job plan bar instrument order
  · refine Or.inr ⟨htries, ?_⟩
    simp only [Plan.place, htries, ↓reduceIte]
    split
    · rename_i h
      exact Or.inr ⟨h.1, h.2.1, h.2.2, rfl⟩
    · exact Or.inl rfl
  · exact Or.inl (by simp only [Plan.place, htries, ↓reduceIte])

/-- What a placement is made from. -/
structure Placed (job : BacktestJob) (item : Placement) : Prop where
  order : item.order ∈ job.orders
  bar : item.bar ∈ job.dataset.bars
  opportunity : IsOrderOpportunity item.order item.bar
  tradable : item.bar.tradable = true
  priced : ∃ instrument, job.instrument? item.bar.instrumentId = some instrument ∧
    price? item.order item.bar instrument job.costModel ≠ none
  positive : 0 < item.quantity

/-- The placements so far: each is made from the job, those of one order are in the order of time,
and they are before the bars that are to come. -/
structure Ascending (job : BacktestJob) (bars : List BacktestBar) (plan : Plan) : Prop where
  placed : ∀ item ∈ plan.placements, Placed job item
  pairwise : plan.placements.Pairwise fun earlier later =>
    earlier.order.orderId = later.order.orderId → earlier.bar.opensAt < later.bar.opensAt
  before : ∀ item ∈ plan.placements, ∀ bar ∈ bars, item.bar.instrumentId = bar.instrumentId →
    item.bar.opensAt < bar.opensAt

omit [DecimalContext] in
theorem order_eq {other : BacktestOrder} (h : order ∈ job.orders) (hother : other ∈ job.orders)
    (hid : order.orderId = other.orderId) : order = other :=
  List.inj_on_of_nodup_map job.ordersUnique h hother hid

/-- The orders that are still to come on a bar have nothing on it. -/
theorem ascending_foldl_place {orders : List BacktestOrder} {bars : List BacktestBar}
    (hbar : bar ∈ job.dataset.bars)
    (hinstrument : job.instrument? bar.instrumentId = some instrument)
    (horders : ∀ order ∈ orders, order ∈ job.orders) (hunique : (orders.map (·.orderId)).Nodup)
    (hlater : ∀ later ∈ bars, bar.instrumentId = later.instrumentId → bar.opensAt < later.opensAt)
    (h : Ascending job bars plan)
    (hthis : ∀ item ∈ plan.placements, item.bar.instrumentId = bar.instrumentId →
      item.bar.opensAt < bar.opensAt ∨ item.order.orderId ∉ orders.map (·.orderId)) :
    Ascending job bars (orders.foldl (Plan.place job bar instrument) (plan, available)).1 := by
  induction orders generalizing plan available with
  | nil => exact h
  | cons order orders ih =>
      rw [List.map_cons, List.nodup_cons] at hunique
      have hskip : ∀ item ∈ plan.placements, item.bar.instrumentId = bar.instrumentId →
          item.bar.opensAt < bar.opensAt ∨ item.order.orderId ∉ orders.map (·.orderId) := by
        intro item hitem hsame
        refine (hthis item hitem hsame).imp_right fun hnot => ?_
        rw [List.map_cons, List.mem_cons, not_or] at hnot
        exact hnot.2
      have hrest : ∀ order ∈ orders, order ∈ job.orders := fun other hother =>
        horders other (List.mem_cons_of_mem _ hother)
      rw [List.foldl_cons]
      rcases place_cases job bar order instrument plan
        available with heq | ⟨htries, heq | ⟨htradable, hprice, hpositive, heq⟩⟩
      · rw [heq]
        exact ih hrest hunique.2 h hskip
      · rw [heq]
        refine ih hrest hunique.2 ⟨?_, ?_, ?_⟩ ?_ <;> rw [placements_marked]
        · exact h.placed
        · exact h.pairwise
        · exact h.before
        · exact hskip
      · rw [heq]
        have hopportunity := htries.2.2.1
        have horder := horders order List.mem_cons_self
        have hplacements : ((plan.marked order).taken order bar
            (min (plan.remaining order.orderId) available)).placements =
            plan.placements ++ [⟨order, bar, min (plan.remaining order.orderId) available⟩] := by
          rw [Plan.taken, placements_marked]
        refine ih hrest hunique.2 ⟨?_, ?_, ?_⟩ ?_ <;> rw [hplacements]
        · intro item hitem
          rcases List.mem_append.mp hitem with hitem | hitem
          · exact h.placed item hitem
          · obtain rfl := List.mem_singleton.mp hitem
            exact ⟨horder, hbar, hopportunity, htradable, ⟨instrument, hinstrument, hprice⟩,
              hpositive⟩
        · refine List.pairwise_append.mpr ⟨h.pairwise, List.pairwise_singleton _ _, ?_⟩
          intro item hitem last hlast hid
          obtain rfl := List.mem_singleton.mp hlast
          have hplaced := h.placed item hitem
          have hsame : item.bar.instrumentId = bar.instrumentId := by
            rw [hplaced.opportunity.1, hopportunity.1, order_eq hplaced.order horder hid]
          refine (hthis item hitem hsame).resolve_right fun hnot => hnot ?_
          rw [hid]
          exact List.mem_map_of_mem List.mem_cons_self
        · intro item hitem later hmem hsame
          rcases List.mem_append.mp hitem with hitem | hitem
          · exact h.before item hitem later hmem hsame
          · obtain rfl := List.mem_singleton.mp hitem
            exact hlater later hmem hsame
        · intro item hitem hsame
          rcases List.mem_append.mp hitem with hitem | hitem
          · exact hskip item hitem hsame
          · obtain rfl := List.mem_singleton.mp hitem
            exact Or.inr hunique.1

theorem ascending_foldl_onBar {bars : List BacktestBar} (hbars : ∀ bar ∈ bars,
    bar ∈ job.dataset.bars) (hpairwise : bars.Pairwise fun earlier later =>
      earlier.instrumentId = later.instrumentId → earlier.opensAt < later.opensAt)
    (h : Ascending job bars plan) : Ascending job [] (bars.foldl (Plan.onBar job) plan) := by
  induction bars generalizing plan with
  | nil => exact h
  | cons bar bars ih =>
      rw [List.pairwise_cons] at hpairwise
      have hbar := hbars bar List.mem_cons_self
      obtain ⟨instrument, session, hinstrument, -⟩ := exists_session hbar
      rw [List.foldl_cons]
      refine ih (fun other hother => hbars other (List.mem_cons_of_mem _ hother)) hpairwise.2 ?_
      simp only [Plan.onBar, hinstrument]
      refine ascending_foldl_place hbar hinstrument (fun _ h => h) job.ordersUnique hpairwise.1
        ⟨h.placed, h.pairwise, fun item hitem other hother =>
          h.before item hitem other (List.mem_cons_of_mem _ hother)⟩ ?_
      intro item hitem hsame
      exact Or.inl (h.before item hitem bar List.mem_cons_self hsame)

theorem ascending_plan : Ascending job [] (Backtest.plan job) := by
  refine ascending_foldl_onBar (fun bar hbar => mem_orderedBars.mp hbar) orderedBars_pairwise
    ⟨?_, List.Pairwise.nil, ?_⟩ <;> simp

end

end

end Backtest

end StonksPaper
