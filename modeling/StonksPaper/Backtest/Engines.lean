import StonksPaper.Backtest.Schedule

/-!
# The schedulers of the engines

`_schedule` of the Nautilus and of the LEAN sidecar. Both plan children in the order of the bars and
of the orders, as the contract does, and sort them at the end.
-/

namespace StonksPaper

open Chain

namespace Backtest

def paddedDigits (base width n : ℕ) : String :=
  let digits := Nat.toDigits base n
  String.ofList (List.replicate (width - digits.length) '0' ++ digits)

/-- `f"B{order_id.hex}-{index:07d}"`. -/
def childName (orderId : UUID) (index : ℕ) : String :=
  "B" ++ paddedDigits 16 32 orderId ++ "-" ++ paddedDigits 10 7 index

/-! ## Nautilus -/

namespace NautilusEngine

structure ScheduledChild where
  canonicalOrderId : UUID
  clientOrderId : String
  instrumentId : String
  side : BacktestOrderSide
  orderType : BacktestOrderType
  timeInForce : BacktestTimeInForce
  quantity : Decimal
  limitPrice : Option DecimalString
  sourceBarId : UUID
  sourceOpensAtNs : ℤ
deriving DecidableEq

/-- The variables of the loops of `_schedule`. -/
structure State where
  remaining : UUID → Decimal
  attemptedIoc : List UUID
  childCounts : UUID → ℕ
  result : List ScheduledChild

/-- `_instrument_ids`. -/
def instrumentId (job : BacktestJob) (id : UUID) : Call String :=
  keyed ((job.instrument? id).map fun item => item.symbol ++ "." ++ item.mic)

section

variable [DecimalContext] (unixNanos : UTCDateTime → ℤ)

def scheduledChild (order : BacktestOrder) (bar : BacktestBar) (instrumentId : String)
    (quantity : Decimal) (index : ℕ) : ScheduledChild where
  canonicalOrderId := order.orderId
  clientOrderId := childName order.orderId index
  instrumentId := instrumentId
  side := order.side
  orderType := order.orderType
  timeInForce := order.timeInForce
  quantity := quantity
  limitPrice := order.limitPrice
  sourceBarId := bar.barId
  sourceOpensAtNs := unixNanos bar.opensAt

def State.marked (self : State) (order : BacktestOrder) : State :=
  if order.timeInForce = .ioc then { self with attemptedIoc := order.orderId :: self.attemptedIoc }
  else self

/-- The child that is appended, and the quantity that it takes. -/
def State.appended (self : State) (order : BacktestOrder) (bar : BacktestBar)
    (instrumentId : String) (quantity : Decimal) : State :=
  let count := self.childCounts order.orderId + 1
  { self with
    childCounts := Function.update self.childCounts order.orderId count
    result := self.result ++ [scheduledChild unixNanos order bar instrumentId quantity count]
    remaining := Function.update self.remaining order.orderId
      (round (self.remaining order.orderId - quantity)) }

def scheduleOrder (job : BacktestJob) (maxChildren : ℕ) (bar : BacktestBar)
    (instrument : BacktestInstrument) (step : State × Decimal) (order : BacktestOrder) :
    Call (State × Decimal) := do
  let (state, available) := step
  if state.remaining order.orderId ≤ 0 ∨ order.orderId ∈ state.attemptedIoc then return step
  else if ¬ IsOrderOpportunity order bar then return step
  else
    match job.dataset.calendar.sessionForBar bar instrument with
    | none => .raised (.valueError "Nautilus bar session mapping changed")
    | some session =>
        if order.timeInForce = .day ∧ job.daySession order ≠ some session.sessionDate then
          return step
        else
          let state := state.marked order
          if bar.tradable = false then return (state, available)
          else
            let price ← canonicalFillPrice order bar instrument job.costModel
            let quantity := min (state.remaining order.orderId) available
            if price ≠ none ∧ 0 < quantity then
              raiseUnless (state.result.length < maxChildren) "schedule too large"
              let native ← instrumentId job order.instrumentId
              return (state.appended unixNanos order bar native quantity,
                round (available - quantity))
            else return (state, available)

def scheduleBar (job : BacktestJob) (maxChildren : ℕ) (state : State) (bar : BacktestBar) :
    Call State := do
  let instrument ← keyed (job.instrument? bar.instrumentId)
  let available ← barCapacity bar instrument job.costModel
  let (state, _) ← job.orders.foldlM (scheduleOrder unixNanos job maxChildren bar instrument)
    (state, available)
  return state

def schedule (job : BacktestJob) (maxChildren : ℕ) : Call (List ScheduledChild) := do
  let state ← job.orderedBars.foldlM (scheduleBar unixNanos job maxChildren)
    ⟨openingRemaining job, [], fun _ => 0, []⟩
  return sorted (fun item => toLex (item.sourceOpensAtNs, item.clientOrderId)) state.result

end

/-- The source bar and the quantity of the children of each order. -/
def schedulesOf (job : BacktestJob) (children : List ScheduledChild) :
    List (UUID × List (UUID × Decimal)) :=
  job.orders.map fun order => (order.orderId,
    (children.filter (·.canonicalOrderId = order.orderId)).map fun item =>
      (item.sourceBarId, item.quantity))

end NautilusEngine

/-! ## LEAN -/

namespace LeanEngine

structure ScheduledChild where
  canonicalOrderId : UUID
  childId : String
  symbol : String
  side : BacktestOrderSide
  orderType : BacktestOrderType
  timeInForce : BacktestTimeInForce
  quantity : Decimal
  nativeLimitPrice : Option Decimal
  sourceBarId : UUID
  sourceOpensAt : UTCDateTime
deriving DecidableEq

/-- The dictionaries that `_schedule_order_on_bar` changes. -/
structure State where
  remaining : UUID → Decimal
  attempts : List UUID
  childCounts : UUID → ℕ
  result : List ScheduledChild

def daySessions (job : BacktestJob) : Call (UUID → Option ℤ) :=
  job.orders.foldlM (fun result order => do
    if order.timeInForce ≠ .day then return result
    else
      match job.daySession order with
      | none => .raised (.valueError "LEAN DAY order has no canonical session")
      | some first => return Function.update result order.orderId (some first)) fun _ => none

section

variable [DecimalContext]

def scheduledChild (order : BacktestOrder) (bar : BacktestBar) (symbol : String)
    (priceQuantum quantity : Decimal) (index : ℕ) : ScheduledChild where
  canonicalOrderId := order.orderId
  childId := childName order.orderId index
  symbol := symbol
  side := order.side
  orderType := order.orderType
  timeInForce := order.timeInForce
  quantity := quantity
  nativeLimitPrice := order.limitPrice.map fun limit =>
    if order.orderType = .limit then
      match order.side with
      | .buy => max limit.value (round (bar.open_ + priceQuantum))
      | .sell => min limit.value (round (bar.open_ - priceQuantum))
    else limit.value
  sourceBarId := bar.barId
  sourceOpensAt := bar.opensAt

def State.marked (self : State) (order : BacktestOrder) : State :=
  if order.timeInForce = .ioc then { self with attempts := order.orderId :: self.attempts }
  else self

def State.appended (self : State) (order : BacktestOrder) (bar : BacktestBar)
    (instrument : BacktestInstrument) (quantity : Decimal) : State :=
  let count := self.childCounts order.orderId + 1
  { self with
    childCounts := Function.update self.childCounts order.orderId count
    result := self.result ++
      [scheduledChild order bar instrument.symbol instrument.priceQuantum quantity count]
    remaining := Function.update self.remaining order.orderId
      (round (self.remaining order.orderId - quantity)) }

/-- `_schedule_order_on_bar`: the price comes before the check that the bar is tradable. -/
def scheduleOrderOnBar (job : BacktestJob) (sessions : UUID → Option ℤ) (maximum : ℕ)
    (bar : BacktestBar) (step : State × Decimal) (order : BacktestOrder) :
    Call (State × Decimal) := do
  let (state, available) := step
  if state.remaining order.orderId ≤ 0 ∨ order.orderId ∈ state.attempts then return step
  else if ¬ IsOrderOpportunity order bar then return step
  else
    let instrument ← keyed (job.instrument? bar.instrumentId)
    match job.dataset.calendar.sessionForBar bar instrument with
    | none => .raised (.valueError "LEAN bar session mapping changed")
    | some session =>
        if order.timeInForce = .day ∧ sessions order.orderId ≠ some session.sessionDate then
          return step
        else
          let state := state.marked order
          let price ← canonicalFillPrice order bar instrument job.costModel
          if bar.tradable = false ∨ price = none then return (state, available)
          else
            let quantity := min (state.remaining order.orderId) available
            if quantity ≤ 0 then return (state, available)
            else
              raiseUnless (state.result.length < maximum)
                "LEAN schedule exceeds configured limits"
              return (state.appended order bar instrument quantity, round (available - quantity))

def scheduleBar (job : BacktestJob) (sessions : UUID → Option ℤ) (maximum : ℕ) (state : State)
    (bar : BacktestBar) : Call State := do
  let instrument ← keyed (job.instrument? bar.instrumentId)
  let available ← barCapacity bar instrument job.costModel
  let (state, _) ← job.orders.foldlM (scheduleOrderOnBar job sessions maximum bar)
    (state, available)
  return state

def schedule (job : BacktestJob) (maxChildren : ℕ) : Call (List ScheduledChild) := do
  raiseUnless (1 ≤ maxChildren) "LEAN schedule exceeds configured limits"
  let sessions ← daySessions job
  let state ← job.orderedBars.foldlM (scheduleBar job sessions maxChildren)
    ⟨openingRemaining job, [], fun _ => 0, []⟩
  return sorted (fun item => toLex (item.sourceOpensAt, item.childId)) state.result

/-- `value == value.to_integral()`. -/
def Integral (value : Decimal) : Prop := (⌊value⌋ : Decimal) = value

omit [DecimalContext] in
instance (value : Decimal) : Decidable (Integral value) := inferInstanceAs (Decidable (_ = _))

def validateSupportedJob (job : BacktestJob) : Call Unit := do
  raiseUnless ((∀ instrument ∈ job.dataset.instruments, instrument.currency = "USD" ∧
    instrument.mic ∈ ["XNAS", "XNYS"] ∧ Integral instrument.quantityQuantum ∧
    1 / 10000 ≤ instrument.priceQuantum.value) ∧
    (job.dataset.instruments.map (·.symbol)).Nodup) "unsupported LEAN instrument"
  job.dataset.bars.forM fun bar => do
    raiseUnless (∀ price ∈ [bar.open_, bar.high, bar.low, bar.close],
      Integral (round (price.value * 10000))) "LEAN equity data supports four price decimals"
    raiseUnless (Integral bar.volume) "LEAN equity volume must be integral"
  raiseUnless (∀ order ∈ job.orders, Integral order.quantity)
    "LEAN equity order quantity must be integral"

end

/-- The source bar and the quantity of the children of each order. -/
def schedulesOf (job : BacktestJob) (children : List ScheduledChild) :
    List (UUID × List (UUID × Decimal)) :=
  job.orders.map fun order => (order.orderId,
    (children.filter (·.canonicalOrderId = order.orderId)).map fun item =>
      (item.sourceBarId, item.quantity))

end LeanEngine

/-! ## Both follow the plan -/

def keyOf (time : UTCDateTime → ℤ) (item : Placement) : UUID × UUID × Decimal × ℤ :=
  (item.order.orderId, item.bar.barId, item.quantity, time item.bar.opensAt)

section

variable {job : BacktestJob} {time : UTCDateTime → ℤ} {γ : Type}
  {key : γ → UUID × UUID × Decimal × ℤ} {children : List γ} {placements : List Placement}

/-- Sorting children by their time and name does not change the order of those of one order. -/
theorem placedFor_sorted {name : γ → String} (hmono : StrictMono time)
    (hkeys : children.map key = placements.map (keyOf time))
    (hascending : placements.Pairwise fun earlier later =>
      earlier.order.orderId = later.order.orderId → earlier.bar.opensAt < later.bar.opensAt)
    (id : UUID) :
    ((sorted (fun child => toLex ((key child).2.2.2, name child)) children).filter
      fun child => (key child).1 = id).map (fun child => ((key child).2.1, (key child).2.2.1)) =
        placedFor placements id := by
  have hpairs : (placements.map (keyOf time)).Pairwise fun a b => a.1 = b.1 → a.2.2.2 < b.2.2.2 :=
    List.pairwise_map.mpr (hascending.imp fun h hid => hmono (h hid))
  rw [← hkeys, List.pairwise_map] at hpairs
  have hsorted : (children.filter fun child => (key child).1 = id).Pairwise fun a b =>
      toLex ((key a).2.2.2, name a) ≤ toLex ((key b).2.2.2, name b) := by
    refine (hpairs.filter _).imp_of_mem fun {a b} ha hb hab => ?_
    have ha' : (key a).1 = id := by simpa using (List.mem_filter.mp ha).2
    have hb' : (key b).1 = id := by simpa using (List.mem_filter.mp hb).2
    exact Prod.Lex.le_iff.mpr (Or.inl (hab (ha'.trans hb'.symm)))
  have hgroup : ∀ items : List (UUID × UUID × Decimal × ℤ), items = placements.map (keyOf time) →
      (items.filter (·.1 = id)).map (fun item => (item.2.1, item.2.2.1)) =
        placedFor placements id := by
    rintro _ rfl
    rw [List.filter_map, List.map_map]
    rfl
  rw [filter_sorted hsorted, ← hgroup _ hkeys, List.filter_map, List.map_map]
  rfl

theorem sum_length_groupedBy (h : ∀ item ∈ placements, item.order ∈ job.orders) :
    ((groupedBy job placements).map (·.2.length)).sum = placements.length := by
  have hperm := perm_flatMap_filter (fun item : Placement => item.order.orderId)
    job.ordersUnique fun item hitem => List.mem_map_of_mem (h item hitem)
  have hlength := hperm.length_eq
  rw [List.length_flatMap, List.map_map] at hlength
  rw [hlength, groupedBy, List.map_map]
  refine congrArg List.sum (List.map_congr_left fun order _ => ?_)
  simp [placedFor]

end

section

variable [DecimalContext] {job : BacktestJob} {bar : BacktestBar} {order : BacktestOrder}
  {instrument : BacktestInstrument} {limit : ℕ}

def Plan.count (plan : Plan) : ℕ := plan.placements.length

theorem count_place (step : Plan × Decimal) (order : BacktestOrder) :
    step.1.count ≤ (Plan.place job bar instrument step order).1.count := by
  obtain ⟨plan, available⟩ := step
  rcases place_cases job bar order instrument plan
    available with heq | ⟨-, heq | ⟨-, -, -, heq⟩⟩
  · rw [heq]
  · rw [heq]
    simp [Plan.count]
  · rw [heq]
    simp [Plan.count, Plan.taken]

theorem count_foldl_place (orders : List BacktestOrder) (step : Plan × Decimal) :
    step.1.count ≤ (orders.foldl (Plan.place job bar instrument) step).1.count := by
  induction orders generalizing step with
  | nil => exact le_rfl
  | cons order orders ih => exact (count_place step order).trans (ih _)

theorem count_onBar (plan : Plan) (bar : BacktestBar) :
    plan.count ≤ (plan.onBar job bar).count := by
  unfold Plan.onBar
  split
  · exact le_rfl
  · exact count_foldl_place job.orders (plan, _)

/-- The loop over the orders of a bar, whose step for one order keeps what agrees with a plan. -/
theorem exists_onBar {σ : Type} {follows : σ → Plan → Prop} {state : σ} {plan : Plan} {limit : ℕ}
    (step : BacktestInstrument → σ × Decimal → BacktestOrder → Call (σ × Decimal))
    (hbar : bar ∈ job.dataset.bars)
    (hcapacity : |productAdjusted bar.volume job.costModel.maxVolumeParticipation| ≤ 64)
    (hstep : ∀ instrument, job.instrument? bar.instrumentId = some instrument →
      ∀ order ∈ job.orders, ∀ (a : σ) (t : Plan) (available : Decimal), follows a t →
        (Plan.place job bar instrument (t, available) order).1.count ≤ limit →
        ∃ b, step instrument (a, available) order = .success b ∧
          (follows b.1 (Plan.place job bar instrument (t, available) order).1 ∧
            b.2 = (Plan.place job bar instrument (t, available) order).2))
    (h : follows state plan) (hlimit : (plan.onBar job bar).count ≤ limit) :
    ∃ next, (do
        let instrument ← keyed (job.instrument? bar.instrumentId)
        let available ← barCapacity bar instrument job.costModel
        let (state, _) ← job.orders.foldlM (step instrument) (state, available)
        return state) = .success next ∧ follows next (plan.onBar job bar) := by
  obtain ⟨instrument, session, hinstrument, -⟩ := exists_session hbar
  simp only [Plan.onBar, hinstrument] at hlimit ⊢
  let related := fun (a : σ × Decimal) (t : Plan × Decimal) => follows a.1 t.1 ∧ a.2 = t.2
  have hround : ∀ order ∈ job.orders, ∀ (a : σ × Decimal) (t : Plan × Decimal), related a t →
      (Plan.place job bar instrument t order).1.count ≤ limit →
        ∃ b, step instrument a order = .success b ∧
          related b (Plan.place job bar instrument t order) := by
    rintro order horder ⟨a, available⟩ ⟨t, _⟩ ⟨hfollows, rfl⟩ hcount
    exact hstep instrument hinstrument order horder a t available hfollows hcount
  have hstart : related (state, capacity bar instrument job.costModel)
      (plan, capacity bar instrument job.costModel) := ⟨h, rfl⟩
  obtain ⟨next, hloop, hfollows, -⟩ := Attempt.foldlM_related (R := related)
    (m := fun t : Plan × Decimal => t.1.count) count_place hround hstart hlimit
  refine ⟨next.1, ?_, hfollows⟩
  simp only [keyed, Attempt.success_bind, barCapacity, raiseUnless_of hcapacity, Attempt.pure_eq]
  rw [← capacity, hloop]
  rfl

/-! ## Nautilus -/

namespace NautilusEngine

variable (unixNanos : UTCDateTime → ℤ)

omit [DecimalContext] in
def childKey (child : ScheduledChild) : UUID × UUID × Decimal × ℤ :=
  (child.canonicalOrderId, child.sourceBarId, child.quantity, child.sourceOpensAtNs)

/-- The variables agree with a plan. -/
structure Follows (state : State) (plan : Plan) : Prop where
  remaining : state.remaining = plan.remaining
  attempted : state.attemptedIoc = plan.attempted
  result : state.result.map childKey = plan.placements.map (keyOf unixNanos)

variable {unixNanos} {state : State} {plan : Plan} {available : Decimal}

omit [DecimalContext] in
variable (order) in
theorem Follows.marked (h : Follows unixNanos state plan) :
    Follows unixNanos (state.marked order) (plan.marked order) := by
  unfold State.marked Plan.marked
  split
  · exact ⟨h.remaining, by rw [h.attempted], h.result⟩
  · exact h

theorem Follows.appended {native : String} {quantity : Decimal}
    (h : Follows unixNanos state plan) :
    Follows unixNanos (state.appended unixNanos order bar native quantity)
      (plan.taken order bar quantity) := by
  refine ⟨?_, h.attempted, ?_⟩
  · simp only [State.appended, Plan.taken, h.remaining]
  · simp only [State.appended, Plan.taken, List.map_append, h.result]
    rfl

omit [DecimalContext] in
theorem Follows.length (h : Follows unixNanos state plan) : state.result.length = plan.count := by
  have hlength := congrArg List.length h.result
  rwa [List.length_map, List.length_map] at hlength

theorem scheduleOrder_follows (hlaw : Lawful) (hjob : job.Valid) (horder : order ∈ job.orders)
    (hbar : bar ∈ job.dataset.bars)
    (hinstrument : job.instrument? bar.instrumentId = some instrument)
    (h : Follows unixNanos state plan)
    (hlimit : (Plan.place job bar instrument (plan, available) order).1.count ≤ limit) :
    ∃ next : State × Decimal,
      scheduleOrder unixNanos job limit bar instrument (state, available) order = .success next ∧
        Follows unixNanos next.1 (Plan.place job bar instrument (plan, available) order).1 ∧
        next.2 = (Plan.place job bar instrument (plan, available) order).2 := by
  obtain ⟨session, hsession⟩ := session_of_bar hbar hinstrument
  obtain ⟨hmem, hid⟩ := instrument?_eq_some hinstrument
  by_cases hleft : plan.remaining order.orderId ≤ 0 ∨ order.orderId ∈ plan.attempted
  · have hnot : ¬ Tries job plan bar instrument order := by
      rintro ⟨hpos, hnew, -⟩
      rcases hleft with h | h
      · exact absurd hpos (not_lt.mpr h)
      · exact hnew h
    refine ⟨(state, available), ?_, ?_, ?_⟩
    · simp only [scheduleOrder, h.remaining, h.attempted, hleft, ↓reduceIte, Attempt.pure_eq]
    · simpa only [Plan.place, hnot, ↓reduceIte] using h
    · simp only [Plan.place, hnot, ↓reduceIte]
  · by_cases hopportunity : IsOrderOpportunity order bar
    · by_cases hday : order.timeInForce = .day ∧ job.daySession order ≠ some session.sessionDate
      · have hnot : ¬ Tries job plan bar instrument order := not_tries_of_day hsession hday
        refine ⟨(state, available), ?_, ?_, ?_⟩
        · simp only [scheduleOrder, h.remaining, h.attempted, hleft, hopportunity, hsession, hday,
            not_true_eq_false, ↓reduceIte, Attempt.pure_eq, ne_eq, not_false_eq_true, and_self]
        · simpa only [Plan.place, hnot, ↓reduceIte] using h
        · simp only [Plan.place, hnot, ↓reduceIte]
      · have htries := tries_of hsession hleft hopportunity hday
        obtain ⟨price, hprice⟩ := canonicalFillPrice_of_valid hlaw hjob horder hbar hmem hid
          hopportunity.1.symm
        have hprice? := price?_of_success hprice
        have hmarked := h.marked order
        have hquantity : (state.marked order).remaining = plan.remaining := by
          rw [hmarked.remaining, remaining_marked]
        simp only [Plan.place, htries, ↓reduceIte, hprice?] at hlimit ⊢
        simp only [scheduleOrder, h.remaining, h.attempted, hleft, hopportunity, hsession, hday,
          not_true_eq_false, ↓reduceIte, Attempt.pure_eq, hprice, Attempt.success_bind, hquantity]
        cases htradable : bar.tradable with
        | false =>
            refine ⟨(state.marked order, available), ?_, ?_, ?_⟩
            · simp only [↓reduceIte]
            · simpa only [Bool.false_eq_true, false_and, ↓reduceIte] using hmarked
            · simp only [Bool.false_eq_true, false_and, ↓reduceIte]
        | true =>
            simp only [htradable, Bool.true_eq_false, true_and, ↓reduceIte] at hlimit ⊢
            by_cases hplaced : price ≠ none ∧ 0 < min (plan.remaining order.orderId) available
            · simp only [if_pos hplaced] at hlimit ⊢
              have hroom : (state.marked order).result.length < limit := by
                have hlength := hmarked.length
                simp only [Plan.count, Plan.taken, List.length_append,
                  List.length_singleton] at hlimit
                rw [hlength]
                exact hlimit
              have hnative : instrumentId job order.instrumentId =
                  .success (instrument.symbol ++ "." ++ instrument.mic) := by
                rw [instrumentId, ← hopportunity.1, hinstrument]
                rfl
              refine ⟨_, by rw [raiseUnless_of hroom, Attempt.success_bind, hnative]; rfl, ?_, rfl⟩
              exact hmarked.appended
            · simp only [if_neg hplaced]
              exact ⟨_, rfl, hmarked, rfl⟩
    · have hnot : ¬ Tries job plan bar instrument order := fun h => hopportunity h.2.2.1
      refine ⟨(state, available), ?_, ?_, ?_⟩
      · simp only [scheduleOrder, h.remaining, h.attempted, hleft, hopportunity,
          not_false_eq_true, ↓reduceIte, Attempt.pure_eq]
      · simpa only [Plan.place, hnot, ↓reduceIte] using h
      · simp only [Plan.place, hnot, ↓reduceIte]

theorem scheduleBar_follows (hlaw : Lawful) (hjob : job.Valid) (hbar : bar ∈ job.dataset.bars)
    (hcapacity : |productAdjusted bar.volume job.costModel.maxVolumeParticipation| ≤ 64)
    (h : Follows unixNanos state plan) (hlimit : (plan.onBar job bar).count ≤ limit) :
    ∃ next, scheduleBar unixNanos job limit state bar = .success next ∧
      Follows unixNanos next (plan.onBar job bar) :=
  exists_onBar (scheduleOrder unixNanos job limit bar) hbar hcapacity
    (fun _ hinstrument _ horder _ _ _ hfollows hcount =>
      scheduleOrder_follows hlaw hjob horder hbar hinstrument hfollows hcount) h hlimit

/-- Nautilus plans what the plan says. -/
theorem schedule_eq (hlaw : Lawful) (hjob : job.Valid) (hmono : StrictMono unixNanos)
    (hcapacities : CapacitiesBounded job) (hlimit : (Backtest.plan job).count ≤ limit) :
    ∃ children, schedule unixNanos job limit = .success children ∧
      schedulesOf job children = groupedBy job (Backtest.plan job).placements := by
  have hround : ∀ bar ∈ job.orderedBars, ∀ (a : State) (t : Plan), Follows unixNanos a t →
      (t.onBar job bar).count ≤ limit →
        ∃ b, scheduleBar unixNanos job limit a bar = .success b ∧
          Follows unixNanos b (t.onBar job bar) := by
    intro bar hbar a t hfollows hcount
    have hmem := mem_orderedBars.mp hbar
    exact scheduleBar_follows hlaw hjob hmem (hcapacities bar hmem) hfollows hcount
  have hstart : Follows unixNanos ⟨openingRemaining job, [], fun _ => 0, []⟩
      ⟨openingRemaining job, [], []⟩ := ⟨rfl, rfl, rfl⟩
  obtain ⟨final, hloop, hfollows⟩ :=
    Attempt.foldlM_related (m := Plan.count) count_onBar hround hstart hlimit
  refine ⟨_, by rw [schedule, hloop]; rfl, ?_⟩
  refine List.map_congr_left fun order _ => ?_
  exact congrArg _ (placedFor_sorted hmono hfollows.result ascending_plan.pairwise order.orderId)

end NautilusEngine

/-! ## LEAN -/

namespace LeanEngine

omit [DecimalContext] in
def childKey (child : ScheduledChild) : UUID × UUID × Decimal × ℤ :=
  (child.canonicalOrderId, child.sourceBarId, child.quantity, child.sourceOpensAt)

/-- The variables agree with a plan. -/
structure Follows (state : State) (plan : Plan) : Prop where
  remaining : state.remaining = plan.remaining
  attempted : state.attempts = plan.attempted
  result : state.result.map childKey = plan.placements.map (keyOf id)

variable {state : State} {plan : Plan} {available : Decimal} {sessions : UUID → Option ℤ}

omit [DecimalContext] in
variable (order) in
theorem Follows.marked (h : Follows state plan) :
    Follows (state.marked order) (plan.marked order) := by
  unfold State.marked Plan.marked
  split
  · exact ⟨h.remaining, by rw [h.attempted], h.result⟩
  · exact h

theorem Follows.appended {quantity : Decimal} (h : Follows state plan) :
    Follows (state.appended order bar instrument quantity) (plan.taken order bar quantity) := by
  refine ⟨?_, h.attempted, ?_⟩
  · simp only [State.appended, Plan.taken, h.remaining]
  · simp only [State.appended, Plan.taken, List.map_append, h.result]
    rfl

omit [DecimalContext] in
theorem Follows.length (h : Follows state plan) : state.result.length = plan.count := by
  have hlength := congrArg List.length h.result
  rwa [List.length_map, List.length_map] at hlength

theorem scheduleOrderOnBar_follows (hlaw : Lawful) (hjob : job.Valid)
    (horder : order ∈ job.orders) (hbar : bar ∈ job.dataset.bars)
    (hinstrument : job.instrument? bar.instrumentId = some instrument)
    (hsessions : order.timeInForce = .day → sessions order.orderId = job.daySession order)
    (h : Follows state plan)
    (hlimit : (Plan.place job bar instrument (plan, available) order).1.count ≤ limit) :
    ∃ next : State × Decimal,
      scheduleOrderOnBar job sessions limit bar (state, available) order = .success next ∧
        Follows next.1 (Plan.place job bar instrument (plan, available) order).1 ∧
        next.2 = (Plan.place job bar instrument (plan, available) order).2 := by
  obtain ⟨session, hsession⟩ := session_of_bar hbar hinstrument
  obtain ⟨hmem, hid⟩ := instrument?_eq_some hinstrument
  have hday_iff : (order.timeInForce = .day ∧ sessions order.orderId ≠ some session.sessionDate) ↔
      (order.timeInForce = .day ∧ job.daySession order ≠ some session.sessionDate) :=
    and_congr_right fun h => by rw [hsessions h]
  by_cases hleft : plan.remaining order.orderId ≤ 0 ∨ order.orderId ∈ plan.attempted
  · have hnot : ¬ Tries job plan bar instrument order := by
      rintro ⟨hpos, hnew, -⟩
      rcases hleft with h | h
      · exact absurd hpos (not_lt.mpr h)
      · exact hnew h
    refine ⟨(state, available), ?_, ?_, ?_⟩
    · simp only [scheduleOrderOnBar, h.remaining, h.attempted, hleft, ↓reduceIte, Attempt.pure_eq]
    · simpa only [Plan.place, hnot, ↓reduceIte] using h
    · simp only [Plan.place, hnot, ↓reduceIte]
  · by_cases hopportunity : IsOrderOpportunity order bar
    · by_cases hday : order.timeInForce = .day ∧ job.daySession order ≠ some session.sessionDate
      · have hnot : ¬ Tries job plan bar instrument order := not_tries_of_day hsession hday
        have hother := hday_iff.mpr hday
        refine ⟨(state, available), ?_, ?_, ?_⟩
        · simp only [scheduleOrderOnBar, h.remaining, h.attempted, hleft, hopportunity, hinstrument,
            keyed, Attempt.success_bind, hsession, hother, not_true_eq_false, ↓reduceIte,
            Attempt.pure_eq, ne_eq, not_false_eq_true, and_self]
        · simpa only [Plan.place, hnot, ↓reduceIte] using h
        · simp only [Plan.place, hnot, ↓reduceIte]
      · have htries := tries_of hsession hleft hopportunity hday
        obtain ⟨price, hprice⟩ := canonicalFillPrice_of_valid hlaw hjob horder hbar hmem hid
          hopportunity.1.symm
        have hprice? := price?_of_success hprice
        have hmarked := h.marked order
        have hquantity : (state.marked order).remaining = plan.remaining := by
          rw [hmarked.remaining, remaining_marked]
        simp only [Plan.place, htries, ↓reduceIte, hprice?] at hlimit ⊢
        simp only [scheduleOrderOnBar, h.remaining, h.attempted, hleft, hopportunity, hinstrument,
          keyed, hsession, hday_iff, hday, not_true_eq_false, ↓reduceIte, Attempt.pure_eq, hprice,
          Attempt.success_bind, hquantity]
        by_cases hready : bar.tradable = false ∨ price = none
        · have hnot : ¬ (bar.tradable = true ∧ price ≠ none ∧
              0 < min (plan.remaining order.orderId) available) := by
            rintro ⟨htradable, hsome, -⟩
            rcases hready with hfalse | hnone
            · rw [hfalse] at htradable
              cases htradable
            · exact hsome hnone
          simp only [if_pos hready, if_neg hnot]
          exact ⟨_, rfl, hmarked, rfl⟩
        · simp only [if_neg hready]
          rw [not_or, Bool.not_eq_false] at hready
          by_cases hplaced : min (plan.remaining order.orderId) available ≤ 0
          · have hnot : ¬ (bar.tradable = true ∧ price ≠ none ∧
                0 < min (plan.remaining order.orderId) available) :=
              fun hall => absurd hall.2.2 (not_lt.mpr hplaced)
            simp only [if_pos hplaced, if_neg hnot]
            exact ⟨_, rfl, hmarked, rfl⟩
          · have hall : bar.tradable = true ∧ price ≠ none ∧
                0 < min (plan.remaining order.orderId) available :=
              ⟨hready.1, hready.2, not_le.mp hplaced⟩
            simp only [if_neg hplaced, if_pos hall] at hlimit ⊢
            have hroom : (state.marked order).result.length < limit := by
              have hlength := hmarked.length
              simp only [Plan.count, Plan.taken, List.length_append,
                List.length_singleton] at hlimit
              rw [hlength]
              exact hlimit
            exact ⟨_, by rw [raiseUnless_of hroom, Attempt.success_bind], hmarked.appended, rfl⟩
    · have hnot : ¬ Tries job plan bar instrument order := fun h => hopportunity h.2.2.1
      refine ⟨(state, available), ?_, ?_, ?_⟩
      · simp only [scheduleOrderOnBar, h.remaining, h.attempted, hleft, hopportunity,
          not_false_eq_true, ↓reduceIte, Attempt.pure_eq]
      · simpa only [Plan.place, hnot, ↓reduceIte] using h
      · simp only [Plan.place, hnot, ↓reduceIte]

theorem scheduleBar_follows (hlaw : Lawful) (hjob : job.Valid) (hbar : bar ∈ job.dataset.bars)
    (hcapacity : |productAdjusted bar.volume job.costModel.maxVolumeParticipation| ≤ 64)
    (hsessions : ∀ order ∈ job.orders, order.timeInForce = .day →
      sessions order.orderId = job.daySession order)
    (h : Follows state plan) (hlimit : (plan.onBar job bar).count ≤ limit) :
    ∃ next, scheduleBar job sessions limit state bar = .success next ∧
      Follows next (plan.onBar job bar) :=
  exists_onBar (fun _ => scheduleOrderOnBar job sessions limit bar) hbar hcapacity
    (fun _ hinstrument order horder _ _ _ hfollows hcount =>
      scheduleOrderOnBar_follows hlaw hjob horder hbar hinstrument (hsessions order horder)
        hfollows hcount) h hlimit

def DayOrdersHaveSession (job : BacktestJob) : Prop :=
  ∀ order ∈ job.orders, order.timeInForce = .day → job.daySession order ≠ none

omit [DecimalContext] in
instance (job : BacktestJob) : Decidable (DayOrdersHaveSession job) :=
  inferInstanceAs (Decidable (∀ _ ∈ _, _))

omit [DecimalContext] in
/-- The sessions that `_day_sessions` collects, when each DAY order has one. -/
theorem foldlM_daySessions {orders : List BacktestOrder} (result : UUID → Option ℤ)
    (hunique : (orders.map (·.orderId)).Nodup)
    (h : ∀ order ∈ orders, order.timeInForce = .day → job.daySession order ≠ none) :
    ∃ sessions : UUID → Option ℤ, orders.foldlM (fun result order => do
        if order.timeInForce ≠ .day then return result
        else
          match job.daySession order with
          | none => .raised (.valueError "LEAN DAY order has no canonical session")
          | some first => return Function.update result order.orderId (some first)) result =
        (.success sessions : Call (UUID → Option ℤ)) ∧
      (∀ order ∈ orders, order.timeInForce = .day →
        sessions order.orderId = job.daySession order) ∧
      ∀ id, id ∉ orders.map (·.orderId) → sessions id = result id := by
  induction orders generalizing result with
  | nil => exact ⟨result, rfl, by simp, fun _ _ => rfl⟩
  | cons order orders ih =>
      rw [List.map_cons, List.nodup_cons] at hunique
      have hrest : ∀ order ∈ orders, order.timeInForce = .day → job.daySession order ≠ none :=
        fun other hother => h other (List.mem_cons_of_mem _ hother)
      by_cases hday : order.timeInForce = .day
      · obtain ⟨first, hfirst⟩ :=
          Option.ne_none_iff_exists'.mp (h order List.mem_cons_self hday)
        obtain ⟨sessions, hloop, heach, hother⟩ :=
          ih (Function.update result order.orderId (some first)) hunique.2 hrest
        refine ⟨sessions, ?_, ?_, ?_⟩
        · rw [List.foldlM_cons]
          simp only [hday, hfirst, ne_eq, not_true_eq_false, ↓reduceIte, Attempt.pure_eq,
            Attempt.success_bind]
          exact hloop
        · intro other hmem hother_day
          rcases List.mem_cons.mp hmem with rfl | hmem
          · rw [hother _ hunique.1, Function.update_self, hfirst]
          · exact heach other hmem hother_day
        · intro id hid
          rw [List.map_cons, List.mem_cons, not_or] at hid
          rw [hother id hid.2, Function.update_of_ne hid.1]
      · obtain ⟨sessions, hloop, heach, hother⟩ := ih result hunique.2 hrest
        refine ⟨sessions, ?_, ?_, ?_⟩
        · rw [List.foldlM_cons]
          simp only [hday, ne_eq, not_false_eq_true, ↓reduceIte, Attempt.pure_eq,
            Attempt.success_bind]
          exact hloop
        · intro other hmem hother_day
          rcases List.mem_cons.mp hmem with rfl | hmem
          · exact absurd hother_day hday
          · exact heach other hmem hother_day
        · intro id hid
          rw [List.map_cons, List.mem_cons, not_or] at hid
          exact hother id hid.2

/-- LEAN plans what the plan says when every DAY order has a session. -/
theorem schedule_eq (hlaw : Lawful) (hjob : job.Valid) (hcapacities : CapacitiesBounded job)
    (hsessions : DayOrdersHaveSession job) (hpositive : 1 ≤ limit)
    (hlimit : (Backtest.plan job).count ≤ limit) :
    ∃ children, schedule job limit = .success children ∧
      schedulesOf job children = groupedBy job (Backtest.plan job).placements := by
  obtain ⟨sessions, hcollect, heach, -⟩ :=
    foldlM_daySessions (fun _ => none) job.ordersUnique hsessions
  have hround : ∀ bar ∈ job.orderedBars, ∀ (a : State) (t : Plan), Follows a t →
      (t.onBar job bar).count ≤ limit →
        ∃ b, scheduleBar job sessions limit a bar = .success b ∧ Follows b (t.onBar job bar) := by
    intro bar hbar a t hfollows hcount
    have hmem := mem_orderedBars.mp hbar
    exact scheduleBar_follows hlaw hjob hmem (hcapacities bar hmem) heach hfollows hcount
  have hstart : Follows ⟨openingRemaining job, [], fun _ => 0, []⟩
      ⟨openingRemaining job, [], []⟩ := ⟨rfl, rfl, rfl⟩
  obtain ⟨final, hloop, hfollows⟩ :=
    Attempt.foldlM_related (m := Plan.count) count_onBar hround hstart hlimit
  have hschedule : schedule job limit =
      .success (sorted (fun item => toLex (item.sourceOpensAt, item.childId)) final.result) := by
    rw [schedule, raiseUnless_of hpositive, Attempt.success_bind, daySessions, hcollect,
      Attempt.success_bind, hloop]
    rfl
  refine ⟨_, hschedule, List.map_congr_left fun order _ => ?_⟩
  exact congrArg _ (placedFor_sorted strictMono_id hfollows.result ascending_plan.pairwise
    order.orderId)

theorem dayOrdersHaveSession_of_success {children : List ScheduledChild}
    (h : schedule job limit = .success children) : DayOrdersHaveSession job := by
  obtain ⟨_, -, h⟩ := Attempt.bind_eq_success.mp h
  obtain ⟨sessions, hsessions, -⟩ := Attempt.bind_eq_success.mp h
  refine Attempt.forall_of_foldlM ?_ hsessions
  intro result order next hnext hday hnone
  simp [hday, hnone] at hnext

end LeanEngine

/-! ## Agreement -/

/-- The contract has a schedule, Nautilus plans it, and so does LEAN for a job that it supports. -/
def SchedulersAgree (unixNanos : UTCDateTime → ℤ) (job : BacktestJob) (maxChildren : ℕ) : Prop :=
  ∃ expected, expectedFillSchedules job = .success expected ∧
    (∃ children, NautilusEngine.schedule unixNanos job maxChildren = .success children ∧
      NautilusEngine.schedulesOf job children = expected) ∧
    (LeanEngine.validateSupportedJob job = .success () →
      ∃ children, LeanEngine.schedule job maxChildren = .success children ∧
        LeanEngine.schedulesOf job children = expected)

theorem schedulersAgree_of_lawful {unixNanos : UTCDateTime → ℤ} (hlaw : Lawful)
    (hjob : job.Valid) (hmono : StrictMono unixNanos) (hpositive : 1 ≤ limit)
    (hlimit : ∀ expected, expectedFillSchedules job = .success expected →
      (expected.map (·.2.length)).sum ≤ limit) :
    SchedulersAgree unixNanos job limit ↔ CapacitiesBounded job ∧
      (LeanEngine.validateSupportedJob job = .success () →
        LeanEngine.DayOrdersHaveSession job) := by
  constructor
  · rintro ⟨expected, hexpected, -, hlean⟩
    refine ⟨capacitiesBounded_of_success hexpected, fun hsupported => ?_⟩
    obtain ⟨children, hchildren, -⟩ := hlean hsupported
    exact LeanEngine.dayOrdersHaveSession_of_success hchildren
  · rintro ⟨hcapacities, hsessions⟩
    have hexpected := expectedFillSchedules_eq hlaw hjob hcapacities
    have hcount : (Backtest.plan job).count ≤ limit := by
      have hsum := hlimit _ hexpected
      rwa [sum_length_groupedBy fun item hitem => (ascending_plan.placed item hitem).order] at hsum
    exact ⟨_, hexpected, NautilusEngine.schedule_eq hlaw hjob hmono hcapacities hcount,
      fun hsupported => LeanEngine.schedule_eq hlaw hjob hcapacities (hsessions hsupported)
        hpositive hcount⟩

end

open scoped PythonArithmetic in
/-- The three schedulers agree on a valid job, as long as the children fit the limit, exactly when
every capacity is within the bounds of the decimals and, where LEAN supports the job, every DAY
order has a session. -/
theorem schedulersAgree_iff {unixNanos : UTCDateTime → ℤ} {job : BacktestJob} {limit : ℕ}
    (hjob : job.Valid) (hmono : StrictMono unixNanos) (hpositive : 1 ≤ limit)
    (hlimit : ∀ expected, expectedFillSchedules job = .success expected →
      (expected.map (·.2.length)).sum ≤ limit) :
    SchedulersAgree unixNanos job limit ↔ CapacitiesBounded job ∧
      (LeanEngine.validateSupportedJob job = .success () → LeanEngine.DayOrdersHaveSession job) :=
  schedulersAgree_of_lawful lawful_python hjob hmono hpositive hlimit

end Backtest

/-! ## An order after the last session -/

namespace BacktestScenario

open Backtest
open scoped PythonArithmetic

def decimal (coefficient : ℕ) (exponent : ℤ)
    (bounded : WithinBounds ⟨false, coefficient, exponent⟩ := by decide +kernel) : DecimalString :=
  ⟨⟨false, coefficient, exponent⟩, bounded⟩

def instrument : BacktestInstrument where
  instrumentId := 1
  symbol := "AAA"
  mic := "XNAS"
  currency := "USD"
  priceQuantum := decimal 1 (-2)
  quantityQuantum := decimal 1 0
  quanta_pos := by decide +kernel

def session : BacktestSession where
  sessionDate := 1
  mic := "XNAS"
  opensAt := 0
  closesAt := 1000
  breakStart := none
  breakEnd := none
  timeline := by decide
  paired := by decide
  inside := by decide

def bar : BacktestBar where
  barId := 1
  instrumentId := 1
  opensAt := 100
  closesAt := 200
  availableAt := 200
  open_ := decimal 1000 (-2)
  high := decimal 1100 (-2)
  low := decimal 900 (-2)
  close := decimal 1000 (-2)
  volume := decimal 100 0
  sourceRef := "bars"
  sourceHash := 1
  tradable := true
  timeline := by decide
  prices_pos := by decide +kernel
  volume_nonneg := by decide +kernel
  bounds := by decide +kernel

def dataset : BacktestDataset where
  datasetId := 1
  asOf := 5000
  interval := "1m"
  instruments := [instrument]
  calendar := {
    calendarId := "xnas"
    version := "1"
    timezone := "America/New_York"
    sessions := [session]
    counted := by decide
    ordered := by decide
    apart := by decide }
  bars := [bar]
  counted := by decide
  instrumentsOrdered := by decide
  barsOrdered := by decide
  barsUnique := by decide
  apart := by decide
  barsValid := by decide +kernel

def costModel : BacktestCostModel where
  maxVolumeParticipation := decimal 1 0
  halfSpreadBps := decimal 0 0
  baseSlippageBps := decimal 0 0
  marketImpactBpsAtMaxParticipation := decimal 0 0
  feeBps := decimal 0 0
  perUnitFee := decimal 0 0
  minimumFee := decimal 0 0
  feeQuantum := decimal 1 (-2)
  participation := by decide +kernel
  bps := by decide +kernel
  perUnitFee_nonneg := by decide +kernel
  minimumFee_nonneg := by decide +kernel
  feeQuantum_pos := by decide +kernel
  minimumFee_quantized := by decide +kernel

/-- A DAY order that is issued when the last session has closed. -/
def lateOrder : BacktestOrder where
  orderId := 1
  sequence := 1
  instrumentId := 1
  side := .buy
  orderType := .market
  quantity := decimal 10 0
  limitPrice := none
  timeInForce := .day
  issuedAt := 1500
  validUntil := 2000
  strategyEventRef := "signal"
  quantity_pos := by decide +kernel
  limitPrice_pos := by decide
  validity := by decide
  limited := by decide

def lateJob : BacktestJob where
  requestId := 1
  runId := 1
  jobId := 1
  attemptGeneration := 1
  attemptNonce := "nonce"
  runtime := ⟨.reference, "1", "1", 1, none, by decide⟩
  strategyContentHash := 1
  dataset := dataset
  costModel := costModel
  orders := [lateOrder]
  baseCurrency := "USD"
  initialCash := [⟨"USD", decimal 100000 (-2), decimal 1 (-2), by decide +kernel,
    by decide +kernel⟩]
  initialPositions := [⟨1, decimal 0 0, decimal 1 0, by decide +kernel, by decide +kernel⟩]
  requestedAt := 5000
  deadline := 6000
  counted := by decide
  timeline := by decide
  ordersOrdered := by decide
  sequences := by decide
  ordersUnique := by decide
  ordersMatch := by decide +kernel
  cash := by decide
  positions := by decide
  positionQuanta := by decide +kernel
  currencies := by decide

theorem lateJob_valid : lateJob.Valid := ⟨by decide +kernel, by decide +kernel⟩

theorem lateJob_expected : expectedFillSchedules lateJob = .success [(1, [])] := by decide +kernel

theorem schedulersAgree_iff_late : SchedulersAgree (fun at_ => 1000 * at_) lateJob 1 ↔
    CapacitiesBounded lateJob ∧ (LeanEngine.validateSupportedJob lateJob = .success () →
      LeanEngine.DayOrdersHaveSession lateJob) := by
  refine schedulersAgree_iff lateJob_valid (fun _ _ h => ?_) le_rfl fun expected hexpected => ?_
  · exact mul_lt_mul_of_pos_left h (by decide)
  · obtain rfl := Attempt.success.inj (lateJob_expected.symm.trans hexpected)
    decide

/-- LEAN supports the job and raises, where the contract and Nautilus plan no fill. -/
theorem lean_refuses_late : lateJob.Valid ∧ expectedFillSchedules lateJob = .success [(1, [])] ∧
    NautilusEngine.schedule (fun at_ => 1000 * at_) lateJob 1 = .success [] ∧
    LeanEngine.validateSupportedJob lateJob = .success () ∧
    LeanEngine.schedule lateJob 1 =
      .raised (.valueError "LEAN DAY order has no canonical session") :=
  ⟨lateJob_valid, lateJob_expected, by decide +kernel, by decide +kernel, by decide +kernel⟩

end BacktestScenario

end StonksPaper
