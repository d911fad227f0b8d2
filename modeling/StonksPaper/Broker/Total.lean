import StonksPaper.Broker.History
import StonksPaper.Broker.Raising
import StonksPaper.Broker.Sizing

/-!
# When the broker raises

The broker promises a result value. A rejection always keeps the promise; waiting and filling keep
it under the conditions of `WaitSound` and `FillSound`, and only then.
-/

namespace StonksPaper

open Chain Quantum

section

variable [Arithmetic] [Hashing]

variable {policy : PaperExecutionPolicy} {request : PaperExecutionRequest}
  {events : List OrderEvent} {latest : OrderEvent} {fills : List Fill}
  {change : ReservationChange}

/-! ## Exits without a fill -/

/-- The events that an exit starts from, and what the request's fills say about the last one. -/
structure Opened (request : PaperExecutionRequest) (events : List OrderEvent)
    (latest : OrderEvent) : Prop where
  last : events.getLast? = some latest
  order : latest.orderIntentId = request.command.intent.intentId
  live : ¬ latest.toStatus.Terminal
  total : summedQuantity request.priorFills = latest.cumulativeFilledQuantity
  length : events.length ≤ tupleLimit

theorem openedEvents_opened (hr : request.Valid)
    (hrequest : requestError request policy = .success ())
    (h : openedEvents request = .success (events, latest)) : Opened request events latest := by
  obtain ⟨hhistory, htotal⟩ := requestError_history hr hrequest
  have hlast := (openedEvents_history hhistory h).2.1
  have hlive := openedEvents_not_terminal hr h
  unfold openedEvents at h
  cases hprior : request.priorEvents.getLast? with
  | some last =>
      simp only [hprior] at h
      cases h
      rw [endState_of_getLast _ _ hprior] at htotal
      exact ⟨hlast, hr.events_intent latest (List.mem_of_getLast? hprior), hlive, htotal,
        hr.events_length⟩
  | none =>
      simp only [hprior] at h
      obtain ⟨accepted, happend, h⟩ := Attempt.bind_eq_success.mp h
      cases h
      rw [List.getLast?_eq_none_iff.mp hprior] at htotal
      have haccepted := (appendOrderEvent_eq_success.mp happend).2
      exact ⟨hlast, by rw [haccepted]; rfl, hlive, htotal.trans (by rw [haccepted]; rfl),
        by simp [tupleLimit]⟩

/-- The reservation is the open one that the intent was built from. -/
structure HeldOpen (request : PaperExecutionRequest) : Prop where
  open_ : request.reservation.state = .open_
  updated : request.reservation.updatedAt ≤ request.command.issuedAt
  expiry : request.command.intent.validUntil ≤ request.reservation.expiresAt
  kind : request.reservation.kind =
    if request.command.intent.side = .buy then .cash else .position

omit [Arithmetic] [Hashing] in
theorem HeldOpen.active (h : HeldOpen request) : request.reservation.state.Mutable := .inl h.open_

omit [Arithmetic] in
theorem PaperExecutionRequest.Valid.reservation_order (hr : request.Valid) :
    request.reservation.orderIntentId = request.command.intent.intentId := hr.bound.2.1

omit [Arithmetic] in
theorem released_reported {at_ : UTCDateTime} {reason : String} (hr : request.Valid)
    (h : releaseRemaining request.reservation at_ reason = .success change)
    (hlast : events.getLast? = some latest)
    (horder : latest.orderIntentId = request.command.intent.intentId)
    (hfills : ∀ f ∈ fills, f ∈ request.priorFills)
    (hstatus : latest.toStatus ≠ .filled) : Reported request events latest fills change := by
  obtain ⟨haccounts, -, -⟩ := releaseRemaining_accounts hr.reservation h
  exact
    { latest_last := hlast
      latest_order := horder
      fills_order := fun f hf => hr.fills_command f (hfills f hf)
      filled := fun hs => absurd hs hstatus
      mutations := by rw [releaseRemaining_length h]; decide
      final := haccounts.final_last
      final_order := haccounts.order.trans hr.reservation_order
      amounts := ⟨haccounts.consumed_nonneg, haccounts.released_nonneg⟩ }

/-- A rejection always returns. -/
theorem terminalWithoutFill_returns {reason : String} (hr : request.Valid) (hfits : request.Fits)
    (hheld : HeldOpen request)
    (hreason : isBlank (reason ++ "_released") = false ∧ (reason ++ "_released").length ≤ 256) :
    (terminalWithoutFill request policy .rejected reason request.command.issuedAt).Returns := by
  simp only [terminalWithoutFill, Attempt.returns_bind]
  refine ⟨appendOrderEvent_returns, fun event happend => ⟨?_, fun change hrelease => ?_⟩⟩
  · rw [releaseRemaining_returns hr.reservation hreason, (appendOrderEvent_eq_success.mp happend).2]
    exact ⟨hheld.active, hheld.updated⟩
  · have hevent := (appendOrderEvent_eq_success.mp happend).2
    have hreport : Reported request [event] event [] change :=
      released_reported hr hrelease rfl (by rw [hevent]; rfl) (by simp)
        (by rw [appendOrderEvent_toStatus happend]; decide)
    have hnone : summedQuantity ([] : List Fill) = event.cumulativeFilledQuantity := by
      rw [hevent]
      rfl
    rw [outcome_returns hr.command.intent hreport]
    exact ⟨⟨appended_quantitiesFit hr.command.intent hfits.quantity happend, hnone,
      ⟨by simp, by simp⟩, by decide, by decide⟩, by simp [tupleLimit]⟩

/-- The prior fills can stand in a receipt at `at_`. -/
structure PriorFillsFit (request : PaperExecutionRequest) (at_ : UTCDateTime) : Prop where
  sorted : SortedUnique (request.priorFills.map (·.fillId))
  fit : FillsFit request at_ request.priorFills

/-- When leaving an order pending, or letting it expire, raises nothing. -/
structure WaitSound (request : PaperExecutionRequest) (events : List OrderEvent)
    (latest : OrderEvent) : Prop where
  pending : request.asOf < request.command.intent.validUntil →
    latest.QuantitiesFit request.command.intent ∧ PriorFillsFit request latest.occurredAt
  expired : request.command.intent.validUntil ≤ request.asOf →
    (appendOrderEvent request.command.intent latest .expired latest.cumulativeFilledQuantity
      request.command.intent.validUntil "order_validity_expired").Succeeds →
    request.reservation.updatedAt ≤ request.command.intent.validUntil ∧
      PriorFillsFit request request.command.intent.validUntil ∧ events.length < tupleLimit

theorem pending_returns (hr : request.Valid) (hopened : Opened request events latest) :
    (outcome request policy events latest request.priorFills
        ⟨[], request.reservation, 0, 0⟩).Returns ↔
      latest.QuantitiesFit request.command.intent ∧ PriorFillsFit request latest.occurredAt := by
  have hreport : Reported request events latest request.priorFills
      ⟨[], request.reservation, 0, 0⟩ :=
    { latest_last := hopened.last
      latest_order := hopened.order
      fills_order := hr.fills_command
      filled := fun hs => absurd (by rw [hs]; decide) hopened.live
      mutations := Nat.zero_le _
      final := by simp
      final_order := hr.reservation_order
      amounts := ⟨le_rfl, le_rfl⟩ }
  rw [outcome_returns hr.command.intent hreport]
  constructor
  · rintro ⟨⟨hquantities, -, hfit, hsorted, -⟩, -⟩
    exact ⟨hquantities, hsorted, hfit⟩
  · rintro ⟨hquantities, hsorted, hfit⟩
    exact ⟨⟨hquantities, hopened.total, hfit, hsorted, hr.fills_length⟩, hopened.length⟩

theorem expired_returns {event : OrderEvent} (hr : request.Valid) (hfits : request.Fits)
    (hheld : HeldOpen request)
    (hopened : Opened request events latest)
    (happend : appendOrderEvent request.command.intent latest .expired
      latest.cumulativeFilledQuantity request.command.intent.validUntil
      "order_validity_expired" = .success event) :
    (do
      let change ← releaseRemaining request.reservation request.command.intent.validUntil
        "expired_order_released"
      outcome request policy (events ++ [event]) event request.priorFills change).Returns ↔
      request.reservation.updatedAt ≤ request.command.intent.validUntil ∧
        PriorFillsFit request request.command.intent.validUntil ∧ events.length < tupleLimit := by
  have hevent := (appendOrderEvent_eq_success.mp happend).2
  have htime : event.occurredAt = request.command.intent.validUntil := by rw [hevent]; rfl
  have hreport (change : ReservationChange)
      (hchange : releaseRemaining request.reservation request.command.intent.validUntil
        "expired_order_released" = .success change) :
      Reported request (events ++ [event]) event request.priorFills change :=
    released_reported hr hchange (by simp) (by rw [hevent]; rfl) (fun f hf => hf)
      (by rw [appendOrderEvent_toStatus happend]; decide)
  have hreturns : (releaseRemaining request.reservation request.command.intent.validUntil
      "expired_order_released").Returns ↔
      request.reservation.updatedAt ≤ request.command.intent.validUntil := by
    rw [releaseRemaining_returns hr.reservation (by decide +kernel)]
    exact and_iff_right hheld.active
  rw [Attempt.returns_bind, hreturns]
  refine and_congr_right fun hupdated => ⟨fun h => ?_, fun h change hchange => ?_⟩
  · obtain ⟨change, hchange⟩ : (releaseRemaining request.reservation
        request.command.intent.validUntil "expired_order_released").Succeeds := by
      refine (hreturns.mpr hupdated).succeeds fun f => ?_
      simp [releaseRemaining, Attempt.bind_eq_failure]
    obtain ⟨⟨-, -, hfit, hsorted, -⟩, hlength⟩ :=
      (outcome_returns hr.command.intent (hreport change hchange)).mp (h change hchange)
    rw [htime] at hfit
    exact ⟨⟨hsorted, hfit⟩, by simpa [Nat.succ_le_iff] using hlength⟩
  · rw [outcome_returns hr.command.intent (hreport change hchange), htime]
    have htotal : summedQuantity request.priorFills = event.cumulativeFilledQuantity :=
      hopened.total.trans (by rw [hevent]; rfl)
    exact ⟨⟨appended_quantitiesFit hr.command.intent hfits.quantity happend, htotal, h.1.fit,
      h.1.sorted, hr.fills_length⟩, by simpa [Nat.succ_le_iff] using h.2⟩

theorem pendingOrExpired_returns (hr : request.Valid) (hfits : request.Fits)
    (hheld : HeldOpen request)
    (hopened : Opened request events latest) :
    (pendingOrExpired request policy events latest).Returns ↔ WaitSound request events latest := by
  simp only [pendingOrExpired]
  split
  · rename_i hearly
    rw [pending_returns hr hopened]
    exact ⟨fun h => ⟨fun _ => h, fun hlate => absurd hearly (not_lt.mpr hlate)⟩,
      fun h => h.pending hearly⟩
  · rename_i hlate
    rw [Attempt.returns_bind, and_iff_right appendOrderEvent_returns]
    constructor
    · intro h
      refine ⟨fun hearly => absurd hearly hlate, fun _ happended => ?_⟩
      obtain ⟨event, happend⟩ := happended
      exact (expired_returns hr hfits hheld hopened happend).mp (h event happend)
    · intro h event happend
      exact (expired_returns hr hfits hheld hopened happend).mpr
        (h.expired (not_lt.mp hlate) ⟨event, happend⟩)

/-! ## Fills -/

variable {bar : ExecutionBar} {price quantity : Decimal}

/-- The fill is immediate-or-cancel and leaves a remainder to cancel. -/
def CancelsRemainder (request : PaperExecutionRequest) (latest : OrderEvent)
    (quantity : Decimal) : Prop :=
  request.command.intent.timeInForce = .ioc ∧
    kept (latest.cumulativeFilledQuantity + quantity) ≠ request.command.intent.quantity

instance (request : PaperExecutionRequest) (latest : OrderEvent) (quantity : Decimal) :
    Decidable (CancelsRemainder request latest quantity) := inferInstanceAs (Decidable (_ ∧ _))

def fillConsumption (policy : PaperExecutionPolicy) (request : PaperExecutionRequest)
    (price quantity : Decimal) : Decimal :=
  consumedAmount request.reservation quantity price (fee quantity price policy)

def nextFill (policy : PaperExecutionPolicy) (request : PaperExecutionRequest)
    (latest : OrderEvent) (bar : ExecutionBar) (price quantity : Decimal) : Fill :=
  paperFill request policy bar quantity price (fee quantity price policy) (latest.sequence + 1)

/-- What the end of a fill asks of the remainder, the prior fills and the lengths. -/
structure SettleSound (policy : PaperExecutionPolicy) (request : PaperExecutionRequest)
    (events : List OrderEvent) (latest : OrderEvent) (bar : ExecutionBar)
    (price quantity : Decimal) : Prop where
  remainder_held : CancelsRemainder request latest quantity →
    fillConsumption policy request price quantity < request.reservation.remainingAmount
  prior_fills : FillsFit request bar.opensAt request.priorFills
  fill_ids : ((request.priorFills ++
    [nextFill policy request latest bar price quantity]).map (·.fillId)).Nodup
  fills_length : request.priorFills.length < tupleLimit
  events_length :
    events.length + (if CancelsRemainder request latest quantity then 2 else 1) ≤ tupleLimit

/-- When a fill that the order can take raises nothing. -/
structure FillSound (policy : PaperExecutionPolicy) (request : PaperExecutionRequest)
    (events : List OrderEvent) (latest : OrderEvent) (bar : ExecutionBar)
    (price quantity : Decimal) : Prop where
  price_pos : 0 < price
  quantity_quantized : IsQuantized quantity request.command.intent.quantityQuantum
  price_quantized : IsQuantized price bar.priceQuantum
  fees_quantized : IsQuantized (fee quantity price policy) policy.feeQuantum
  slippage_quantized : IsQuantized (kept (price - bar.open_)) bar.priceQuantum
  in_bounds : (nextFill policy request latest bar price quantity).InBounds
  reference_short : (simulatorRef policy bar).length ≤ 512
  reservation_time : request.reservation.updatedAt ≤ bar.opensAt
  position_quantized : request.reservation.kind = .position →
    IsQuantized quantity request.reservation.quantum
  settled : SettleSound policy request events latest bar price quantity

theorem nextFill_valid_iff (hp : policy.Valid) (hr : request.Valid) (hbar : bar.Valid)
    (hpos : 0 < quantity) :
    (nextFill policy request latest bar price quantity).Valid ↔
      0 < price ∧ IsQuantized quantity request.command.intent.quantityQuantum ∧
        IsQuantized price bar.priceQuantum ∧
        IsQuantized (fee quantity price policy) policy.feeQuantum ∧
        IsQuantized (kept (price - bar.open_)) bar.priceQuantum ∧
        (simulatorRef policy bar).length ≤ 512 := by
  constructor
  · intro h
    exact ⟨h.price_pos, h.quantity_quantized, h.price_quantized, h.fees_quantized,
      h.slippage_quantized, h.simulator_short _ rfl⟩
  · rintro ⟨hpricePos, hquantity, hprice, hfees, hslippage, hshort⟩
    exact
      { account_nonempty := hr.command.intent.account_nonempty
        quantity_pos := hpos
        quantity_quantum_pos := hr.command.intent.quantum_pos
        price_pos := hpricePos
        price_quantum_pos := hbar.price_quantum_pos
        currency := hbar.currency
        fees_nonneg := fee_nonneg hp
        fee_quantum_pos := hp.fee_quantum_pos
        simulator_short := by rintro text ⟨⟩; exact hshort
        external_short := by rintro text ⟨⟩
        quantity_quantized := hquantity
        price_quantized := hprice
        fees_quantized := hfees
        slippage_quantized := hslippage }

/-- The position of a fill that the request's bar and price offer. -/
structure Offered (policy : PaperExecutionPolicy) (request : PaperExecutionRequest)
    (bar : ExecutionBar) (price quantity : Decimal) : Prop where
  bar_valid : bar.Valid
  in_time : bar.opensAt < request.command.intent.validUntil
  positive : 0 < quantity
  covered : 0 < price → 0 < fillConsumption policy request price quantity ∧
    fillConsumption policy request price quantity ≤ request.reservation.remainingAmount

theorem consumption_covered (hr : request.Valid) (hfits : request.Fits)
    (hrequest : requestError request policy = .success ()) (hp : policy.Valid)
    (hsized : fillQuantity request bar price policy = .success quantity)
    (hpos : 0 < quantity) (hpricePos : 0 < price) :
    0 < fillConsumption policy request price quantity ∧
      fillConsumption policy request price quantity ≤ request.reservation.remainingAmount := by
  have hi := hr.command.intent
  have hremaining : |request.reservation.remainingAmount| ≤ request.reservation.amount := by
    rw [abs_of_nonneg hr.reservation.remaining_nonneg]
    exact hr.reservation.remaining_le
  unfold fillConsumption consumedAmount
  unfold fillQuantity at hsized
  cases hkind : request.reservation.kind with
  | cash =>
      simp only [hkind] at hsized ⊢
      have hcost : cashConsumption quantity price policy ≤ request.reservation.remainingAmount :=
        affordableQuantity_spec hi.quantum_pos
          (hfits.quantity.mono (volumeLimited_le hr hfits.quantity hrequest)) hsized hpos
      have hgross : 0 < kept (quantity * price) := kept_pos_iff.mpr (mul_pos hpos hpricePos)
      have hfee : 0 ≤ fee quantity price policy := fee_nonneg hp
      exact ⟨Context.ceilTo_pos hr.reservation.quantum_pos (kept_pos_iff.mpr (by linarith)),
        hfits.amount.ceilTo_le hr.reservation.remaining_quantized hremaining hcost⟩
  | position =>
      simp only [hkind] at hsized ⊢
      cases hsized
      exact ⟨hpos, min_le_right _ _⟩

theorem offered_of_next (hp : policy.Valid) (hr : request.Valid) (hfits : request.Fits)
    (hrequest : requestError request policy = .success ())
    (hnext : nextPrice request policy = some (bar, price))
    (hsized : fillQuantity request bar price policy = .success quantity) (hpos : 0 < quantity) :
    Offered policy request bar price quantity := by
  obtain ⟨hmem, -, hintime⟩ := nextBar_spec (nextPrice_eq_some hnext).1
  exact ⟨hr.bars bar hmem, hintime, hpos, consumption_covered hr hfits hrequest hp hsized hpos⟩

/-! ## Settling a fill -/

theorem fillsFit_sorted {at_ : UTCDateTime} (hat : at_ = bar.opensAt) :
    FillsFit request at_ (sorted (·.fillId)
        (request.priorFills ++ [nextFill policy request latest bar price quantity])) ↔
      FillsFit request bar.opensAt request.priorFills := by
  have hmem (f : Fill) : f ∈ sorted (·.fillId)
      (request.priorFills ++ [nextFill policy request latest bar price quantity]) ↔
      f ∈ request.priorFills ∨ f = nextFill policy request latest bar price quantity := by
    rw [(sorted_perm _ _).mem_iff, List.mem_append, List.mem_singleton]
  subst hat
  constructor
  · intro h
    exact ⟨fun f hf => h.order f ((hmem f).mpr (.inl hf)),
      fun f hf => h.time f ((hmem f).mpr (.inl hf))⟩
  · intro h
    constructor <;> intro f hf <;> rcases (hmem f).mp hf with hf | rfl
    · exact h.order f hf
    · exact ⟨rfl, rfl, rfl, rfl⟩
    · exact h.time f hf
    · exact le_max_right _ _

/-- The fills of an order whose quantity fits add up to what the new fill fills, in any context. -/
theorem fills_summed (hr : request.Valid) (hfits : request.Fits)
    (hopened : Opened request events latest)
    (hfit : FillsFit request bar.opensAt request.priorFills)
    (hquantized : IsQuantized quantity request.command.intent.quantityQuantum) (hpos : 0 < quantity)
    (hle : kept (latest.cumulativeFilledQuantity + quantity) ≤ request.command.intent.quantity) :
    summedQuantity (sorted (·.fillId)
        (request.priorFills ++ [nextFill policy request latest bar price quantity])) =
      kept (latest.cumulativeFilledQuantity + quantity) := by
  have hquantum := hr.command.intent.quantum_pos
  have hprior : ∀ x ∈ request.priorFills.map (·.quantity),
      0 ≤ x ∧ IsQuantized x request.command.intent.quantityQuantum := by
    intro x hx
    obtain ⟨f, hf, rfl⟩ := List.mem_map.mp hx
    have hvalid := hr.prior_fills f hf
    exact ⟨hvalid.quantity_pos.le, (hfit.order f hf).2.2.2 ▸ hvalid.quantity_quantized⟩
  have hfilled : kept latest.cumulativeFilledQuantity = latest.cumulativeFilledQuantity := by
    rw [← hopened.total]
    exact Context.round_sum _
  have hless : latest.cumulativeFilledQuantity ≤ request.command.intent.quantity := by
    rw [← hfilled]
    exact (kept_mono (le_add_of_nonneg_right hpos.le)).trans hle
  have hexact : summedQuantity request.priorFills = totalQuantity request.priorFills :=
    hfits.quantity.sum_eq hquantum hprior (hopened.total.trans_le hless)
  have htotal := hopened.total
  rw [hexact] at htotal
  have hnonneg : 0 ≤ latest.cumulativeFilledQuantity :=
    htotal ▸ List.sum_nonneg fun x hx => (hprior x hx).1
  have hpriorQuantized : IsQuantized latest.cumulativeFilledQuantity
      request.command.intent.quantityQuantum :=
    htotal ▸ Quantum.isQuantized_sum hquantum fun x hx => (hprior x hx).2
  have hsum : kept (latest.cumulativeFilledQuantity + quantity) =
      latest.cumulativeFilledQuantity + quantity :=
    hfits.quantity.eq_of_round_le (hpriorQuantized.add hquantized) (add_nonneg hnonneg hpos.le) hle
  have hall : ((sorted (·.fillId) (request.priorFills ++
      [nextFill policy request latest bar price quantity])).map (·.quantity)).sum =
      latest.cumulativeFilledQuantity + quantity := by
    rw [((sorted_perm _ _).map _).sum_eq, ← htotal]
    simp [totalQuantity, nextFill, paperFill]
  rw [hsum, ← hall]
  refine hfits.quantity.sum_eq_of_le hquantum (fun x hx => ?_) (hall.trans_le (hsum ▸ hle))
  rw [((sorted_perm _ _).map _).mem_iff, List.map_append, List.mem_append] at hx
  rcases hx with hx | hx
  · exact hprior x hx
  · rw [List.map_singleton, List.mem_singleton] at hx
    subst hx
    exact ⟨hpos.le, hquantized⟩

/-- What both ways of settling a fill report. -/
theorem fill_reported {last : OrderEvent} {all : List OrderEvent} (hr : request.Valid)
    (hall : all.getLast? = some last)
    (horder : last.orderIntentId = request.command.intent.intentId)
    (hchange : change.Accounts request.reservation) (hlength : change.mutations.length ≤ 3) :
    Reported request all last (sorted (·.fillId)
      (request.priorFills ++ [nextFill policy request latest bar price quantity])) change :=
  { latest_last := hall
    latest_order := horder
    fills_order := by
      intro f hf
      rw [(sorted_perm _ _).mem_iff, List.mem_append, List.mem_singleton] at hf
      rcases hf with hf | rfl
      · exact hr.fills_command f hf
      · exact ⟨rfl, rfl⟩
    filled := by
      intro _ hnil
      have hlength := (sorted_perm (·.fillId) (request.priorFills ++
        [nextFill policy request latest bar price quantity])).length_eq
      rw [hnil] at hlength
      simp at hlength
    mutations := hlength.trans (by decide)
    final := hchange.final_last
    final_order := hchange.order.trans hr.reservation_order
    amounts := ⟨hchange.consumed_nonneg, hchange.released_nonneg⟩ }

/-- The remainder of an accepted partial fill can always be cancelled. -/
theorem cancelled_accepted {event : OrderEvent} {cumulative : Decimal} {at_ : UTCDateTime}
    (happend : appendOrderEvent request.command.intent latest .partiallyFilled cumulative at_
      "paper_next_bar_fill" = .success event) :
    AppendAccepted request.command.intent event .cancelled event.cumulativeFilledQuantity
      event.occurredAt "ioc_remainder_cancelled" := by
  obtain ⟨haccepted, rfl⟩ := appendOrderEvent_eq_success.mp happend
  exact
    { created_le := haccepted.created_le
      window := haccepted.window
      transition := by simp [orderEvent, OrderStatus.transitions]
      previous_intent := by rintro e ⟨⟩; rfl
      previous_time := by rintro e ⟨⟩; exact le_rfl
      previous_filled := by rintro e ⟨⟩; exact le_rfl
      quantized := haccepted.quantized
      nonneg := haccepted.nonneg
      le_quantity := haccepted.le_quantity
      accepted := by simp
      partial_fill := by simp
      filled := by simp
      previous_sequence := by rintro e ⟨⟩; simp [orderEvent]
      reason_short := by rintro text ⟨⟩; decide }

/-- The outcome of a fill returns as far as the prior fills and the lengths allow. -/
theorem fill_outcome_returns (policy : PaperExecutionPolicy) {last : OrderEvent}
    {all : List OrderEvent} (hr : request.Valid)
    (hlast : last.occurredAt = bar.opensAt)
    (hsum : FillsFit request bar.opensAt request.priorFills → summedQuantity (sorted (·.fillId)
      (request.priorFills ++ [nextFill policy request latest bar price quantity])) =
        last.cumulativeFilledQuantity)
    (hquantities : last.QuantitiesFit request.command.intent)
    (hreport : Reported request all last (sorted (·.fillId)
      (request.priorFills ++ [nextFill policy request latest bar price quantity])) change) :
    (outcome request policy all last (sorted (·.fillId)
        (request.priorFills ++ [nextFill policy request latest bar price quantity]))
        change).Returns ↔
      FillsFit request bar.opensAt request.priorFills ∧
        ((request.priorFills ++
          [nextFill policy request latest bar price quantity]).map (·.fillId)).Nodup ∧
        request.priorFills.length < tupleLimit ∧ all.length ≤ tupleLimit := by
  have hlength := (sorted_perm (·.fillId) (request.priorFills ++
    [nextFill policy request latest bar price quantity])).length_eq
  rw [outcome_returns hr.command.intent hreport, fillsFit_sorted hlast, sortedUnique_map_sorted,
    hlength, List.length_append, List.length_singleton, Nat.succ_le_iff]
  constructor
  · rintro ⟨⟨-, -, hfit, hnodup, hfills⟩, hevents⟩
    exact ⟨hfit, hnodup, hfills, hevents⟩
  · rintro ⟨hfit, hnodup, hfills, hevents⟩
    exact ⟨⟨hquantities, hsum hfit, hfit, hnodup, hfills⟩, hevents⟩

omit [Arithmetic] [Hashing] in
theorem fillStatus_eq_partiallyFilled {cumulative : Decimal} :
    fillStatus request.command.intent cumulative = .partiallyFilled ↔
      cumulative ≠ request.command.intent.quantity := by
  unfold fillStatus
  split <;> simp_all

/-- Cancelling a remainder raises also when nothing is left to release. -/
theorem cancelRemainder_returns {event cancelled : OrderEvent} {m : ReservationMutation}
    (hr : request.Valid) (hfits : request.Fits)
    (htime : event.occurredAt = bar.opensAt)
    (hsum : FillsFit request bar.opensAt request.priorFills → summedQuantity (sorted (·.fillId)
      (request.priorFills ++ [nextFill policy request latest bar price quantity])) =
        event.cumulativeFilledQuantity)
    (hcancel : CancelsRemainder request latest quantity)
    (happend : appendOrderEvent request.command.intent event .cancelled
      event.cumulativeFilledQuantity event.occurredAt "ioc_remainder_cancelled" =
      .success cancelled)
    (hm : consumeReservation request.reservation (fillConsumption policy request price quantity)
      bar.opensAt = .success m) :
    (do
      let change ← releaseSurplus
        ⟨[m], m.reservation, fillConsumption policy request price quantity, 0⟩ event.occurredAt True
        "ioc_remainder_released"
      outcome request policy (events ++ [event] ++ [cancelled]) cancelled (sorted (·.fillId)
        (request.priorFills ++ [nextFill policy request latest bar price quantity]))
        change).Returns ↔
      SettleSound policy request events latest bar price quantity := by
  have hevent := (appendOrderEvent_eq_success.mp happend).2
  have hcancelledTime : cancelled.occurredAt = bar.opensAt := by rw [hevent, ← htime]; rfl
  have hreason : isBlank "ioc_remainder_released" = false ∧
      "ioc_remainder_released".length ≤ 256 := by decide +kernel
  have hreturns : (releaseSurplus
      ⟨[m], m.reservation, fillConsumption policy request price quantity, 0⟩ event.occurredAt True
      "ioc_remainder_released").Returns ↔
      fillConsumption policy request price quantity < request.reservation.remainingAmount := by
    rw [releaseSurplus_returns, htime, consumed_releasable hr.reservation hreason hm]
    exact forall_prop_of_true trivial
  have hreport (change : ReservationChange) (hchange : releaseSurplus
      ⟨[m], m.reservation, fillConsumption policy request price quantity, 0⟩ event.occurredAt True
      "ioc_remainder_released" = .success change) :
      Reported request (events ++ [event] ++ [cancelled]) cancelled (sorted (·.fillId)
        (request.priorFills ++ [nextFill policy request latest bar price quantity])) change := by
    have haccounts := (releaseSurplus_accounts (consume_accounts hr.reservation hfits.amount hm)
        hchange).1
    have hlength := releaseSurplus_length hchange
    exact fill_reported hr (by simp) (by rw [hevent]; rfl) haccounts (hlength.trans (by simp))
  have houtcome (change : ReservationChange) (hchange : releaseSurplus
      ⟨[m], m.reservation, fillConsumption policy request price quantity, 0⟩ event.occurredAt True
      "ioc_remainder_released" = .success change) :=
    fill_outcome_returns policy hr hcancelledTime
      (fun hfit => (hsum hfit).trans (by rw [hevent]; rfl))
      (appended_quantitiesFit hr.command.intent hfits.quantity happend) (hreport change hchange)
  have hlength : (events ++ [event] ++ [cancelled]).length = events.length + 2 := by simp
  rw [Attempt.returns_bind, hreturns]
  constructor
  · rintro ⟨hheld, h⟩
    obtain ⟨change, hchange⟩ := (hreturns.mpr hheld).succeeds fun f => releaseSurplus_ne_failure
    obtain ⟨hfit, hnodup, hfills, hevents⟩ := (houtcome change hchange).mp (h change hchange)
    exact ⟨fun _ => hheld, hfit, hnodup, hfills, by rw [if_pos hcancel, ← hlength]; exact hevents⟩
  · intro h
    have hevents := h.events_length
    rw [if_pos hcancel] at hevents
    exact ⟨h.remainder_held hcancel, fun change hchange => (houtcome change hchange).mpr
      ⟨h.prior_fills, h.fill_ids, h.fills_length, hlength.trans_le hevents⟩⟩

theorem settleRemainder_returns {event : OrderEvent} (hr : request.Valid) (hfits : request.Fits)
    (hquantized : IsQuantized quantity request.command.intent.quantityQuantum) (hpos : 0 < quantity)
    (hopened : Opened request events latest)
    (happend : appendOrderEvent request.command.intent latest
      (fillStatus request.command.intent (kept (latest.cumulativeFilledQuantity + quantity)))
      (kept (latest.cumulativeFilledQuantity + quantity)) bar.opensAt "paper_next_bar_fill" =
      .success event)
    (hchange : reservationAfterFill request.reservation quantity price
      (fee quantity price policy) bar.opensAt
      (fillStatus request.command.intent (kept (latest.cumulativeFilledQuantity + quantity)) =
      .filled) =
      .success change) :
    (settleRemainder request policy (events ++ [event]) event (sorted (·.fillId)
        (request.priorFills ++ [nextFill policy request latest bar price quantity]))
        change).Returns ↔
      SettleSound policy request events latest bar price quantity := by
  have hevent := (appendOrderEvent_eq_success.mp happend).2
  have htime : event.occurredAt = bar.opensAt := by rw [hevent]; rfl
  have hsum (hfit : FillsFit request bar.opensAt request.priorFills) :
      summedQuantity (sorted (·.fillId)
        (request.priorFills ++ [nextFill policy request latest bar price quantity])) =
        event.cumulativeFilledQuantity :=
    (fills_summed hr hfits hopened hfit hquantized hpos
      (appendOrderEvent_eq_success.mp happend).1.le_quantity).trans (by rw [hevent]; rfl)
  have horder : event.orderIntentId = request.command.intent.intentId := by rw [hevent]; rfl
  have haccounts := (reservationAfterFill_accounts hr.reservation hfits.amount hchange).1
  have hlength := reservationAfterFill_length hchange
  have hcancels : (request.command.intent.timeInForce = .ioc ∧
      event.toStatus = .partiallyFilled) ↔ CancelsRemainder request latest quantity := by
    rw [appendOrderEvent_toStatus happend, fillStatus_eq_partiallyFilled, CancelsRemainder]
  by_cases hcancel : CancelsRemainder request latest quantity
  · have hpart := fillStatus_eq_partiallyFilled.mpr hcancel.2
    rw [hpart] at happend
    obtain ⟨m, hm, rfl⟩ := reservationAfterFill_partial
      (fun h => absurd (hpart.symm.trans h) (by decide)) hchange
    have hcancelled := appendOrderEvent_eq_success.mpr ⟨cancelled_accepted happend, rfl⟩
    rw [settleRemainder, if_pos (hcancels.mpr hcancel), hcancelled, Attempt.success_bind]
    exact cancelRemainder_returns hr hfits htime hsum hcancel hcancelled hm
  · rw [settleRemainder, if_neg fun h => hcancel (hcancels.mp h),
      fill_outcome_returns policy hr htime hsum
        (appended_quantitiesFit hr.command.intent hfits.quantity happend)
        (fill_reported hr (by simp) horder haccounts (hlength.trans (by decide)))]
    constructor
    · rintro ⟨hfit, hnodup, hfills, hevents⟩
      exact ⟨fun h => absurd h hcancel, hfit, hnodup, hfills, by simpa [hcancel] using hevents⟩
    · intro h
      exact ⟨h.prior_fills, h.fill_ids, h.fills_length, by simpa [hcancel] using h.events_length⟩

/-- Consumed cash is rounded to the reservation's quantum; a consumed position is not. -/
theorem fillConsumption_quantized (hp : policy.Valid) (hr : request.Valid) (hfits : request.Fits)
    (hoffer : Offered policy request bar price quantity) (hpos : 0 < price) :
    IsQuantized (fillConsumption policy request price quantity) request.reservation.quantum ↔
      (request.reservation.kind = .position →
        IsQuantized quantity request.reservation.quantum) := by
  have hcovered := (hoffer.covered hpos).2.trans hr.reservation.remaining_le
  unfold fillConsumption consumedAmount at *
  cases hkind : request.reservation.kind with
  | cash =>
      simp only [hkind] at hcovered ⊢
      have hgross : 0 ≤ kept (quantity * price) :=
        kept_nonneg_iff.mpr (mul_nonneg hoffer.positive.le hpos.le)
      have hfee : 0 ≤ fee quantity price policy := fee_nonneg hp
      have hcost := kept_nonneg_iff.mpr (add_nonneg hgross hfee)
      exact iff_of_true
        (hfits.amount.isQuantized_ceilTo hr.reservation.quantum_pos hcost hcovered) (by simp)
  | position => simp

theorem fill_returns :
    (fill request policy bar quantity price (fee quantity price policy)
        (latest.sequence + 1)).Returns ↔
      (nextFill policy request latest bar price quantity).Valid ∧
        (nextFill policy request latest bar price quantity).InBounds := by
  have hsuccess : (fill request policy bar quantity price (fee quantity price policy)
      (latest.sequence + 1)).Returns ↔ (fill request policy bar quantity price
        (fee quantity price policy) (latest.sequence + 1)).Succeeds := by
    refine ⟨fun h => h.succeeds fun f => ?_, fun ⟨f, hf⟩ => by simp [hf]⟩
    simp [fill, modelValidate, Attempt.bind_eq_failure, Fill.validate_ne_failure]
  rw [hsuccess]
  constructor
  · rintro ⟨f, hf⟩
    obtain ⟨rfl, hvalid, hbounds⟩ := fill_eq_success.mp hf
    exact ⟨hvalid, hbounds⟩
  · rintro ⟨hvalid, hbounds⟩
    exact ⟨_, fill_eq_success.mpr ⟨rfl, hvalid, hbounds⟩⟩

/-- A fill returns exactly when the order refuses it or it is sound. -/
theorem filledOutcome_returns (hp : policy.Valid) (hr : request.Valid) (hfits : request.Fits)
    (hheld : HeldOpen request) (hopened : Opened request events latest)
    (hoffer : Offered policy request bar price quantity) :
    (filledOutcome request policy events latest bar price quantity).Returns ↔
      ((appendOrderEvent request.command.intent latest
        (fillStatus request.command.intent (kept (latest.cumulativeFilledQuantity + quantity)))
        (kept (latest.cumulativeFilledQuantity + quantity)) bar.opensAt
        "paper_next_bar_fill").Succeeds →
        FillSound policy request events latest bar price quantity) := by
  have hexpires := hoffer.in_time.trans_le hheld.expiry
  have hreserve (hpos : 0 < price) (terminal : Prop) [Decidable terminal] :
      (reservationAfterFill request.reservation quantity price (fee quantity price policy)
        bar.opensAt terminal).Returns ↔ request.reservation.updatedAt ≤ bar.opensAt ∧
        (request.reservation.kind = .position →
          IsQuantized quantity request.reservation.quantum) :=
    (reservationAfterFill_returns hr.reservation hfits.amount hheld.active hexpires
      (hoffer.covered hpos).1 (hoffer.covered hpos).2).trans
      (and_congr_right' (fillConsumption_quantized hp hr hfits hoffer hpos))
  simp only [filledOutcome, Attempt.returns_bind, appendOrderEvent_returns, true_and]
  constructor
  · rintro h ⟨event, happend⟩
    have hsequence : event.sequence = latest.sequence + 1 := by
      rw [(appendOrderEvent_eq_success.mp happend).2]
      rfl
    obtain ⟨hfillReturns, h⟩ := h event happend
    rw [hsequence, fill_returns] at hfillReturns
    obtain ⟨hprice, hquantity, hpriceQuantized, hfees, hslippage, hreference⟩ :=
      (nextFill_valid_iff hp hr hoffer.bar_valid hoffer.positive).mp hfillReturns.1
    have hfill := fill_eq_success.mpr ⟨rfl, hfillReturns⟩
    rw [← hsequence] at hfill
    obtain ⟨hreserveReturns, h⟩ := h _ hfill
    obtain ⟨htime, hposition⟩ := (hreserve hprice _).mp hreserveReturns
    obtain ⟨change, hchange⟩ := hreserveReturns.succeeds fun f => reservationAfterFill_ne_failure
    have hsettle := h change hchange
    rw [hsequence, ← nextFill, settleRemainder_returns hr hfits hquantity hoffer.positive hopened
      happend hchange] at hsettle
    exact ⟨hprice, hquantity, hpriceQuantized, hfees, hslippage, hfillReturns.2, hreference, htime,
      hposition, hsettle⟩
  · intro h event happend
    have hsound := h ⟨event, happend⟩
    have hsequence : event.sequence = latest.sequence + 1 := by
      rw [(appendOrderEvent_eq_success.mp happend).2]
      rfl
    have hvalid : (nextFill policy request latest bar price quantity).Valid :=
      (nextFill_valid_iff hp hr hoffer.bar_valid hoffer.positive).mpr
      ⟨hsound.price_pos, hsound.quantity_quantized, hsound.price_quantized, hsound.fees_quantized,
        hsound.slippage_quantized, hsound.reference_short⟩
    rw [hsequence]
    refine ⟨(fill_returns).mpr ⟨hvalid, hsound.in_bounds⟩, fun fill hfill => ?_⟩
    rw [(fill_eq_success.mp hfill).1, ← nextFill]
    refine ⟨(hreserve hsound.price_pos _).mpr
      ⟨hsound.reservation_time, hsound.position_quantized⟩, fun change hchange => ?_⟩
    rw [settleRemainder_returns hr hfits hsound.quantity_quantized hoffer.positive hopened happend
      hchange]
    exact hsound.settled

/-! ## The whole call -/

/-- When a supported order, started from `events`, raises nothing. -/
def StepSound (policy : PaperExecutionPolicy) (request : PaperExecutionRequest)
    (events : List OrderEvent) (latest : OrderEvent) : Prop :=
  match nextPrice request policy with
  | none => WaitSound request events latest
  | some (bar, price) => ∀ quantity, fillQuantity request bar price policy = .success quantity →
      0 < quantity →
      (appendOrderEvent request.command.intent latest
        (fillStatus request.command.intent (kept (latest.cumulativeFilledQuantity + quantity)))
        (kept (latest.cumulativeFilledQuantity + quantity)) bar.opensAt
        "paper_next_bar_fill").Succeeds →
      FillSound policy request events latest bar price quantity

/-- The exact condition under which the broker returns a result. -/
def Sound (policy : PaperExecutionPolicy) (request : PaperExecutionRequest) : Prop :=
  requestError request policy = .success () →
    request.command.intent.orderType ∈ policy.supportedOrderTypes →
    request.command.intent.timeInForce ∈ policy.supportedTimeInForce →
    ∀ events latest, openedEvents request = .success (events, latest) →
      StepSound policy request events latest

theorem fillQuantity_returns (hp : policy.Valid) (hr : request.Valid) (hheld : HeldOpen request)
    (hnext : nextPrice request policy = some (bar, price)) :
    (fillQuantity request bar price policy).Returns := by
  obtain ⟨hbar, hprice⟩ := nextPrice_eq_some hnext
  have hvalid := hr.bars bar (nextBar_spec hbar).1
  have hi := hr.command.intent
  unfold fillQuantity
  cases hkind : request.reservation.kind with
  | position => simp
  | cash =>
      have hside : request.command.intent.side = .buy := by
        by_contra hside
        have := hheld.kind
        simp [hkind, hside] at this
      have hpos := fillPrice_pos_of_buy hp hvalid hi.quantity_pos hi.limit_pos hside hprice
      exact affordableQuantity_returns hpos hp

theorem stepSound_iff (hp : policy.Valid) (hr : request.Valid) (hfits : request.Fits)
    (hheld : HeldOpen request) (hrequest : requestError request policy = .success ())
    (hopened : Opened request events latest) :
    (match nextPrice request policy with
      | none => pendingOrExpired request policy events latest
      | some (bar, price) => fillOrReject request policy events latest bar price).Returns ↔
      StepSound policy request events latest := by
  unfold StepSound
  cases hnext : nextPrice request policy with
  | none => exact pendingOrExpired_returns hr hfits hheld hopened
  | some found =>
      obtain ⟨bar, price⟩ := found
      simp only [fillOrReject, Attempt.returns_bind,
        fillQuantity_returns hp hr hheld hnext, true_and]
      refine forall₂_congr fun quantity hsized => ?_
      by_cases hpos : 0 < quantity
      · rw [if_neg (not_le.mpr hpos), filledOutcome_returns hp hr hfits hheld hopened
          (offered_of_next hp hr hfits hrequest hnext hsized hpos)]
        exact ⟨fun h _ => h, fun h => h hpos⟩
      · rw [if_pos (not_lt.mp hpos)]
        exact iff_of_true (terminalWithoutFill_returns hr hfits hheld (by decide +kernel))
          fun h => absurd h hpos

theorem openedEvents_returns : (openedEvents request).Returns := by
  unfold openedEvents
  cases request.priorEvents.getLast? with
  | some last => simp
  | none => simp [Attempt.returns_bind, appendOrderEvent_returns]

omit [Hashing] in
theorem requestError_returns : (requestError request policy).Returns := by
  have hwalk (n : ℕ) (h : Option Sha256) (s : OrderStatus) (c : Decimal) (es : List OrderEvent) :
      (walkEventChain n h s c es).Returns := by
    induction es generalizing n h s c with
    | nil => simp [walkEventChain]
    | cons e es ih => simp [walkEventChain, Attempt.returns_bind, ih]
  simp [requestError, eventChainError, Attempt.returns_bind, hwalk]

theorem executeSupported_returns (hp : policy.Valid) (hr : request.Valid)
    (hfits : request.Fits) (hheld : HeldOpen request)
    (hrequest : requestError request policy = .success ()) :
    (executeSupported request policy).Returns ↔
      ∀ events latest, openedEvents request = .success (events, latest) →
        StepSound policy request events latest := by
  rw [executeSupported, Attempt.returns_bind, and_iff_right openedEvents_returns, Prod.forall]
  exact forall₃_congr fun events latest hopened =>
    stepSound_iff hp hr hfits hheld hrequest (openedEvents_opened hr hrequest hopened)

/-- The broker returns a result exactly on sound requests. -/
theorem execute_returns_of_held (hp : policy.Valid) (hr : request.Valid) (hfits : request.Fits)
    (hheld : HeldOpen request) : (execute policy request).Returns ↔ Sound policy request := by
  have hrejects (reason : String) (hreason : isBlank (reason ++ "_released") = false ∧
      (reason ++ "_released").length ≤ 256) :
      (terminalWithoutFill request policy .rejected reason request.command.issuedAt).Returns :=
    terminalWithoutFill_returns hr hfits hheld hreason
  have htypeRejects := hrejects "unsupported_order_type" (by decide +kernel)
  have htimeRejects := hrejects "unsupported_time_in_force" (by decide +kernel)
  rw [execute, Attempt.returns_bind, and_iff_right requestError_returns, Sound]
  refine Iff.trans Unique.forall_iff (forall_congr' fun hrequest => ?_)
  by_cases htype : request.command.intent.orderType ∈ policy.supportedOrderTypes
  · by_cases htime : request.command.intent.timeInForce ∈ policy.supportedTimeInForce
    · rw [if_neg (not_not.mpr htype), if_neg (not_not.mpr htime),
        executeSupported_returns hp hr hfits hheld hrequest]
      exact ⟨fun h _ _ => h, fun h => h htype htime⟩
    · rw [if_neg (not_not.mpr htype), if_pos htime]
      exact iff_of_true htimeRejects fun _ h => absurd h htime
  · rw [if_pos htype]
    exact iff_of_true htypeRejects fun h => absurd h htype

def Scenario.oneTickRequest : PaperExecutionRequest :=
  Scenario.request { legs := [{ side := .sell, amount := 10 }] } { side := .sell, amount := 10 }
    [{ Scenario.bar { side := .sell } with open_ := 1, high := 1, low := 1, close := 1 }] 50

/-- The concrete order's intent is built from its reservation. -/
def Scenario.oneTickIntent : Call OrderIntent :=
  let s : Scenario := { legs := [{ side := .sell, amount := 10 }] }
  let leg : Leg := { side := .sell, amount := 10 }
  createOrderIntent (s.ident leg 2) 7 s.decision (s.reservation leg) leg.number leg.side
    leg.orderType leg.quantity 1 leg.limitPrice none leg.timeInForce 10 1000
    (toString (s.ident leg 3)) "paper-v1" 10

end

section

open scoped PythonArithmetic CodeHashing

theorem oneTickRequest_builtFrom : Scenario.oneTickRequest.command.intent.BuiltFrom
    Scenario.oneTickRequest.reservation := by
  have h : Scenario.oneTickIntent = .success Scenario.oneTickRequest.command.intent := by
    decide +kernel
  exact ⟨_, _, _, _, _, _, _, _, _, _, _, _, _, _, _, _, h⟩

end

end StonksPaper
