import StonksPaper.Broker.Cash
import StonksPaper.Broker.History
import StonksPaper.Broker.Sizing

/-!
# No look-ahead

A market order is filled on the first tradable bar that opens inside its window, at the open of
that bar. What the bar does later, and what the later bars do, changes nothing. Whatever the type of
the order, the quantity and the price of a fill stay within their bounds, as long as rounding moves
neither the volume cap nor the open.
-/

namespace StonksPaper

open Chain Quantum

/-- A tradable bar that opens after the last event and before the order ends. -/
def PaperExecutionRequest.InWindow (request : PaperExecutionRequest) (bar : ExecutionBar) : Prop :=
  bar.tradable = true ∧ lastTime request < bar.opensAt ∧
    bar.opensAt < request.command.intent.validUntil

instance (request : PaperExecutionRequest) (bar : ExecutionBar) :
    Decidable (request.InWindow bar) := inferInstanceAs (Decidable (_ ∧ _))

theorem nextBar_eq (request : PaperExecutionRequest) :
    nextBar request = request.bars.find? (request.InWindow ·) := rfl

/-- The bar is the first in the window. -/
def PaperExecutionRequest.FirstInWindow (request : PaperExecutionRequest) (bar : ExecutionBar) :
    Prop :=
  bar ∈ request.bars ∧ request.InWindow bar ∧
    ∀ other ∈ request.bars, request.InWindow other → bar.opensAt ≤ other.opensAt

section

variable [Arithmetic] {policy : PaperExecutionPolicy} {request : PaperExecutionRequest}
  {bar : ExecutionBar} {price quantity quantum available : Decimal}

omit [Arithmetic] in
/-- The search stops at the first bar of the list, and the list is sorted. -/
theorem firstInWindow_of_nextBar (hsorted : SortedUnique (request.bars.map (·.opensAt)))
    (h : nextBar request = some bar) : request.FirstInWindow bar := by
  rw [nextBar_eq] at h
  obtain ⟨hwindow, before, after, hbars, hbefore⟩ := List.find?_eq_some_iff_append.mp h
  refine ⟨List.mem_of_find?_eq_some h, of_decide_eq_true hwindow, fun other hmem hother => ?_⟩
  rw [hbars, List.mem_append, List.mem_cons] at hmem
  rcases hmem with hmem | rfl | hmem
  · have hnot := hbefore other hmem
    simp [hother] at hnot
  · exact le_rfl
  · have hpairs : (before ++ bar :: after).Pairwise fun a b => a.opensAt ≤ b.opensAt := by
      have hascending := sorted_pairwise id (request.bars.map (·.opensAt))
      rw [← hsorted.1, List.pairwise_map] at hascending
      rwa [hbars] at hascending
    exact (List.pairwise_cons.mp (List.pairwise_append.mp hpairs).2.1).1 other hmem

/-! ## Bounds of a fill -/

theorem requestError_sorted (h : requestError request policy = .success ()) :
    SortedUnique (request.bars.map (·.opensAt)) := by
  simp only [requestError, Attempt.bind_eq_success, failUnless_eq_success] at h
  obtain ⟨_, -, _, hsorted, -⟩ := h
  exact hsorted

/-- What is affordable is at most what was asked for. -/
theorem affordableQuantity_le (hq : 0 < quantum)
    (hfits : Arithmetic.context.Fits quantum quantity) {affordable : Decimal}
    (h : affordableQuantity quantity price quantum available policy = .success affordable)
    (hpos : 0 < affordable) : affordable ≤ quantity := by
  simp only [affordableQuantity, Attempt.bind_eq_success, Attempt.require_eq_success,
    Attempt.pure_eq, Attempt.success.injEq] at h
  obtain ⟨_, -, rfl⟩ := h
  have hlower := (lt_max_iff.mp hpos).resolve_left (lt_irrefl 0)
  rw [max_eq_right hlower.le] at hpos ⊢
  have hcandidate : lowerCandidate price quantum available policy
      (candidateSteps (min quantity (affordableEstimate price quantum available policy)) quantum)
      (min quantity (affordableEstimate price quantum available policy)) ≤
        max 0 (min quantity (affordableEstimate price quantum available policy)) :=
    lowerCandidate_le hq hfits (min_le_left _ _)
  have hmin := (lt_max_iff.mp (hpos.trans_le hcandidate)).resolve_left (lt_irrefl 0)
  rw [max_eq_right hmin.le] at hcandidate
  exact hcandidate.trans (min_le_left _ _)

/-- A fill takes no more than the volume leaves of the order's remainder. -/
theorem fillQuantity_le (hq : 0 < request.command.intent.quantityQuantum)
    (hfits : Arithmetic.context.Fits request.command.intent.quantityQuantum
      (volumeLimited request bar policy))
    (h : fillQuantity request bar price policy = .success quantity) (hpos : 0 < quantity) :
    quantity ≤ volumeLimited request bar policy := by
  unfold fillQuantity at h
  cases hkind : request.reservation.kind with
  | position =>
      rw [hkind] at h
      cases h
      exact min_le_left _ _
  | cash =>
      rw [hkind] at h
      exact affordableQuantity_le hq hfits h hpos

def ExecutionBar.KeepsOpen (bar : ExecutionBar) (side : OrderSide) : Prop :=
  adverseQuantize (kept bar.open_) bar.priceQuantum side = bar.open_

instance (bar : ExecutionBar) (side : OrderSide) : Decidable (bar.KeepsOpen side) :=
  inferInstanceAs (Decidable (_ = _))

theorem open_le_adjustedPrice {intent : OrderIntent} (hp : policy.Valid) (hbar : bar.Valid)
    (hi : 0 < intent.quantity) (hside : intent.side = .buy) (hopen : bar.KeepsOpen .buy) :
    bar.open_ ≤ adjustedPrice intent bar policy := by
  have hadverse := adverse_nonneg hp hbar hi
  have hrate := div_nonneg (kept_nonneg_iff.mpr hadverse) (by norm_num [bps] : (0 : Decimal) ≤ bps)
  have hone := kept_mono (le_add_of_nonneg_right (a := (1 : Decimal)) (kept_nonneg_iff.mpr hrate))
  rw [kept_one] at hone
  simp only [adjustedPrice, hside, OrderSide.direction, adverseQuantize, one_mul]
  calc bar.open_ = ceilQuantum (kept bar.open_) bar.priceQuantum := hopen.symm
    _ ≤ _ := Context.ceilTo_mono hbar.price_quantum_pos
        (kept_mono (le_mul_of_one_le_right hbar.open_pos.le hone))

/-- Selling, the adjusted price is at most the open. -/
theorem adjustedPrice_le_open {intent : OrderIntent} (hp : policy.Valid) (hbar : bar.Valid)
    (hi : 0 < intent.quantity) (hside : intent.side = .sell) (hopen : bar.KeepsOpen .sell) :
    adjustedPrice intent bar policy ≤ bar.open_ := by
  have hadverse := adverse_nonneg hp hbar hi
  have hrate := div_nonneg (kept_nonneg_iff.mpr hadverse) (by norm_num [bps] : (0 : Decimal) ≤ bps)
  simp only [adjustedPrice, hside, OrderSide.direction, adverseQuantize, neg_one_mul, kept_neg,
    neg_div]
  have hone := kept_mono (add_le_of_nonpos_right (a := (1 : Decimal))
    (neg_nonpos.mpr (kept_nonneg_iff.mpr hrate)))
  rw [kept_one] at hone
  calc _ ≤ floorQuantum (kept bar.open_) bar.priceQuantum :=
        Context.floorTo_mono hbar.price_quantum_pos
          (kept_mono (mul_le_of_le_one_right hbar.open_pos.le hone))
    _ = bar.open_ := hopen

omit [Arithmetic] in
/-- A limit order pays no more, and receives no less, than its limit. -/
theorem limitFillPrice_within {adjusted limit : Decimal} {side : OrderSide}
    (h : limitFillPrice bar adjusted limit side = some price) :
    (side = .buy → price ≤ limit) ∧ (side = .sell → limit ≤ price) := by
  cases side with
  | buy =>
      refine ⟨fun _ => ?_, fun hside => absurd hside (by decide)⟩
      simp only [limitFillPrice] at h
      split at h
      · cases h
        exact min_le_right _ _
      · split at h <;> cases h
        exact le_rfl
  | sell =>
      refine ⟨fun hside => absurd hside (by decide), fun _ => ?_⟩
      simp only [limitFillPrice] at h
      split at h
      · cases h
        exact le_max_right _ _
      · split at h <;> cases h
        exact le_rfl

/-- The bounds of a fill on a bar: a positive number of quanta, within the remainder and the bar's
volume; a market order trades no better than the open, a limit order no worse than its limit. -/
structure Fill.Bounded (f : Fill) (policy : PaperExecutionPolicy) (request : PaperExecutionRequest)
    (bar : ExecutionBar) : Prop where
  occurred : f.occurredAt = bar.opensAt
  positive : 0 < f.quantity
  quantized : IsQuantized f.quantity request.command.intent.quantityQuantum
  unfilled : f.quantity ≤ request.command.intent.quantity - totalQuantity request.priorFills
  volume : f.quantity ≤ bar.volume * policy.maxVolumeParticipation
  market_buy : request.command.intent.orderType = .market →
    request.command.intent.side = .buy → bar.open_ ≤ f.price
  market_sell : request.command.intent.orderType = .market →
    request.command.intent.side = .sell → f.price ≤ bar.open_
  limit_buy : request.command.intent.orderType = .limit → request.command.intent.side = .buy →
    ∀ limit ∈ request.command.intent.limitPrice, f.price ≤ limit
  limit_sell : request.command.intent.orderType = .limit → request.command.intent.side = .sell →
    ∀ limit ∈ request.command.intent.limitPrice, limit ≤ f.price

section

variable [Hashing] {o : PaperExecutionOutcome}

/-- Rounding keeps a fill within its bounds: the order's quantity fits, the cap that the bar's
volume puts on a fill is not rounded up, and the open of a market order's bar keeps its price
quantum. -/
structure PaperExecutionRequest.KeepsBounds (request : PaperExecutionRequest)
    (policy : PaperExecutionPolicy) : Prop where
  quantity : Arithmetic.context.Fits request.command.intent.quantityQuantum
    request.command.intent.quantity
  volume : ∀ bar ∈ nextBar request, volumeCap bar request.command.intent.quantityQuantum policy ≤
    bar.volume * policy.maxVolumeParticipation
  opening : request.command.intent.orderType = .market →
    ∀ bar ∈ nextBar request, bar.KeepsOpen request.command.intent.side

theorem FillStep.bounded {latest event : OrderEvent} {f : Fill} {change : ReservationChange}
    (hp : policy.Valid) (hr : request.Valid) (hrequest : requestError request policy = .success ())
    (hkeeps : request.KeepsBounds policy)
    (step : FillStep policy request latest event f change bar price quantity)
    (hunfilled : f.quantity ≤
      request.command.intent.quantity - totalQuantity request.priorFills) :
    f.Bounded policy request bar := by
  obtain ⟨rfl, hfill, -⟩ := fill_eq_success.mp step.built
  obtain ⟨hbar, hprice⟩ := nextPrice_eq_some step.tradable
  have hbarValid := hr.bars bar (nextBar_spec hbar).1
  have hintent := hr.command.intent
  have hvolume : quantity ≤ volumeLimited request bar policy :=
    fillQuantity_le hintent.quantum_pos
      (hkeeps.quantity.mono (volumeLimited_le hr hkeeps.quantity hrequest)) step.sized step.positive
  have hmarket : request.command.intent.orderType = .market →
      price = adjustedPrice request.command.intent bar policy := by
    intro htype
    simp only [fillPrice, htype] at hprice
    exact (Option.some.inj hprice).symm
  have hlimit : request.command.intent.orderType = .limit →
      ∀ limit ∈ request.command.intent.limitPrice,
        limitFillPrice bar (adjustedPrice request.command.intent bar policy) limit
          request.command.intent.side = some price := by
    intro htype limit hmem
    rw [Option.mem_def] at hmem
    simp only [fillPrice, htype, hmem] at hprice
    split at hprice
    · exact hprice
    · cases hprice
  constructor
  · rfl
  · exact step.positive
  · exact hfill.quantity_quantized
  · exact hunfilled
  · exact (hvolume.trans (min_le_right _ _)).trans (hkeeps.volume bar hbar)
  · intro htype hside
    rw [show _ = price from rfl, hmarket htype]
    exact open_le_adjustedPrice hp hbarValid hintent.quantity_pos hside
      (hside ▸ hkeeps.opening htype bar hbar)
  · intro htype hside
    rw [show _ = price from rfl, hmarket htype]
    exact adjustedPrice_le_open hp hbarValid hintent.quantity_pos hside
      (hside ▸ hkeeps.opening htype bar hbar)
  · intro htype hside limit hmem
    exact (limitFillPrice_within (hlimit htype limit hmem)).1 hside
  · intro htype hside limit hmem
    exact (limitFillPrice_within (hlimit htype limit hmem)).2 hside

/-- The new fill takes no more than the prior fills left, as the receipt's total is within the
order. -/
theorem new_fill_unfilled (hr : request.Valid)
    (hfits : Arithmetic.context.Fits request.command.intent.quantityQuantum
      request.command.intent.quantity)
    (h : execute policy request = .success o) {f : Fill} (hf : f ∈ o.receipt.fills)
    (hnew : f ∉ request.priorFills) :
    f.quantity ≤ request.command.intent.quantity - totalQuantity request.priorFills := by
  have htotal := (execute_total hr hfits h).1
  have hle := (execute_total hr hfits h).2
  obtain ⟨-, events, latest, fills, change, hexit, ho⟩ := execute_exit h
  obtain ⟨-, -, -, -, hfills, -⟩ := outcome_eq_success ho
  have hsum {g : Fill} (hsorted : fills = sorted (·.fillId) (request.priorFills ++ [g])) :
      f.quantity ≤ request.command.intent.quantity - totalQuantity request.priorFills := by
    rw [hfills, hsorted, mem_sorted, List.mem_append, List.mem_singleton] at hf
    cases hf.resolve_left hnew
    rw [← htotal, hfills, hsorted, totalQuantity, ((sorted_perm _ _).map _).sum_eq] at hle
    simp only [List.map_append, List.map_singleton, List.sum_append, List.sum_singleton] at hle
    rw [totalQuantity]
    linarith
  cases hexit with
  | rejected refused appended released => exact absurd (hfills ▸ hf) List.not_mem_nil
  | pending supported untradable opened => exact absurd (hfills ▸ hf) hnew
  | expired supported untradable opened appended released => exact absurd (hfills ▸ hf) hnew
  | filled opened step rests => exact hsum rfl
  | cancelled opened step immediate incomplete appended surplus => exact hsum rfl

theorem new_fill_first (h : execute policy request = .success o) {f : Fill}
    (hf : f ∈ o.receipt.fills) (hnew : f ∉ request.priorFills) :
    ∃ latest event change bar price quantity, request.FirstInWindow bar ∧
      FillStep policy request latest event f change bar price quantity := by
  obtain ⟨latest, event, change, bar, price, quantity, step, -⟩ := new_fill_filledBy h hf hnew
  have hsorted := requestError_sorted (execute_exit h).1
  exact ⟨latest, event, change, bar, price, quantity,
    firstInWindow_of_nextBar hsorted (nextPrice_eq_some step.tradable).1, step⟩

theorem new_fill_bounded (hp : policy.Valid) (hr : request.Valid)
    (hkeeps : request.KeepsBounds policy) (h : execute policy request = .success o) {f : Fill}
    (hf : f ∈ o.receipt.fills) (hnew : f ∉ request.priorFills) :
    ∃ bar, request.FirstInWindow bar ∧ f.Bounded policy request bar := by
  obtain ⟨latest, event, change, bar, price, quantity, hfirst, step⟩ := new_fill_first h hf hnew
  exact ⟨bar, hfirst, step.bounded hp hr (execute_exit h).1 hkeeps
    (new_fill_unfilled hr hkeeps.quantity h hf hnew)⟩

end

/-! ## Two requests -/

/-- The requests differ only in what the first bar in the window does after its open, and in the
bars after it. -/
def PaperExecutionRequest.SameUntilOpen (request other : PaperExecutionRequest) : Prop :=
  ∃ before bar after after' high low close, request.bars = before ++ bar :: after ∧
    (∀ item ∈ before, ¬ request.InWindow item) ∧ request.InWindow bar ∧
    other = { request with
      bars := before ++ { bar with high := high, low := low, close := close } :: after' }

/-- The outcomes say the same of the receipt, the order and the reservation. -/
structure PaperExecutionOutcome.Same (o o' : PaperExecutionOutcome) : Prop where
  receipt : o'.receipt = o.receipt
  events : o'.orderEvents = o.orderEvents
  mutations : o'.reservationMutations = o.reservationMutations
  final : o'.finalReservation = o.finalReservation
  consumed : o'.reservationConsumed = o.reservationConsumed
  released : o'.reservationReleased = o.reservationReleased

section

variable [Hashing] {o : PaperExecutionOutcome} {events : List OrderEvent} {latest : OrderEvent}
  {fills : List Fill} {change : ReservationChange}

theorem outcome_bars (bars : List ExecutionBar)
    (h : outcome request policy events latest fills change = .success o) :
    ∃ o', outcome { request with bars := bars } policy events latest fills change = .success o' ∧
      o.Same o' := by
  obtain ⟨receipt, hreceipt, h⟩ := Attempt.bind_eq_success.mp h
  obtain ⟨hvalid, rfl⟩ := modelValidate_eq_success.mp h
  have hv := PaperExecutionOutcome.validate_iff.mp hvalid
  refine ⟨_, Attempt.bind_eq_success.mpr ⟨receipt, hreceipt, modelValidate_eq_success.mpr
    ⟨PaperExecutionOutcome.validate_iff.mpr ?_, rfl⟩⟩, rfl, rfl, rfl, rfl, rfl, rfl⟩
  exact ⟨hv.events_nonempty, hv.events_length, hv.mutations_length, hv.latest,
    hv.reservation_order, hv.final, hv.accounting, rfl⟩

theorem terminalWithoutFill_bars (bars : List ExecutionBar) {status : OrderStatus} {reason : String}
    {occurredAt : UTCDateTime}
    (h : terminalWithoutFill request policy status reason occurredAt = .success o) :
    ∃ o', terminalWithoutFill { request with bars := bars } policy status reason occurredAt =
      .success o' ∧ o.Same o' := by
  obtain ⟨event, happend, h⟩ := Attempt.bind_eq_success.mp h
  obtain ⟨change, hrelease, h⟩ := Attempt.bind_eq_success.mp h
  obtain ⟨o', ho', hsame⟩ := outcome_bars bars h
  exact ⟨o', Attempt.bind_eq_success.mpr ⟨event, happend,
    Attempt.bind_eq_success.mpr ⟨change, hrelease, ho'⟩⟩, hsame⟩

theorem settleRemainder_bars (bars : List ExecutionBar)
    (h : settleRemainder request policy events latest fills change = .success o) :
    ∃ o', settleRemainder { request with bars := bars } policy events latest fills change =
      .success o' ∧ o.Same o' := by
  simp only [settleRemainder] at h ⊢
  by_cases hioc : request.command.intent.timeInForce = .ioc ∧ latest.toStatus = .partiallyFilled
  · rw [if_pos hioc] at h ⊢
    obtain ⟨cancelled, hcancel, h⟩ := Attempt.bind_eq_success.mp h
    obtain ⟨released, hrelease, h⟩ := Attempt.bind_eq_success.mp h
    obtain ⟨o', ho', hsame⟩ := outcome_bars bars h
    exact ⟨o', Attempt.bind_eq_success.mpr ⟨cancelled, hcancel,
      Attempt.bind_eq_success.mpr ⟨released, hrelease, ho'⟩⟩, hsame⟩
  · rw [if_neg hioc] at h ⊢
    exact outcome_bars bars h

/-- A fill reads the open of its bar, and what the bar does later nowhere. -/
theorem fillOrReject_bars (bars : List ExecutionBar) (high low close : Decimal)
    (h : fillOrReject request policy events latest bar price = .success o) :
    ∃ o', fillOrReject { request with bars := bars } policy events latest
      { bar with high := high, low := low, close := close } price = .success o' ∧ o.Same o' := by
  obtain ⟨quantity, hsized, h⟩ := Attempt.bind_eq_success.mp h
  by_cases hnone : quantity ≤ 0
  · rw [if_pos hnone] at h
    obtain ⟨o', ho', hsame⟩ := terminalWithoutFill_bars bars h
    refine ⟨o', Attempt.bind_eq_success.mpr ⟨quantity, hsized, ?_⟩, hsame⟩
    rw [if_pos hnone]
    exact ho'
  · rw [if_neg hnone] at h
    obtain ⟨event, happend, h⟩ := Attempt.bind_eq_success.mp h
    obtain ⟨fill, hfill, h⟩ := Attempt.bind_eq_success.mp h
    obtain ⟨change, hchange, h⟩ := Attempt.bind_eq_success.mp h
    obtain ⟨o', ho', hsame⟩ := settleRemainder_bars bars h
    refine ⟨o', Attempt.bind_eq_success.mpr ⟨quantity, hsized, ?_⟩, hsame⟩
    rw [if_neg hnone]
    exact Attempt.bind_eq_success.mpr ⟨event, happend, Attempt.bind_eq_success.mpr
      ⟨fill, hfill, Attempt.bind_eq_success.mpr ⟨change, hchange, ho'⟩⟩⟩

omit [Arithmetic] [Hashing] in
theorem nextBar_of_before {before after : List ExecutionBar}
    (hbars : request.bars = before ++ bar :: after)
    (hbefore : ∀ item ∈ before, ¬ request.InWindow item) (hbar : request.InWindow bar) :
    nextBar request = some bar := by
  have hnone : before.find? (request.InWindow ·) = none :=
    List.find?_eq_none.mpr fun item hitem => by simpa using hbefore item hitem
  rw [nextBar_eq, hbars, List.find?_append, hnone]
  simp [hbar]

omit [Hashing] in
theorem nextPrice_of_market (htype : request.command.intent.orderType = .market)
    (hbar : nextBar request = some bar) :
    nextPrice request policy =
      some (bar, adjustedPrice request.command.intent bar policy) := by
  have hprice : fillPrice request bar policy =
      some (adjustedPrice request.command.intent bar policy) := by
    simp only [fillPrice, htype]
  simp [nextPrice, hbar, hprice]

/-- A market order's outcome does not see beyond the open of its bar. -/
theorem execute_same {other : PaperExecutionRequest}
    (htype : request.command.intent.orderType = .market) (hother : request.SameUntilOpen other)
    (haccepted : requestError other policy = .success ())
    (h : execute policy request = .success o) :
    ∃ o', execute policy other = .success o' ∧ o.Same o' := by
  obtain ⟨before, bar, after, after', high, low, close, hbars, hbefore, hbar, rfl⟩ := hother
  have hnext : nextPrice request policy =
      some (bar, adjustedPrice request.command.intent bar policy) :=
    nextPrice_of_market htype (nextBar_of_before hbars hbefore hbar)
  have hnext' : nextPrice { request with
      bars := before ++ { bar with high := high, low := low, close := close } :: after' } policy =
        some ({ bar with high := high, low := low, close := close },
          adjustedPrice request.command.intent bar policy) :=
    nextPrice_of_market htype (nextBar_of_before rfl hbefore hbar)
  obtain ⟨_, -, h⟩ := Attempt.bind_eq_success.mp h
  unfold execute
  rw [haccepted, Attempt.success_bind]
  by_cases htypes : request.command.intent.orderType ∉ policy.supportedOrderTypes
  · rw [if_pos htypes] at h ⊢
    exact terminalWithoutFill_bars _ h
  rw [if_neg htypes] at h ⊢
  by_cases htimes : request.command.intent.timeInForce ∉ policy.supportedTimeInForce
  · rw [if_pos htimes] at h ⊢
    exact terminalWithoutFill_bars _ h
  rw [if_neg htimes] at h ⊢
  obtain ⟨⟨events, latest⟩, hopened, h⟩ := Attempt.bind_eq_success.mp h
  simp only [hnext] at h
  obtain ⟨o', ho', hsame⟩ := fillOrReject_bars
    (before ++ { bar with high := high, low := low, close := close } :: after') high low close h
  refine ⟨o', Attempt.bind_eq_success.mpr ⟨(events, latest), hopened, ?_⟩, hsame⟩
  simp only [hnext']
  exact ho'

end

end

namespace Scenario

open scoped PythonArithmetic CodeHashing

def laterRequest : PaperExecutionRequest :=
  request {} {} [{ bar {} with high := 150, close := 120 },
    { bar {} with opensAt := 41, closesAt := 42, availableAt := 43, low := 1 }] 50

def thirdPolicy : PaperExecutionPolicy :=
  { policy with maxVolumeParticipation := 3333333333333333333333333333 / 10 ^ 28 }

end Scenario

end StonksPaper
