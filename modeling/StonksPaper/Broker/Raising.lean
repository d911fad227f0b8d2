import StonksPaper.Broker.Accounting

/-!
# Where the broker can raise

The validators of the receipt and the outcome, and the changes of the reservation, are the places
where an exception can leave. Each lemma says for one of them exactly when it returns.
-/

namespace StonksPaper

open Chain Quantum

theorem modelValidate_returns {α : Type} {validate : α → Call Unit} {a : α}
    (hraises : ∀ f, validate a ≠ .failure f) :
    (modelValidate validate a).Returns ↔ validate a = .success () := by
  cases h : validate a with
  | success u => simp [modelValidate, h]
  | failure f => exact absurd h (hraises f)
  | raised e => simp [modelValidate, h]

theorem Fill.validate_ne_failure {fill : Fill} {f : Failure} : fill.validate ≠ .failure f := by
  simp [validate, Attempt.bind_eq_failure, nonEmptyString, positiveDecimal, currencyCode,
    nonNegativeDecimal]

theorem orRaise_returns {α : Type} {message : String} {x : Call α} :
    (orRaise message x).Returns ↔ x.Succeeds := by
  cases x <;> simp [orRaise, Attempt.Succeeds]

section

variable [Arithmetic] [Hashing]

theorem ExecutionReceipt.validate_ne_failure {receipt : ExecutionReceipt} {f : Failure} :
    receipt.validate ≠ .failure f := by
  simp [validate, Attempt.bind_eq_failure, nonEmptyString, positiveDecimal, maxLength,
    nonNegativeDecimal]

omit [Arithmetic] in
theorem PaperExecutionOutcome.validate_ne_failure {o : PaperExecutionOutcome} {f : Failure} :
    o.validate ≠ .failure f := by
  simp [validate, Attempt.bind_eq_failure, atLeast, maxLength]

/-! ## The receipt and the outcome -/

/-- The quantities of the latest event add up to the order's. -/
structure OrderEvent.QuantitiesFit (intent : OrderIntent) (e : OrderEvent) : Prop where
  filled_nonneg : 0 ≤ e.cumulativeFilledQuantity
  remaining_nonneg : 0 ≤ e.remainingQuantity
  total : kept (e.cumulativeFilledQuantity + e.remainingQuantity) = intent.quantity
  filled_quantized : IsQuantized e.cumulativeFilledQuantity intent.quantityQuantum
  remaining_quantized : IsQuantized e.remainingQuantity intent.quantityQuantum

/-- The fills belong to the order and none is later than a receipt at `at_`. -/
structure FillsFit (request : PaperExecutionRequest) (at_ : UTCDateTime) (fills : List Fill) :
    Prop where
  order : ∀ f ∈ fills, f.accountId = request.command.intent.accountId ∧
    f.instrumentId = request.command.intent.instrumentId ∧
    f.side = request.command.intent.side ∧
    f.quantityQuantum = request.command.intent.quantityQuantum
  time : ∀ f ∈ fills, f.occurredAt ≤ max request.asOf at_

/-- What an exit hands over to `outcome`. -/
structure Reported (request : PaperExecutionRequest) (events : List OrderEvent)
    (latest : OrderEvent) (fills : List Fill) (change : ReservationChange) : Prop where
  latest_last : events.getLast? = some latest
  latest_order : latest.orderIntentId = request.command.intent.intentId
  fills_order : ∀ f ∈ fills, f.commandId = request.command.commandId ∧
    f.orderIntentId = request.command.intent.intentId
  filled : latest.toStatus = .filled → fills ≠ []
  mutations : change.mutations.length ≤ tupleLimit
  final : ∀ last ∈ change.mutations.getLast?, last.reservation = change.final
  final_order : change.final.orderIntentId = request.command.intent.intentId
  amounts : 0 ≤ change.consumed ∧ 0 ≤ change.released

variable {policy : PaperExecutionPolicy} {request : PaperExecutionRequest}
  {events : List OrderEvent} {latest : OrderEvent} {fills : List Fill}
  {change : ReservationChange}

theorem executionReceipt_valid_iff {receiptId : UUID} (hi : request.command.intent.Valid)
    (hreport : Reported request events latest fills change) :
    (executionReceipt receiptId request.command.commandId request.command.intent latest fills
        (max request.asOf latest.occurredAt)).Valid ↔
      latest.QuantitiesFit request.command.intent ∧
        summedQuantity fills = latest.cumulativeFilledQuantity ∧
        FillsFit request latest.occurredAt fills ∧
        SortedUnique (fills.map (·.fillId)) ∧ fills.length ≤ tupleLimit := by
  constructor
  · intro h
    exact ⟨⟨h.filled_nonneg, h.remaining_nonneg, h.quantities, h.quantized.2.1, h.quantized.2.2⟩,
      h.fills_total, ⟨fun f hf => (h.fills_match f hf).2.2, h.fills_time⟩, h.fills_sorted,
      h.fills_length⟩
  · rintro ⟨hquantities, htotal, hfills, hsorted, hlength⟩
    exact
      { account_nonempty := hi.account_nonempty
        quantity_pos := hi.quantity_pos
        quantum_pos := hi.quantum_pos
        fills_length := hlength
        filled_nonneg := hquantities.filled_nonneg
        remaining_nonneg := hquantities.remaining_nonneg
        event_intent := hreport.latest_order.symm
        event_status := rfl
        event_filled := rfl
        event_remaining := rfl
        quantities := hquantities.total
        quantized := ⟨hi.quantity_quantized, hquantities.filled_quantized,
          hquantities.remaining_quantized⟩
        event_time := le_max_right _ _
        fills_sorted := hsorted
        fills_match := fun f hf => ⟨(hreport.fills_order f hf).1, (hreport.fills_order f hf).2,
          hfills.order f hf⟩
        fills_time := hfills.time
        fills_total := htotal
        filled_fills := hreport.filled
        hash := rfl }

omit [Arithmetic] in
theorem paperExecutionOutcome_valid_iff {receipt : ExecutionReceipt} {inputHash : Sha256}
    (hreceipt : receipt.event = latest)
    (hreport : Reported request events latest fills change) :
    (paperExecutionOutcome receipt events change.mutations change.final change.consumed
      change.released inputHash).Valid ↔ events.length ≤ tupleLimit := by
  constructor
  · intro h
    exact h.events_length
  · intro hlength
    have hnonempty : 1 ≤ events.length := by
      cases events with
      | nil => exact absurd hreport.latest_last (by simp)
      | cons e es => simp
    exact
      { events_nonempty := hnonempty
        events_length := hlength
        mutations_length := hreport.mutations
        latest := hreceipt ▸ hreport.latest_last
        reservation_order := hreport.final_order.trans (hreceipt ▸ hreport.latest_order.symm)
        final := hreport.final
        accounting := hreport.amounts
        hash := rfl }

/-- What the validators of the receipt and the outcome still ask. -/
theorem outcome_returns (hi : request.command.intent.Valid)
    (hreport : Reported request events latest fills change) :
    (outcome request policy events latest fills change).Returns ↔
      (latest.QuantitiesFit request.command.intent ∧
        summedQuantity fills = latest.cumulativeFilledQuantity ∧
        FillsFit request latest.occurredAt fills ∧ SortedUnique (fills.map (·.fillId)) ∧
        fills.length ≤ tupleLimit) ∧
        events.length ≤ tupleLimit := by
  simp only [outcome, Attempt.returns_bind, ExecutionReceipt.create, PaperExecutionOutcome.create,
    modelValidate_returns fun f => ExecutionReceipt.validate_ne_failure,
    modelValidate_returns fun f => PaperExecutionOutcome.validate_ne_failure,
    modelValidate_eq_success, ExecutionReceipt.validate_iff, PaperExecutionOutcome.validate_iff,
    executionReceipt_valid_iff hi hreport]
  refine and_congr_right fun hfits => ⟨fun h => ?_, fun h => ?_⟩
  · exact (paperExecutionOutcome_valid_iff rfl hreport).mp (h _ ⟨hfits, rfl⟩)
  · rintro receipt ⟨-, rfl⟩
    exact (paperExecutionOutcome_valid_iff rfl hreport).mpr h

/-- An appended event carries quantities that fit. -/
theorem appended_quantitiesFit {intent : OrderIntent} {previous : Option OrderEvent}
    {target : OrderStatus} {cumulative : Decimal} {at_ : UTCDateTime} {reason : Option String}
    {e : OrderEvent} (hi : intent.Valid)
    (hfits : Arithmetic.context.Fits intent.quantityQuantum intent.quantity)
    (h : appendOrderEvent intent previous target cumulative at_ reason = .success e) :
    e.QuantitiesFit intent := by
  obtain ⟨haccepted, rfl⟩ := appendOrderEvent_eq_success.mp h
  have hrest : 0 ≤ intent.quantity - cumulative := sub_nonneg.mpr haccepted.le_quantity
  have hquantized := hi.quantity_quantized.sub haccepted.quantized
  have hremaining : kept (intent.quantity - cumulative) = intent.quantity - cumulative := by
    refine hfits.round_eq hquantized ?_
    rw [abs_of_nonneg hrest]
    linarith [haccepted.nonneg]
  have htotal : kept intent.quantity = intent.quantity :=
    hfits.round_eq hi.quantity_quantized (abs_of_pos hi.quantity_pos).le
  simp only [orderEvent]
  rw [hremaining]
  exact ⟨haccepted.nonneg, hrest, by rw [add_sub_cancel, htotal], haccepted.quantized, hquantized⟩

/-! ## Changes of the reservation -/

section

variable {r : AccountReservation} {at_ : UTCDateTime} {reason : String}

omit [Arithmetic] in
/-- Releasing the rest raises if the reservation is terminal or time ran backwards. -/
theorem releaseRemaining_returns (hr : r.Valid)
    (hreason : isBlank reason = false ∧ reason.length ≤ 256) :
    (releaseRemaining r at_ reason).Returns ↔ r.state.Mutable ∧ r.updatedAt ≤ at_ := by
  simp only [releaseRemaining, Attempt.returns_bind, orRaise_returns, Attempt.pure_eq,
    Attempt.returns_success, implies_true, and_true, Attempt.Succeeds]
  by_cases hdue : r.expiresAt ≤ at_
  · simp only [if_pos hdue, AccountReservation.expire_eq_success hr]
    constructor
    · rintro ⟨_, hactive, h, -⟩
      exact ⟨hactive, h.2⟩
    · intro h
      exact ⟨_, h.1, ⟨hdue, h.2⟩, rfl⟩
  · simp only [if_neg hdue, AccountReservation.release_eq_success hr]
    constructor
    · rintro ⟨_, h, -⟩
      exact ⟨h.1, h.2.1⟩
    · intro h
      exact ⟨_, ⟨h.1, h.2, not_le.mp hdue⟩, hreason, rfl⟩

omit [Arithmetic] in
theorem releaseRemaining_length (h : releaseRemaining r at_ reason = .success change) :
    change.mutations.length = 1 := by
  obtain ⟨m, -, h⟩ := Attempt.bind_eq_success.mp h
  cases h
  rfl

omit [Arithmetic] in
theorem releaseSurplus_length {change' : ReservationChange} {terminal : Prop}
    [Decidable terminal] (h : releaseSurplus change at_ terminal reason = .success change') :
    change'.mutations.length ≤ change.mutations.length + 1 := by
  unfold releaseSurplus at h
  split at h
  · obtain ⟨extra, hextra, h⟩ := Attempt.bind_eq_success.mp h
    cases h
    simp [releaseRemaining_length hextra]
  · cases h
    simp

omit [Arithmetic] in
theorem releaseSurplus_returns {terminal : Prop} [Decidable terminal] :
    (releaseSurplus change at_ terminal reason).Returns ↔
      (terminal → (releaseRemaining change.final at_ reason).Returns) := by
  unfold releaseSurplus
  split
  · rename_i hterminal
    simp [Attempt.returns_bind, hterminal]
  · rename_i hterminal
    simp [hterminal]

omit [Arithmetic] in
theorem releaseSurplus_ne_failure {terminal : Prop} [Decidable terminal] {f : Failure} :
    releaseSurplus change at_ terminal reason ≠ .failure f := by
  unfold releaseSurplus
  split <;> simp [releaseRemaining, Attempt.bind_eq_failure]

/-- What consuming leaves can be released at the same time exactly if it is not nothing. -/
theorem consumed_releasable {amount : Decimal} {m : ReservationMutation} (hr : r.Valid)
    (hreason : isBlank reason = false ∧ reason.length ≤ 256)
    (h : consumeReservation r amount at_ = .success m) :
    (releaseRemaining m.reservation at_ reason).Returns ↔ amount < r.remainingAmount := by
  rw [releaseRemaining_returns (AccountReservation.consume_valid hr h) hreason]
  obtain ⟨-, -, hle, -, rfl⟩ := (AccountReservation.consume_eq_success hr).mp h
  constructor
  · rintro ⟨hactive, -⟩
    refine lt_of_le_of_ne hle fun heq => ?_
    simp [AccountReservation.mutation, AccountReservation.consumedState, heq,
      ReservationState.Mutable] at hactive
  · intro hlt
    have hne : r.remainingAmount - amount ≠ 0 := (sub_pos.mpr hlt).ne'
    refine ⟨?_, le_rfl⟩
    simp [AccountReservation.mutation, AccountReservation.consumedState, hne,
      ReservationState.Mutable]

variable {quantity price fee : Decimal} {terminal : Prop} [Decidable terminal]

theorem reservationAfterFill_returns (hr : r.Valid)
    (hfits : Arithmetic.context.Fits r.quantum r.amount) (hactive : r.state.Mutable)
    (hexpires : at_ < r.expiresAt) (hpos : 0 < consumedAmount r quantity price fee)
    (hle : consumedAmount r quantity price fee ≤ r.remainingAmount) :
    (reservationAfterFill r quantity price fee at_ terminal).Returns ↔
      r.updatedAt ≤ at_ ∧ IsQuantized (consumedAmount r quantity price fee) r.quantum := by
  simp only [reservationAfterFill, Attempt.returns_bind, orRaise_returns, orRaise_eq_success]
  constructor
  · rintro ⟨⟨m, hm⟩, -⟩
    obtain ⟨hmutable, hamount, -⟩ := (AccountReservation.consume_eq_success hr).mp hm
    exact ⟨hmutable.2.1, hamount.2⟩
  · rintro ⟨hupdated, hquantized⟩
    have hsuccess : (consumeReservation r (consumedAmount r quantity price fee) at_).Succeeds :=
      ⟨_, (AccountReservation.consume_eq_success hr).mpr
        ⟨⟨hactive, hupdated, hexpires⟩, ⟨hpos, hquantized⟩, hle,
          AccountReservation.leaves_of_kept hr ⟨hpos, hquantized⟩ <|
            AccountReservation.kept_remainder hr hfits ⟨hpos, hquantized⟩ hle, rfl⟩⟩
    refine ⟨hsuccess, fun m hm => releaseSurplus_returns.mpr fun hsurplus => ?_⟩
    have hreason : isBlank "filled_order_surplus_released" = false ∧
        "filled_order_surplus_released".length ≤ 256 := by decide +kernel
    refine (consumed_releasable hr hreason hm).mpr ?_
    have htotal := (consume_accounts hr hfits hm).total
    have hleft := hsurplus.2
    simp only at htotal
    linarith

theorem reservationAfterFill_ne_failure {f : Failure} :
    reservationAfterFill r quantity price fee at_ terminal ≠ .failure f := by
  simp [reservationAfterFill, Attempt.bind_eq_failure, releaseSurplus_ne_failure]

theorem reservationAfterFill_partial (hterminal : ¬ terminal)
    (h : reservationAfterFill r quantity price fee at_ terminal = .success change) :
    ∃ m, consumeReservation r (consumedAmount r quantity price fee) at_ = .success m ∧
      change = ⟨[m], m.reservation, consumedAmount r quantity price fee, 0⟩ := by
  obtain ⟨m, hm, h⟩ := Attempt.bind_eq_success.mp h
  rw [orRaise_eq_success] at hm
  rw [releaseSurplus, if_neg fun hsurplus => hterminal hsurplus.1] at h
  cases h
  exact ⟨m, hm, rfl⟩

theorem reservationAfterFill_length
    (h : reservationAfterFill r quantity price fee at_ terminal = .success change) :
    change.mutations.length ≤ 2 := by
  obtain ⟨m, -, h⟩ := Attempt.bind_eq_success.mp h
  exact releaseSurplus_length h

end

end

end StonksPaper
