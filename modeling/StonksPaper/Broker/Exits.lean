import StonksPaper.Broker.Reference

/-!
# The exits of the broker

`Exit` lists the ways in which an execution can succeed, with the events, fills and reservation
change that each of them reports. `execute_exit` is the only place where `execute` is taken apart;
the accounting and the history results split on `Exit`.
-/

namespace StonksPaper

open Chain Quantum

variable [Arithmetic] [Hashing]

/-- Neither rejection applies: the order is supported, and a bar that could fill it leaves
something to fill. -/
structure AvoidsRejection (policy : PaperExecutionPolicy) (request : PaperExecutionRequest) :
    Prop where
  order_type : request.command.intent.orderType ∈ policy.supportedOrderTypes
  time_in_force : request.command.intent.timeInForce ∈ policy.supportedTimeInForce
  fillable : ∀ bar price, nextPrice request policy = some (bar, price) →
    ∀ quantity, fillQuantity request bar price policy = .success quantity → 0 < quantity

/-- The part that every fill has in common, up to the cancelling of a remainder. -/
structure FillStep (policy : PaperExecutionPolicy) (request : PaperExecutionRequest)
    (latest : OrderEvent) (event : OrderEvent) (fill : Fill) (change : ReservationChange)
    (bar : ExecutionBar) (price quantity : Decimal) : Prop where
  supported : AvoidsRejection policy request
  tradable : nextPrice request policy = some (bar, price)
  sized : fillQuantity request bar price policy = .success quantity
  positive : 0 < quantity
  appended : appendOrderEvent request.command.intent latest
    (fillStatus request.command.intent (kept (latest.cumulativeFilledQuantity + quantity)))
    (kept (latest.cumulativeFilledQuantity + quantity)) bar.opensAt "paper_next_bar_fill" =
    .success event
  built : StonksPaper.fill request policy bar quantity price (fee quantity price policy)
    event.sequence = .success fill
  held : reservationAfterFill request.reservation quantity price (fee quantity price policy)
    bar.opensAt (event.toStatus = .filled) = .success change

/-- What a successful execution reports, exit by exit. -/
inductive Exit (policy : PaperExecutionPolicy) (request : PaperExecutionRequest) :
    List OrderEvent → OrderEvent → List Fill → ReservationChange → Prop where
  | rejected {reason : String} {event : OrderEvent} {change : ReservationChange}
      (refused : ¬ AvoidsRejection policy request)
      (appended : appendOrderEvent request.command.intent none .rejected 0
        request.command.issuedAt reason = .success event)
      (released : releaseRemaining request.reservation event.occurredAt (reason ++ "_released") =
        .success change) :
      Exit policy request [event] event [] change
  | pending {events : List OrderEvent} {latest : OrderEvent}
      (supported : AvoidsRejection policy request) (untradable : nextPrice request policy = none)
      (opened : openedEvents request = .success (events, latest)) :
      Exit policy request events latest request.priorFills ⟨[], request.reservation, 0, 0⟩
  | expired {events : List OrderEvent} {latest event : OrderEvent} {change : ReservationChange}
      (supported : AvoidsRejection policy request) (untradable : nextPrice request policy = none)
      (opened : openedEvents request = .success (events, latest))
      (appended : appendOrderEvent request.command.intent latest .expired
        latest.cumulativeFilledQuantity request.command.intent.validUntil
        "order_validity_expired" = .success event)
      (released : releaseRemaining request.reservation request.command.intent.validUntil
        "expired_order_released" = .success change) :
      Exit policy request (events ++ [event]) event request.priorFills change
  | filled {events : List OrderEvent} {latest event : OrderEvent} {fill : Fill}
      {change : ReservationChange} {bar : ExecutionBar} {price quantity : Decimal}
      (opened : openedEvents request = .success (events, latest))
      (step : FillStep policy request latest event fill change bar price quantity)
      (kept : ¬ (request.command.intent.timeInForce = .ioc ∧ event.toStatus = .partiallyFilled)) :
      Exit policy request (events ++ [event]) event
        (sorted (·.fillId) (request.priorFills ++ [fill])) change
  | cancelled {events : List OrderEvent} {latest event cancelled : OrderEvent} {fill : Fill}
      {change released : ReservationChange} {bar : ExecutionBar} {price quantity : Decimal}
      (opened : openedEvents request = .success (events, latest))
      (step : FillStep policy request latest event fill change bar price quantity)
      (immediate : request.command.intent.timeInForce = .ioc)
      (incomplete : event.toStatus = .partiallyFilled)
      (appended : appendOrderEvent request.command.intent event .cancelled
        event.cumulativeFilledQuantity event.occurredAt "ioc_remainder_cancelled" =
        .success cancelled)
      (surplus : releaseSurplus change event.occurredAt True "ioc_remainder_released" =
        .success released) :
      Exit policy request (events ++ [event] ++ [cancelled]) cancelled
        (sorted (·.fillId) (request.priorFills ++ [fill])) released

variable {policy : PaperExecutionPolicy} {request : PaperExecutionRequest}
  {events : List OrderEvent} {latest : OrderEvent} {o : PaperExecutionOutcome}

/-- A successful execution leaves through one of the exits and reports what that exit says. -/
def LeavesThroughExit (policy : PaperExecutionPolicy) (request : PaperExecutionRequest)
    (o : PaperExecutionOutcome) : Prop :=
  ∃ events latest fills change, Exit policy request events latest fills change ∧
    outcome request policy events latest fills change = .success o

theorem terminalWithoutFill_exit {reason : String} (hrefused : ¬ AvoidsRejection policy request)
    (h : terminalWithoutFill request policy .rejected reason request.command.issuedAt =
      .success o) : LeavesThroughExit policy request o := by
  obtain ⟨event, happend, h⟩ := Attempt.bind_eq_success.mp h
  obtain ⟨change, hrelease, h⟩ := Attempt.bind_eq_success.mp h
  exact ⟨_, _, _, _, .rejected hrefused happend hrelease, h⟩

theorem pendingOrExpired_exit (hsupported : AvoidsRejection policy request)
    (huntradable : nextPrice request policy = none)
    (hopened : openedEvents request = .success (events, latest))
    (h : pendingOrExpired request policy events latest = .success o) :
    LeavesThroughExit policy request o := by
  simp only [pendingOrExpired] at h
  split at h
  · exact ⟨_, _, _, _, .pending hsupported huntradable hopened, h⟩
  · obtain ⟨event, happend, h⟩ := Attempt.bind_eq_success.mp h
    obtain ⟨change, hrelease, h⟩ := Attempt.bind_eq_success.mp h
    exact ⟨_, _, _, _, .expired hsupported huntradable hopened happend hrelease, h⟩

theorem filledOutcome_exit {bar : ExecutionBar} {price quantity : Decimal}
    (hsupported : AvoidsRejection policy request)
    (hopened : openedEvents request = .success (events, latest))
    (htradable : nextPrice request policy = some (bar, price))
    (hsized : fillQuantity request bar price policy = .success quantity) (hpos : 0 < quantity)
    (h : filledOutcome request policy events latest bar price quantity = .success o) :
    LeavesThroughExit policy request o := by
  obtain ⟨event, happend, h⟩ := Attempt.bind_eq_success.mp h
  obtain ⟨fill, hfill, h⟩ := Attempt.bind_eq_success.mp h
  obtain ⟨change, hchange, h⟩ := Attempt.bind_eq_success.mp h
  have hstatus : event.toStatus =
      fillStatus request.command.intent (kept (latest.cumulativeFilledQuantity + quantity)) :=
    appendOrderEvent_toStatus happend
  have step : FillStep policy request latest event fill change bar price quantity :=
    ⟨hsupported, htradable, hsized, hpos, happend, hfill, by simpa only [hstatus] using hchange⟩
  simp only [settleRemainder] at h
  split at h
  · rename_i hioc
    obtain ⟨cancelled, hcancel, h⟩ := Attempt.bind_eq_success.mp h
    obtain ⟨released, hrelease, h⟩ := Attempt.bind_eq_success.mp h
    exact ⟨_, _, _, _, .cancelled hopened step hioc.1 hioc.2 hcancel hrelease, h⟩
  · rename_i hkept
    exact ⟨_, _, _, _, .filled hopened step hkept, h⟩

theorem executeSupported_exit
    (htype : request.command.intent.orderType ∈ policy.supportedOrderTypes)
    (htime : request.command.intent.timeInForce ∈ policy.supportedTimeInForce)
    (h : executeSupported request policy = .success o) : LeavesThroughExit policy request o := by
  obtain ⟨⟨events, latest⟩, hopened, h⟩ := Attempt.bind_eq_success.mp h
  cases htradable : nextPrice request policy with
  | none =>
      simp only [htradable] at h
      exact pendingOrExpired_exit ⟨htype, htime, by simp [htradable]⟩ htradable hopened h
  | some found =>
      obtain ⟨bar, price⟩ := found
      simp only [htradable] at h
      obtain ⟨quantity, hsized, h⟩ := Attempt.bind_eq_success.mp h
      split at h
      · rename_i hnonpos
        exact terminalWithoutFill_exit
          (fun ha => absurd (ha.fillable bar price htradable quantity hsized)
            (not_lt.mpr hnonpos)) h
      · rename_i hpos
        have hsupported : AvoidsRejection policy request :=
          ⟨htype, htime, by simp [htradable, hsized, not_le.mp hpos]⟩
        exact filledOutcome_exit hsupported hopened htradable hsized (not_le.mp hpos) h

theorem execute_exit (h : execute policy request = .success o) :
    requestError request policy = .success () ∧ LeavesThroughExit policy request o := by
  obtain ⟨_, hrequest, h⟩ := Attempt.bind_eq_success.mp h
  refine ⟨hrequest, ?_⟩
  split at h
  · rename_i htype
    exact terminalWithoutFill_exit (fun ha => htype ha.order_type) h
  · rename_i htype
    split at h
    · rename_i htime
      exact terminalWithoutFill_exit (fun ha => htime ha.time_in_force) h
    · rename_i htime
      exact executeSupported_exit (not_not.mp htype) (not_not.mp htime) h

/-! ## What the exit's outcome shows -/

theorem outcome_eq_success {fills : List Fill} {change : ReservationChange}
    (h : outcome request policy events latest fills change = .success o) :
    o.Valid ∧ o.receipt.Valid ∧ o.orderEvents = events ∧ o.receipt.event = latest ∧
      o.receipt.fills = fills ∧ o.reservationMutations = change.mutations ∧
      o.finalReservation = change.final ∧ o.reservationConsumed = change.consumed ∧
      o.reservationReleased = change.released := by
  obtain ⟨receipt, hreceipt, h⟩ := Attempt.bind_eq_success.mp h
  obtain ⟨hvalid, rfl⟩ := modelValidate_eq_success.mp h
  obtain ⟨hreceiptValid, rfl⟩ := modelValidate_eq_success.mp hreceipt
  exact ⟨PaperExecutionOutcome.validate_iff.mp hvalid,
    ExecutionReceipt.validate_iff.mp hreceiptValid, rfl, rfl, rfl, rfl, rfl, rfl, rfl⟩

theorem outcome_quantity {fills : List Fill} {change : ReservationChange}
    (h : outcome request policy events latest fills change = .success o) :
    o.receipt.commandQuantity = request.command.intent.quantity ∧
      o.receipt.quantityQuantum = request.command.intent.quantityQuantum := by
  obtain ⟨receipt, hreceipt, h⟩ := Attempt.bind_eq_success.mp h
  obtain ⟨-, rfl⟩ := modelValidate_eq_success.mp h
  obtain ⟨-, rfl⟩ := modelValidate_eq_success.mp hreceipt
  exact ⟨rfl, rfl⟩

theorem fill_eq_success {bar : ExecutionBar} {quantity price fee : Decimal} {sequence : ℕ}
    {f : Fill} : StonksPaper.fill request policy bar quantity price fee sequence = .success f ↔
      f = paperFill request policy bar quantity price fee sequence ∧ f.Valid ∧ f.InBounds := by
  simp only [StonksPaper.fill, Attempt.bind_eq_success, modelValidate_eq_success,
    raiseUnless_eq_success, Fill.validate_iff]
  constructor
  · rintro ⟨built, ⟨hvalid, rfl⟩, _, hbounds, h⟩
    cases h
    exact ⟨rfl, hvalid, hbounds⟩
  · rintro ⟨rfl, hvalid, hbounds⟩
    exact ⟨_, ⟨hvalid, rfl⟩, (), hbounds, rfl⟩

/-- The new fill is the only one that an exit reports besides the prior ones. -/
theorem Exit.fills_valid {fills : List Fill} {change : ReservationChange} (hr : request.Valid)
    (h : Exit policy request events latest fills change) : ∀ f ∈ fills, f.Valid := by
  have hsorted {fill : Fill} (hfill : fill.Valid) :
      ∀ f ∈ sorted (·.fillId) (request.priorFills ++ [fill]), f.Valid := by
    intro f hf
    rcases List.mem_append.mp ((sorted_perm _ _).mem_iff.mp hf) with hprior | hnew
    · exact hr.prior_fills f hprior
    · rwa [List.mem_singleton.mp hnew]
  cases h with
  | rejected refused appended released => simp
  | pending supported untradable opened => exact hr.prior_fills
  | expired supported untradable opened appended released => exact hr.prior_fills
  | filled opened step kept => exact hsorted (fill_eq_success.mp step.built).2.1
  | cancelled opened step immediate incomplete appended surplus =>
      exact hsorted (fill_eq_success.mp step.built).2.1

end StonksPaper
