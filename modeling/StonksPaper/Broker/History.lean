import StonksPaper.Broker.Sizing
import StonksPaper.Broker.Exits

/-!
# The order history that an outcome reports

An order's events form one chain from its creation on: sequences and hashes link up, statuses
follow the transition table, and the filled quantity never falls. Every exit but a rejection
continues the chain that the request carries; a rejection starts a new one.
-/

namespace StonksPaper

open Chain

def OrderEvent.progress (e : OrderEvent) : OrderStatus × Decimal :=
  (e.toStatus, e.cumulativeFilledQuantity)

/-- The event may follow the status and the filled quantity before it. -/
def OrderEvent.Follows (before : OrderStatus × Decimal) (e : OrderEvent) : Prop :=
  e.fromStatus = before.1 ∧ e.toStatus ∈ before.1.transitions ∧
    before.2 ≤ e.cumulativeFilledQuantity

/-- The events are a whole order history from its creation. -/
structure History (events : List OrderEvent) : Prop where
  linked : Linked OrderEvent.link 0 none events
  progress : Traces OrderEvent.Follows OrderEvent.progress (.created, 0) events

section

variable [Arithmetic] [Hashing]

theorem History.genesis {intent : OrderIntent} {target : OrderStatus} {cumulative : Decimal}
    {at_ : UTCDateTime} {reason : Option String} {e : OrderEvent}
    (h : appendOrderEvent intent none target cumulative at_ reason = .success e) :
    History [e] := by
  obtain ⟨haccepted, rfl⟩ := appendOrderEvent_eq_success.mp h
  exact ⟨⟨rfl, rfl, trivial⟩, ⟨rfl, haccepted.transition, haccepted.nonneg⟩, trivial⟩

theorem History.append {events : List OrderEvent} {latest : OrderEvent} {intent : OrderIntent}
    {target : OrderStatus} {cumulative : Decimal} {at_ : UTCDateTime} {reason : Option String}
    {e : OrderEvent} (hevents : History events) (hlast : events.getLast? = some latest)
    (h : appendOrderEvent intent latest target cumulative at_ reason = .success e) :
    History (events ++ [e]) := by
  obtain ⟨haccepted, rfl⟩ := appendOrderEvent_eq_success.mp h
  have hsequence := hevents.linked.sequence_getLast _ hlast
  constructor
  · refine (linked_concat _).mpr ⟨hevents.linked, ?_, ?_⟩
    · have hlength : latest.sequence = events.length := hsequence
      simp [OrderEvent.link, orderEvent, hlength]
    · rw [headHash_of_getLast _ _ hlast]; rfl
  · exact (traces_concat _ _ hlast).mpr ⟨hevents.progress, rfl, haccepted.transition,
      haccepted.previous_filled latest rfl⟩

omit [Arithmetic] in
/-- The walk over the prior events accepts exactly the chains. -/
theorem walkEventChain_eq_success {n : ℕ} {h : Option Sha256} {status : OrderStatus}
    {c c' : Decimal} {events : List OrderEvent} (hvalid : ∀ e ∈ events, e.Valid) :
    walkEventChain (n + 1) h status c events = .success c' ↔
      Linked OrderEvent.link n h events ∧
        Traces OrderEvent.Follows OrderEvent.progress (status, c) events ∧
        c' = (endState OrderEvent.progress (status, c) events).2 := by
  induction events generalizing n h status c with
  | nil => simp [walkEventChain, eq_comm]
  | cons e events ih =>
      have htransition := (hvalid e (List.mem_cons_self ..)).transition
      simp only [walkEventChain, Attempt.bind_eq_success, failUnless_eq_success,
        ih fun e' he' => hvalid e' (List.mem_cons_of_mem _ he'), linked_cons, traces_cons,
        endState_cons, OrderEvent.Follows]
      constructor
      · rintro ⟨_, ⟨hseq, hprevious, hstatus, hc⟩, hlinked, htraces, hend⟩
        exact ⟨⟨hseq, hprevious, hlinked⟩, ⟨⟨hstatus, hstatus ▸ htransition, hc⟩, htraces⟩, hend⟩
      · rintro ⟨⟨hseq, hprevious, hlinked⟩, ⟨⟨hstatus, -, hc⟩, htraces⟩, hend⟩
        exact ⟨(), ⟨hseq, hprevious, hstatus, hc⟩, hlinked, htraces, hend⟩

variable {policy : PaperExecutionPolicy} {request : PaperExecutionRequest}
  {events : List OrderEvent} {latest : OrderEvent} {fills : List Fill}
  {change : ReservationChange} {o : PaperExecutionOutcome}

theorem requestError_history (hr : request.Valid)
    (h : requestError request policy = .success ()) :
    History request.priorEvents ∧
      summedQuantity request.priorFills =
        (endState OrderEvent.progress (.created, 0) request.priorEvents).2 := by
  simp only [requestError, eventChainError, Attempt.bind_eq_success, failUnless_eq_success] at h
  obtain ⟨_, -, _, -, _, -, _, -, _, -, cumulative, hwalk, htotal⟩ := h
  obtain ⟨hlinked, htraces, rfl⟩ := (walkEventChain_eq_success hr.prior_events).mp hwalk
  exact ⟨⟨hlinked, htraces⟩, htotal⟩

theorem alreadyFilled_eq (hr : request.Valid) (h : requestError request policy = .success ()) :
    alreadyFilled request = summedQuantity request.priorFills := by
  rw [(requestError_history hr h).2, alreadyFilled]
  cases hlast : request.priorEvents.getLast? with
  | none => rw [List.getLast?_eq_none_iff.mp hlast]; rfl
  | some last => rw [endState_of_getLast _ _ hlast]; rfl

theorem alreadyFilled_nonneg (hr : request.Valid) (h : requestError request policy = .success ()) :
    0 ≤ alreadyFilled request := by
  rw [alreadyFilled_eq hr h]
  refine Context.le_foldl_round (fun x hx => ?_) (Context.round_zero _)
  obtain ⟨f, hf, rfl⟩ := List.mem_map.mp hx
  exact (hr.prior_fills f hf).quantity_pos.le

theorem volumeLimited_le (hr : request.Valid)
    (hfits : Arithmetic.context.Fits request.command.intent.quantityQuantum
      request.command.intent.quantity)
    (hrequest : requestError request policy = .success ()) :
    volumeLimited request bar policy ≤ request.command.intent.quantity := by
  have hi := hr.command.intent
  have hquantity : kept request.command.intent.quantity = request.command.intent.quantity :=
    hfits.round_eq hi.quantity_quantized (abs_of_pos hi.quantity_pos).le
  calc volumeLimited request bar policy
      ≤ kept (request.command.intent.quantity - alreadyFilled request) := min_le_left _ _
    _ ≤ kept request.command.intent.quantity :=
        kept_mono (sub_le_self _ (alreadyFilled_nonneg hr hrequest))
    _ = request.command.intent.quantity := hquantity

theorem openedEvents_history (hprior : History request.priorEvents)
    (h : openedEvents request = .success (events, latest)) :
    History events ∧ events.getLast? = some latest ∧ request.priorEvents <+: events := by
  unfold openedEvents at h
  cases hlast : request.priorEvents.getLast? with
  | some last =>
      simp only [hlast] at h
      cases h
      exact ⟨hprior, hlast, List.prefix_rfl⟩
  | none =>
      simp only [hlast] at h
      obtain ⟨accepted, happend, h⟩ := Attempt.bind_eq_success.mp h
      cases h
      rw [List.getLast?_eq_none_iff.mp hlast]
      exact ⟨.genesis happend, rfl, List.nil_prefix⟩

/-- Every exit of an order that is not rejected continues the request's history. -/
theorem Exit.history (hprior : History request.priorEvents)
    (hsupported : AvoidsRejection policy request)
    (h : Exit policy request events latest fills change) :
    History events ∧ request.priorEvents <+: events ∧ ∀ f ∈ request.priorFills, f ∈ fills := by
  have hsorted (fill : Fill) (f : Fill) (hf : f ∈ request.priorFills) :
      f ∈ sorted (·.fillId) (request.priorFills ++ [fill]) :=
    (sorted_perm _ _).mem_iff.mpr (List.mem_append_left _ hf)
  cases h with
  | rejected refused appended released => exact absurd hsupported refused
  | pending supported untradable opened =>
      obtain ⟨hevents, -, hpre⟩ := openedEvents_history hprior opened
      exact ⟨hevents, hpre, fun f hf => hf⟩
  | expired supported untradable opened appended released =>
      obtain ⟨hevents, hlast, hpre⟩ := openedEvents_history hprior opened
      exact ⟨hevents.append hlast appended, hpre.trans (List.prefix_append ..),
        fun f hf => hf⟩
  | filled opened step kept =>
      obtain ⟨hevents, hlast, hpre⟩ := openedEvents_history hprior opened
      exact ⟨hevents.append hlast step.appended, hpre.trans (List.prefix_append ..), hsorted _⟩
  | cancelled opened step immediate incomplete appended surplus =>
      obtain ⟨hevents, hlast, hpre⟩ := openedEvents_history hprior opened
      refine ⟨(hevents.append hlast step.appended).append (by simp) appended, ?_, hsorted _⟩
      exact (hpre.trans (List.prefix_append ..)).trans (List.prefix_append ..)

/-! ## When an outcome extends the history -/

/-- The outcome continues what the request carries. -/
structure ExtendsHistory (request : PaperExecutionRequest) (o : PaperExecutionOutcome) : Prop where
  events : request.priorEvents <+: o.orderEvents
  fills : ∀ f ∈ request.priorFills, f ∈ o.receipt.fills
  history : History o.orderEvents
  total : o.orderEvents.getLast?.map (·.cumulativeFilledQuantity) =
    some (totalQuantity o.receipt.fills)

/-- The fills of a receipt whose quantity fits add up to what is filled, in any context. -/
theorem receipt_total {r : ExecutionReceipt} (hr : r.Valid)
    (hfits : Arithmetic.context.Fits r.quantityQuantum r.commandQuantity)
    (hfills : ∀ f ∈ r.fills, f.Valid) :
    totalQuantity r.fills = r.filledQuantity ∧ r.filledQuantity ≤ r.commandQuantity := by
  have hfilled : kept r.filledQuantity = r.filledQuantity := by
    rw [← hr.fills_total]
    exact Context.round_sum _
  have hwithin : summedQuantity r.fills ≤ r.commandQuantity := by
    rw [hr.fills_total, ← hfilled, ← hr.quantities]
    exact kept_mono (le_add_of_nonneg_right hr.remaining_nonneg)
  have hquantities : ∀ x ∈ r.fills.map (·.quantity), 0 ≤ x ∧ IsQuantized x r.quantityQuantum := by
    intro x hx
    obtain ⟨f, hf, rfl⟩ := List.mem_map.mp hx
    have hquantum := (hr.fills_match f hf).2.2.2.2.2
    exact ⟨(hfills f hf).quantity_pos.le, hquantum ▸ (hfills f hf).quantity_quantized⟩
  rw [← hr.fills_total]
  exact ⟨(hfits.sum_eq hr.quantum_pos hquantities hwithin).symm, hwithin⟩

theorem outcome_total (ho : o.Valid) (hreceipt : o.receipt.Valid)
    (htotal : totalQuantity o.receipt.fills = o.receipt.filledQuantity) :
    o.orderEvents.getLast?.map (·.cumulativeFilledQuantity) =
      some (totalQuantity o.receipt.fills) := by
  rw [ho.latest, htotal, hreceipt.event_filled]
  rfl

theorem rejected_extendsHistory_iff {event : OrderEvent} (hr : request.Valid)
    (hprior : summedQuantity request.priorFills =
      (endState OrderEvent.progress (.created, 0) request.priorEvents).2)
    (hevent : History [event]) (hstatus : event.toStatus = .rejected) (ho : o.Valid)
    (hreceipt : o.receipt.Valid)
    (htotal : totalQuantity o.receipt.fills = o.receipt.filledQuantity)
    (hevents : o.orderEvents = [event]) :
    ExtendsHistory request o ↔ request.priorEvents = [] := by
  constructor
  · intro hextends
    have hpre := hevents ▸ hextends.events
    cases hlast : request.priorEvents.getLast? with
    | none => exact List.getLast?_eq_none_iff.mp hlast
    | some last =>
        -- the only prior event would have to be the rejection, which is terminal
        have hmem := hpre.subset (List.mem_of_getLast? hlast)
        rw [List.mem_singleton] at hmem
        exact absurd (hmem ▸ hstatus ▸ by decide) (hr.not_terminal last hlast)
  · intro hnil
    rw [hnil] at hprior
    have hnone := fills_eq_nil (fun f hf => (hr.prior_fills f hf).quantity_pos) hprior
    exact ⟨hnil ▸ List.nil_prefix, by simp [hnone], hevents ▸ hevent,
      outcome_total ho hreceipt htotal⟩

theorem execute_total (hr : request.Valid)
    (hfits : Arithmetic.context.Fits request.command.intent.quantityQuantum
      request.command.intent.quantity)
    (h : execute policy request = .success o) :
    totalQuantity o.receipt.fills = o.receipt.filledQuantity ∧
      o.receipt.filledQuantity ≤ request.command.intent.quantity := by
  obtain ⟨-, events, latest, fills, change, hexit, ho⟩ := execute_exit h
  obtain ⟨-, hreceipt, -, -, hfills, -⟩ := outcome_eq_success ho
  obtain ⟨hquantity, hquantum⟩ := outcome_quantity ho
  rw [← hquantity]
  exact receipt_total hreceipt (by rwa [hquantity, hquantum]) (hfills ▸ hexit.fills_valid hr)

/-- The concrete order, accepted by an earlier call, with too little held for one unit. -/
def Scenario.acceptedRequest : PaperExecutionRequest :=
  { Scenario.request {} { amount := 50 } [Scenario.bar {}] 50 with
    priorEvents := [orderEvent (Scenario.intent {} { amount := 50 }) none .accepted 0 20
      "paper_command_accepted"] }

end

section

open scoped PythonArithmetic CodeHashing

end

end StonksPaper
