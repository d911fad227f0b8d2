import StonksPaper.Broker.Accounting
import StonksPaper.Runs.Orders

/-!
# Stored records

An outcome of the broker passes the validators of all its parts, so the record that stores it is
read back as it was written. Every stored fill is on the record of its order, and an order without
a record has no fill and no event but a cancellation.
-/

namespace StonksPaper

open Chain
open scoped ExactArithmetic

section

variable [Hashing]

/-! ## The parts of an outcome -/

theorem mutate_validateParts {r : AccountReservation} {eventType : ReservationEventType}
    {state : ReservationState} {amount remaining : Decimal} {at_ : UTCDateTime} {reason : String}
    {m : ReservationMutation}
    (h : mutate r eventType state amount remaining at_ reason = .success m) :
    m.validateParts = .success () := by
  simp only [mutate, Attempt.bind_eq_success, exceptValueError_eq_success,
    modelValidate_eq_success] at h
  obtain ⟨_, hevent, _, hreservation, hmutation, rfl⟩ := h
  simp only [ReservationMutation.validateParts, Attempt.bind_eq_success]
  exact ⟨(), hreservation, (), hevent, hmutation⟩

theorem consume_validateParts {r : AccountReservation} {amount : Decimal} {at_ : UTCDateTime}
    {m : ReservationMutation} (h : consumeReservation r amount at_ = .success m) :
    m.validateParts = .success () := by
  simp only [consumeReservation, Attempt.bind_eq_success] at h
  obtain ⟨_, -, _, -, _, -, h⟩ := h
  exact mutate_validateParts h

theorem release_validateParts {r : AccountReservation} {at_ : UTCDateTime} {reason : String}
    {m : ReservationMutation} (h : releaseReservation r at_ reason = .success m) :
    m.validateParts = .success () := by
  simp only [releaseReservation, Attempt.bind_eq_success] at h
  obtain ⟨_, -, _, -, h⟩ := h
  exact mutate_validateParts h

theorem expire_validateParts {r : AccountReservation} {at_ : UTCDateTime} {m : ReservationMutation}
    (h : expireReservation r at_ = .success m) : m.validateParts = .success () := by
  simp only [expireReservation, Attempt.bind_eq_success] at h
  obtain ⟨_, -, _, -, h⟩ := h
  exact mutate_validateParts h

def ReservationChange.PartsValid (change : ReservationChange) : Prop :=
  ∀ m ∈ change.mutations, m.validateParts = .success ()

variable {r : AccountReservation} {change change' : ReservationChange} {at_ : UTCDateTime}
  {reason : String}

theorem releaseRemaining_partsValid (h : releaseRemaining r at_ reason = .success change) :
    change.PartsValid := by
  obtain ⟨m, hm, h⟩ := Attempt.bind_eq_success.mp h
  cases h
  rw [orRaise_eq_success] at hm
  intro m' hm'
  rw [List.mem_singleton.mp hm']
  split at hm
  · exact expire_validateParts hm
  · exact release_validateParts hm

theorem releaseSurplus_partsValid {terminal : Prop} [Decidable terminal] (hc : change.PartsValid)
    (h : releaseSurplus change at_ terminal reason = .success change') : change'.PartsValid := by
  unfold releaseSurplus at h
  split at h
  · obtain ⟨extra, hextra, h⟩ := Attempt.bind_eq_success.mp h
    cases h
    exact List.forall_mem_append.mpr ⟨hc, releaseRemaining_partsValid hextra⟩
  · cases h
    exact hc

theorem reservationAfterFill_partsValid {quantity price fee : Decimal} {terminal : Prop}
    [Decidable terminal]
    (h : reservationAfterFill r quantity price fee at_ terminal = .success change) :
    change.PartsValid := by
  obtain ⟨m, hm, h⟩ := Attempt.bind_eq_success.mp h
  rw [orRaise_eq_success] at hm
  refine releaseSurplus_partsValid ?_ h
  intro m' hm'
  rw [List.mem_singleton.mp hm']
  exact consume_validateParts hm

theorem appendOrderEvent_validate {intent : OrderIntent} {previous : Option OrderEvent}
    {target : OrderStatus} {cumulative : Decimal} {reason : Option String} {e : OrderEvent}
    (h : appendOrderEvent intent previous target cumulative at_ reason = .success e) :
    e.validate = .success () := by
  obtain ⟨haccepted, rfl⟩ := appendOrderEvent_eq_success.mp h
  exact OrderEvent.validate_iff.mpr <| orderEvent_valid.mpr
    ⟨haccepted.transition, haccepted.previous_sequence, haccepted.reason_short⟩

theorem fill_validate {request : PaperExecutionRequest} {policy : PaperExecutionPolicy}
    {bar : ExecutionBar} {quantity price fee : Decimal} {sequence : ℕ} {f : Fill}
    (h : fill request policy bar quantity price fee sequence = .success f) :
    f.validate = .success () := by
  obtain ⟨rfl, hvalid, -⟩ := fill_eq_success.mp h
  exact Fill.validate_iff.mpr hvalid

variable {policy : PaperExecutionPolicy} {request : PaperExecutionRequest}
  {events : List OrderEvent} {latest : OrderEvent} {fills : List Fill}

theorem openedEvents_validate (hprior : ∀ e ∈ request.priorEvents, e.validate = .success ())
    (h : openedEvents request = .success (events, latest)) :
    (∀ e ∈ events, e.validate = .success ()) ∧ latest ∈ events := by
  unfold openedEvents at h
  cases hlast : request.priorEvents.getLast? with
  | some last =>
      simp only [hlast] at h
      cases h
      exact ⟨hprior, List.mem_of_getLast? hlast⟩
  | none =>
      simp only [hlast] at h
      obtain ⟨accepted, happend, h⟩ := Attempt.bind_eq_success.mp h
      cases h
      refine ⟨fun e he => ?_, List.mem_singleton_self _⟩
      rw [List.mem_singleton.mp he]
      exact appendOrderEvent_validate happend

/-- The parts of an exit pass their validators, as the parts of the request do. -/
structure ExitParts (events : List OrderEvent) (latest : OrderEvent) (fills : List Fill)
    (change : ReservationChange) : Prop where
  events_valid : ∀ e ∈ events, e.validate = .success ()
  latest_mem : latest ∈ events
  fills_valid : ∀ f ∈ fills, f.validate = .success ()
  mutations_valid : change.PartsValid
  final_valid : change.final.Valid

theorem Exit.parts (hreservation : request.reservation.Valid)
    (hevents : ∀ e ∈ request.priorEvents, e.validate = .success ())
    (hfills : ∀ f ∈ request.priorFills, f.validate = .success ())
    (h : Exit policy request events latest fills change) :
    ExitParts events latest fills change := by
  have hsorted {fill : Fill} (hfill : fill.validate = .success ()) :
      ∀ f ∈ sorted (·.fillId) (request.priorFills ++ [fill]), f.validate = .success () := by
    intro f hf
    rcases List.mem_append.mp (mem_sorted.mp hf) with hf | hf
    · exact hfills f hf
    · rw [List.mem_singleton.mp hf]
      exact hfill
  have happended {events : List OrderEvent} {event : OrderEvent}
      (hevents : ∀ e ∈ events, e.validate = .success ()) (hevent : event.validate = .success ()) :
      ∀ e ∈ events ++ [event], e.validate = .success () :=
    List.forall_mem_append.mpr ⟨hevents, by simpa using hevent⟩
  cases h with
  | rejected refused appended released =>
      exact
        { events_valid := by simpa using appendOrderEvent_validate appended
          latest_mem := List.mem_singleton_self _
          fills_valid := by simp
          mutations_valid := releaseRemaining_partsValid released
          final_valid := (releaseRemaining_accounts hreservation released).1.valid }
  | pending supported untradable opened =>
      obtain ⟨hopened, hlatest⟩ := openedEvents_validate hevents opened
      exact
        { events_valid := hopened
          latest_mem := hlatest
          fills_valid := hfills
          mutations_valid := fun m hm => by cases hm
          final_valid := hreservation }
  | expired supported untradable opened appended released =>
      obtain ⟨hopened, -⟩ := openedEvents_validate hevents opened
      exact
        { events_valid := happended hopened (appendOrderEvent_validate appended)
          latest_mem := by simp
          fills_valid := hfills
          mutations_valid := releaseRemaining_partsValid released
          final_valid := (releaseRemaining_accounts hreservation released).1.valid }
  | filled opened step kept =>
      obtain ⟨hopened, -⟩ := openedEvents_validate hevents opened
      exact
        { events_valid := happended hopened (appendOrderEvent_validate step.appended)
          latest_mem := by simp
          fills_valid := hsorted (fill_validate step.built)
          mutations_valid := reservationAfterFill_partsValid step.held
          final_valid := (reservationAfterFill_accounts hreservation (Context.fits_exact)
            step.held).1.valid }
  | cancelled opened step immediate incomplete appended surplus =>
      obtain ⟨hopened, -⟩ := openedEvents_validate hevents opened
      have haccounts := (reservationAfterFill_accounts hreservation (Context.fits_exact)
          step.held).1
      exact
        { events_valid := happended (happended hopened (appendOrderEvent_validate step.appended))
            (appendOrderEvent_validate appended)
          latest_mem := by simp
          fills_valid := hsorted (fill_validate step.built)
          mutations_valid := releaseSurplus_partsValid (reservationAfterFill_partsValid step.held)
            surplus
          final_valid := (releaseSurplus_accounts haccounts surplus).1.valid }

/-- An outcome of the broker passes the validators of its parts. -/
theorem execute_validateParts {o : PaperExecutionOutcome}
    (hreservation : request.reservation.validate = .success ())
    (hevents : ∀ e ∈ request.priorEvents, e.validate = .success ())
    (hfills : ∀ f ∈ request.priorFills, f.validate = .success ())
    (h : execute policy request = .success o) : o.validateParts = .success () := by
  obtain ⟨-, events, latest, fills, change, hexit, ho⟩ := execute_exit h
  have hparts := hexit.parts (AccountReservation.validate_iff.mp hreservation) hevents hfills
  obtain ⟨hvalid, hreceipt, hoevents, holatest, hofills, homutations, hofinal, -, -⟩ :=
    outcome_eq_success ho
  simp only [PaperExecutionOutcome.validateParts, Attempt.bind_eq_success, Attempt.forM_eq_success,
    hoevents, holatest, hofills, homutations, hofinal]
  exact ⟨(), hparts.events_valid latest hparts.latest_mem, (), hparts.fills_valid, (),
    ExecutionReceipt.validate_iff.mpr hreceipt, (), hparts.events_valid, (),
      hparts.mutations_valid, (),
    AccountReservation.validate_iff.mpr hparts.final_valid, PaperExecutionOutcome.validate_iff.mpr
      hvalid⟩

/-! ## Records -/

theorem ExecutionPersisted.readable {s s' : Store} {command : ExecutionCommand}
    {outcome : PaperExecutionOutcome} {held : AccountReservation}
    (hpermitted : BrokerOutcome s command outcome)
    (h : ExecutionPersisted s command outcome held s') :
    recordFromRow (executionRecord command outcome) =
      .success (executionRecord command outcome) := by
  obtain ⟨policy, request, -, hrehydrated, hexecute⟩ := hpermitted
  have hparts := execute_validateParts hrehydrated.reservation_valid hrehydrated.events_valid
    hrehydrated.fills_valid hexecute
  simp only [recordFromRow, integrityChecked_eq_success, Attempt.bind_eq_success,
    modelValidate_eq_success]
  exact ⟨(), hparts, h.record_valid, trivial⟩

/-! ## Fills and their records -/

/-- A fill that the broker reports is one of the request's, or a new one of the same order. -/
theorem execute_fills {o : PaperExecutionOutcome} (h : execute policy request = .success o) :
    ∀ f ∈ o.receipt.fills, f ∈ request.priorFills ∨
      f.orderIntentId = request.command.intent.intentId ∧
        f.accountId = request.command.intent.accountId := by
  obtain ⟨-, events, latest, fills, change, hexit, ho⟩ := execute_exit h
  rw [(outcome_eq_success ho).2.2.2.2.1]
  have hsorted {bar : ExecutionBar} {quantity price fee : Decimal} {sequence : ℕ} {new : Fill}
      (hnew : fill request policy bar quantity price fee sequence = .success new) :
      ∀ f ∈ sorted (·.fillId) (request.priorFills ++ [new]), f ∈ request.priorFills ∨
        f.orderIntentId = request.command.intent.intentId ∧
          f.accountId = request.command.intent.accountId := by
    intro f hf
    rcases List.mem_append.mp (mem_sorted.mp hf) with hf | hf
    · exact .inl hf
    · obtain ⟨rfl, -, -⟩ := fill_eq_success.mp hnew
      rw [List.mem_singleton.mp hf]
      exact .inr ⟨rfl, rfl⟩
  cases hexit with
  | rejected => simp
  | pending => exact fun f hf => .inl hf
  | expired => exact fun f hf => .inl hf
  | filled _ step _ => exact hsorted step.built
  | cancelled _ step _ _ _ _ => exact hsorted step.built

variable {s s' : Store}

omit [Hashing] in
theorem mem_fillsOf {intentId : UUID} {f : Fill} :
    f ∈ s.fillsOf intentId ↔ f ∈ s.fills ∧ f.orderIntentId = intentId := by
  simp [Store.fillsOf]

/-- The fill's order is stored, with a record that the fill is on. -/
def FillRecorded (s : Store) (f : Fill) : Prop :=
  ∃ i ∈ s.intents, ∃ r ∈ s.receipts, i.intentId = f.orderIntentId ∧ i.accountId = f.accountId ∧
    r.accountId = i.accountId ∧ r.idempotencyKey = i.idempotencyKey ∧ f ∈ r.outcome.receipt.fills

/-- What the table of records keeps. -/
structure RecordsKept (s : Store) : Prop where
  readable : ∀ r ∈ s.receipts, recordFromRow r = .success r
  fills_stored : ∀ r ∈ s.receipts, ∀ f ∈ r.outcome.receipt.fills,
    f ∈ s.fills ∧ f.accountId = r.accountId
  recorded : ∀ f ∈ s.fills, FillRecorded s f

theorem recordsKept_migrated {at_ : UTCDateTime} : RecordsKept (Store.migrated at_) := by
  constructor
  · intro r hr
    cases hr
  · intro r hr
    cases hr
  · intro f hf
    cases hf

omit [Hashing] in
theorem FillRecorded.mono {f : Fill} (h : FillRecorded s f) (hintents : s.intents ⊆ s'.intents)
    (hreceipts : s.receipts ⊆ s'.receipts) : FillRecorded s' f := by
  obtain ⟨i, hi, r, hr, hbound⟩ := h
  exact ⟨i, hintents hi, r, hreceipts hr, hbound⟩

theorem RecordsKept.of_eq (hk : RecordsKept s) (hreceipts : s'.receipts = s.receipts)
    (hfills : s'.fills = s.fills) (hintents : s.intents ⊆ s'.intents) : RecordsKept s' := by
  constructor
  · rw [hreceipts]
    exact hk.readable
  · rw [hreceipts, hfills]
    exact hk.fills_stored
  · rw [hfills]
    exact fun f hf => (hk.recorded f hf).mono hintents
      (hreceipts ▸ List.Subset.refl _)

theorem ExecutionPersisted.stored {command : ExecutionCommand} {outcome : PaperExecutionOutcome}
    {held : AccountReservation} (h : ExecutionPersisted s command outcome held s') :
    s'.fills = s.fills ++
        outcome.receipt.fills.drop (s.fillsOf command.intent.intentId).length ∧
      s'.journal = s.journal ∧ s'.openings = s.openings := by
  rw [h.state]
  exact ⟨rfl, rfl, rfl⟩

theorem ExecutionPersisted.fills_stored {command : ExecutionCommand}
    {outcome : PaperExecutionOutcome} {held : AccountReservation}
    (h : ExecutionPersisted s command outcome held s') :
    ∀ f ∈ outcome.receipt.fills, f ∈ s'.fills := by
  intro f hf
  rw [h.stored.1]
  obtain ⟨new, hnew⟩ := h.fills_kept
  rw [← hnew, List.mem_append] at hf
  rw [← hnew, List.drop_left, List.mem_append]
  exact hf.imp (fun hold => (mem_fillsOf.mp hold).1) id

/-- The fills of a persisted outcome are its order's, also those that were there before. -/
theorem RecordsKept.fills_own {command : ExecutionCommand} {outcome : PaperExecutionOutcome}
    {held : AccountReservation} (permitted : BrokerOutcome s command outcome)
    (persisted : ExecutionPersisted s command outcome held s') (horders : OrdersKept s)
    (hk : RecordsKept s) {f : Fill} (hf : f ∈ outcome.receipt.fills) :
    f.orderIntentId = command.intent.intentId ∧ f.accountId = command.intent.accountId := by
  obtain ⟨policy, request, rfl, hrehydrated, hexecute⟩ := permitted
  rcases execute_fills hexecute f hf with hprior | hown
  · rw [hrehydrated.fills] at hprior
    obtain ⟨hfill, horder⟩ := mem_fillsOf.mp hprior
    obtain ⟨i, hi, _, _, hid, haccount, -⟩ := hk.recorded f hfill
    have hsame : i = request.command.intent :=
      horders.intents_unique.eq hi (Table.mem_of_get persisted.order) (hid.trans horder)
    exact ⟨horder, hsame ▸ haccount.symm⟩
  · exact hown

theorem RecordsKept.executed {command : ExecutionCommand} {outcome : PaperExecutionOutcome}
    {held : AccountReservation} (permitted : BrokerOutcome s command outcome)
    (persisted : ExecutionPersisted s command outcome held s') (horders : OrdersKept s)
    (hk : RecordsKept s) : RecordsKept s' := by
  obtain ⟨hintents, -, hreceipts⟩ := persisted.orders
  have hsub : s.receipts ⊆ s'.receipts := hreceipts ▸ List.subset_append_left _ _
  have hfills : s.fills ⊆ s'.fills := persisted.stored.1 ▸ List.subset_append_left _ _
  constructor
  · rw [hreceipts]
    exact List.forall_mem_append.mpr
      ⟨hk.readable, by simpa using persisted.readable permitted⟩
  · rw [hreceipts]
    refine List.forall_mem_append.mpr ⟨fun r hr f hf => ?_, fun r hr f hf => ?_⟩
    · exact (hk.fills_stored r hr f hf).imp_left fun hstored => hfills hstored
    · rw [List.mem_singleton.mp hr] at hf ⊢
      exact ⟨persisted.fills_stored f hf, (hk.fills_own permitted persisted horders hf).2⟩
  · intro f hf
    rw [persisted.stored.1] at hf
    rcases List.mem_append.mp hf with hold | hnew
    · exact (hk.recorded f hold).mono (hintents ▸ List.Subset.refl _) hsub
    · have hon := List.mem_of_mem_drop hnew
      obtain ⟨horder, haccount⟩ := hk.fills_own permitted persisted horders hon
      exact ⟨command.intent, hintents ▸ Table.mem_of_get persisted.order,
        executionRecord command outcome, by simp [hreceipts], horder.symm, haccount.symm, rfl, rfl,
        hon⟩

/-- Every change keeps the records, as long as only outcomes of the broker are persisted. -/
theorem RecordsKept.effect (h : Effect BrokerOutcome s s') (horders : OrdersKept s)
    (hk : RecordsKept s) : RecordsKept s' := by
  cases h with
  | registered => exact hk.of_eq rfl rfl (List.Subset.refl _)
  | targeted => exact hk.of_eq rfl rfl (List.Subset.refl _)
  | decided => exact hk.of_eq rfl rfl (List.Subset.refl _)
  | batch created =>
      obtain ⟨hintents, -, hreceipts, hfills, -⟩ := created.intents
      exact hk.of_eq hreceipts hfills (hintents ▸ List.subset_append_left _ _)
  | executed permitted persisted => exact hk.executed permitted persisted horders
  | posted _ posted =>
      obtain ⟨hintents, -, hreceipts⟩ := posted.orders
      exact hk.of_eq hreceipts (by rw [posted.state]; rfl) (hintents ▸ List.Subset.refl _)
  | cancelled _ cancelled =>
      obtain ⟨hintents, -, hreceipts⟩ := cancelled.orders
      exact hk.of_eq hreceipts (by rw [cancelled.state]; rfl) (hintents ▸ List.Subset.refl _)
  | operated operated =>
      obtain ⟨hintents, -, hreceipts⟩ := operated.same.orders
      exact hk.of_eq hreceipts (by rw [operated.same]) (hintents ▸ List.Subset.refl _)

/-! ## Orders without a record -/

/-- What the tables of orders and records keep together. -/
structure ExecutionsKept (s : Store) : Prop where
  orders : OrdersKept s
  receipted : Receipted s
  records : RecordsKept s

theorem ExecutionsKept.effect (h : Effect BrokerOutcome s s') (hk : ExecutionsKept s) :
    ExecutionsKept s' :=
  ⟨hk.orders.effect h, hk.receipted.effect h hk.orders, hk.records.effect h hk.orders⟩

theorem executionsKept_migrated {at_ : UTCDateTime} : ExecutionsKept (Store.migrated at_) :=
  ⟨ordersKept_migrated, fun _ hi => absurd hi List.not_mem_nil, recordsKept_migrated⟩

theorem executionsKept_reached {at_ : UTCDateTime} {ops : List Timed}
    (hcalls : ∀ op ∈ ops, op.1.IsCall) : ExecutionsKept (World.reached at_ ops).store :=
  World.invariant_calls at_ ops hcalls executionsKept_migrated fun _ _ h hk => hk.effect h

theorem ExecutionsKept.fillsOf_eq_nil {command : ExecutionCommand}
    {outcome : PaperExecutionOutcome} {held : AccountReservation} (hk : ExecutionsKept s)
    (h : ExecutionPersisted s command outcome held s') :
    s.fillsOf command.intent.intentId = [] := by
  refine List.eq_nil_iff_forall_not_mem.mpr fun f hf => ?_
  obtain ⟨hfill, horder⟩ := mem_fillsOf.mp hf
  obtain ⟨i, hi, r, hr, hid, -, haccount, hkey, -⟩ := hk.records.recorded f hfill
  have hsame : i = command.intent :=
    hk.orders.intents_unique.eq hi (Table.mem_of_get h.order) (hid.trans horder)
  rw [hsame] at haccount hkey
  exact h.receipt_fresh r hr (Prod.ext haccount hkey)

/-- And it has no event yet. -/
theorem ExecutionsKept.eventsOf_eq_nil {command : ExecutionCommand}
    {outcome : PaperExecutionOutcome} {held : AccountReservation} (hk : ExecutionsKept s)
    (permitted : BrokerOutcome s command outcome)
    (h : ExecutionPersisted s command outcome held s') :
    s.orderEventsOf command.intent.intentId = [] := by
  obtain ⟨policy, request, rfl, hrehydrated, -⟩ := permitted
  cases hlast : (s.orderEventsOf request.command.intent.intentId).getLast? with
  | none => exact List.getLast?_eq_none_iff.mp hlast
  | some last =>
      exfalso
      have hvalid := hrehydrated.valid
      simp only [PaperExecutionRequest.validate, Attempt.bind_eq_success, maxLength_eq_success,
        raiseUnless_eq_success] at hvalid
      obtain ⟨_, -, _, -, _, -, _, -, _, -, _, -, _, hlive, -⟩ := hvalid
      rw [hrehydrated.events] at hlive
      obtain ⟨r, hr, haccount, hkey⟩ := hk.receipted request.command.intent
        (Table.mem_of_get h.order) ⟨last, hlast, hlive last hlast⟩
      exact h.receipt_fresh r hr (Prod.ext haccount hkey)

end

end StonksPaper
