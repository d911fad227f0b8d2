import StonksPaper.Broker.Exits
import StonksPaper.Effects.Step

/-!
# Orders over runs

What the tables of orders and receipts keep in every run: identities are unique, every event
belongs to a stored order, and every order whose latest event is not terminal has a receipt.
-/

namespace StonksPaper

open Chain
open scoped ExactArithmetic

/-! ## The view of one order's events -/

section view

variable {s s' : Store} {intentId : UUID}

theorem orderEventsOf_of_eq (h : s'.orderEvents = s.orderEvents) :
    s'.orderEventsOf intentId = s.orderEventsOf intentId := by
  unfold Store.orderEventsOf
  rw [h]

theorem orderEventsOf_append_other {events : List OrderEvent}
    (h : s'.orderEvents = s.orderEvents ++ events)
    (hother : ∀ e ∈ events, e.orderIntentId ≠ intentId) :
    s'.orderEventsOf intentId = s.orderEventsOf intentId := by
  have hnone : events.filter (·.orderIntentId = intentId) = [] := by
    simpa using hother
  unfold Store.orderEventsOf
  rw [h, List.filter_append, hnone, List.append_nil]

/-- An event whose sequence no earlier one exceeds comes last. -/
theorem orderEventsOf_concat {e : OrderEvent} (h : s'.orderEvents = s.orderEvents ++ [e])
    (hid : e.orderIntentId = intentId)
    (hlast : ∀ last ∈ (s.orderEventsOf intentId).getLast?, last.sequence ≤ e.sequence) :
    s'.orderEventsOf intentId = s.orderEventsOf intentId ++ [e] := by
  have hself : [e].filter (fun e => decide (e.orderIntentId = intentId)) = [e] := by simp [hid]
  unfold Store.orderEventsOf
  rw [h, List.filter_append, hself]
  refine sorted_concat fun d hd => ?_
  cases hlatest : (s.orderEventsOf intentId).getLast? with
  | none =>
      have hempty := sorted_eq_nil.mp (List.getLast?_eq_none_iff.mp hlatest)
      rw [hempty] at hd
      cases hd
  | some last => exact (le_of_getLast_sorted hlatest hd).trans (hlast last hlatest)

theorem mem_orderEventsOf {e : OrderEvent} :
    e ∈ s.orderEventsOf intentId ↔ e ∈ s.orderEvents ∧ e.orderIntentId = intentId := by
  simp [Store.orderEventsOf]

end view

section

variable [Hashing]

/-! ## The broker's events -/

theorem orderEvent_of_append {intent : OrderIntent} {previous : Option OrderEvent}
    {target : OrderStatus} {cumulative : Decimal} {at_ : UTCDateTime} {reason : Option String}
    {e : OrderEvent}
    (h : appendOrderEvent intent previous target cumulative at_ reason = .success e) :
    e.orderIntentId = intent.intentId ∧ e.sequence = previous.elim 1 (·.sequence + 1) ∧
      e.toStatus = target ∧ e.cumulativeFilledQuantity = cumulative ∧ e.occurredAt = at_ := by
  rw [(appendOrderEvent_eq_success.mp h).2]
  exact ⟨rfl, rfl, rfl, rfl, rfl⟩

theorem openedEvents_intent {request : PaperExecutionRequest} {events : List OrderEvent}
    {latest : OrderEvent}
    (hprior : ∀ e ∈ request.priorEvents, e.orderIntentId = request.command.intent.intentId)
    (h : openedEvents request = .success (events, latest)) :
    ∀ e ∈ events, e.orderIntentId = request.command.intent.intentId := by
  unfold openedEvents at h
  cases hlast : request.priorEvents.getLast? with
  | some last =>
      simp only [hlast] at h
      cases h
      exact hprior
  | none =>
      simp only [hlast] at h
      obtain ⟨accepted, happend, h⟩ := Attempt.bind_eq_success.mp h
      cases h
      simpa using (orderEvent_of_append happend).1

/-- The broker reports events of the order it was asked to execute, and of no other. -/
theorem execute_events_intent {policy : PaperExecutionPolicy} {request : PaperExecutionRequest}
    {o : PaperExecutionOutcome}
    (hprior : ∀ e ∈ request.priorEvents, e.orderIntentId = request.command.intent.intentId)
    (h : execute policy request = .success o) :
    ∀ e ∈ o.orderEvents, e.orderIntentId = request.command.intent.intentId := by
  obtain ⟨-, events, latest, fills, change, hexit, houtcome⟩ := execute_exit h
  rw [(outcome_eq_success houtcome).2.2.1]
  cases hexit with
  | rejected _ appended _ => simpa using (orderEvent_of_append appended).1
  | pending _ _ opened => exact openedEvents_intent hprior opened
  | expired _ _ opened appended _ =>
      have hopened := openedEvents_intent hprior opened
      have hevent := (orderEvent_of_append appended).1
      exact List.forall_mem_append.mpr ⟨hopened, by simpa using hevent⟩
  | filled opened step _ =>
      have hopened := openedEvents_intent hprior opened
      have hevent := (orderEvent_of_append step.appended).1
      exact List.forall_mem_append.mpr ⟨hopened, by simpa using hevent⟩
  | cancelled opened step _ _ appended _ =>
      have hopened := openedEvents_intent hprior opened
      have hevent := (orderEvent_of_append step.appended).1
      have hcancelled := (orderEvent_of_append appended).1
      exact List.forall_mem_append.mpr
        ⟨List.forall_mem_append.mpr ⟨hopened, by simpa using hevent⟩, by simpa using hcancelled⟩

theorem BrokerOutcome.events_intent {s : Store} {command : ExecutionCommand}
    {outcome : PaperExecutionOutcome} (h : BrokerOutcome s command outcome) :
    ∀ e ∈ outcome.orderEvents, e.orderIntentId = command.intent.intentId := by
  obtain ⟨policy, request, rfl, hrehydrated, hexecute⟩ := h
  have hvalid := hrehydrated.valid
  refine execute_events_intent ?_ hexecute
  simp only [PaperExecutionRequest.validate, Attempt.bind_eq_success, maxLength_eq_success,
    raiseUnless_eq_success] at hvalid
  obtain ⟨_, -, _, -, _, -, _, -, _, -, _, -, _, -, _, hevents, -⟩ := hvalid
  exact hevents

/-! ## Identities -/

/-- What the tables of orders keep. -/
structure OrdersKept (s : Store) : Prop where
  intents_unique : Table.Unique (·.intentId) s.intents
  keys_unique : Table.Unique (fun i => (i.accountId, i.idempotencyKey)) s.intents
  receipts_unique : Table.Unique (fun r => (r.accountId, r.idempotencyKey)) s.receipts
  events_stored : ∀ e ∈ s.orderEvents, ∃ i ∈ s.intents, i.intentId = e.orderIntentId

variable {s s' : Store}

omit [Hashing] in
theorem insertPair_unique {pairs : List ReservationOrderPair}
    (h : pairs.foldlM Store.insertPair s = .success s')
    (hids : Table.Unique (·.intentId) s.intents)
    (hkeys : Table.Unique (fun i => (i.accountId, i.idempotencyKey)) s.intents) :
    Table.Unique (·.intentId) s'.intents ∧
      Table.Unique (fun i => (i.accountId, i.idempotencyKey)) s'.intents := by
  refine Attempt.foldlM_invariant (I := fun s : Store => Table.Unique (·.intentId) s.intents ∧
    Table.Unique (fun i : OrderIntent => (i.accountId, i.idempotencyKey)) s.intents) ?_ h
      ⟨hids, hkeys⟩
  intro pair _ a b hinsert hunique
  obtain ⟨hadmitted, rfl⟩ := insertPair_eq_success hinsert
  exact ⟨hunique.1.concat hadmitted.intent_fresh, hunique.2.concat hadmitted.key_fresh⟩

theorem BatchCreated.intents {ordered : List ReservationOrderPair} {now : UTCDateTime}
    {row : PaperAccountRow} {event : PaperAccountEvent}
    (h : BatchCreated s ordered now row event s') :
    s'.intents = s.intents ++ ordered.map (·.2) ∧ s'.orderEvents = s.orderEvents ∧
      s'.receipts = s.receipts ∧ s'.fills = s.fills ∧ s'.journal = s.journal := by
  rw [h.state]
  exact ⟨rfl, rfl, rfl, rfl, rfl⟩

theorem ExecutionPersisted.orders {command : ExecutionCommand} {outcome : PaperExecutionOutcome}
    {held : AccountReservation} (h : ExecutionPersisted s command outcome held s') :
    s'.intents = s.intents ∧
      s'.orderEvents = s.orderEvents ++
        outcome.orderEvents.drop (s.orderEventsOf command.intent.intentId).length ∧
      s'.receipts = s.receipts ++ [executionRecord command outcome] := by
  rw [h.state]
  exact ⟨rfl, rfl, rfl⟩

theorem JournalPosted.orders {transaction : JournalTransaction} {row : PaperAccountRow}
    {before after : LedgerProjection} {event : PaperAccountEvent} {now : UTCDateTime}
    (h : JournalPosted s transaction row before after event now s') :
    s'.intents = s.intents ∧ s'.orderEvents = s.orderEvents ∧ s'.receipts = s.receipts := by
  rw [h.state]
  exact ⟨rfl, rfl, rfl⟩

theorem OrderCancelled.orders {intent : OrderIntent} {at_ : UTCDateTime}
    {before : AccountReservation} {changed : ReservationMutation} {created : OrderEvent}
    (h : OrderCancelled s intent at_ before changed created s') :
    s'.intents = s.intents ∧ s'.orderEvents = s.orderEvents ++ [created] ∧
      s'.receipts = s.receipts := by
  rw [h.state]
  exact ⟨rfl, rfl, rfl⟩

omit [Hashing] in
theorem SameTrading.orders (h : SameTrading s s') :
    s'.intents = s.intents ∧ s'.orderEvents = s.orderEvents ∧ s'.receipts = s.receipts := by
  rw [h]
  exact ⟨rfl, rfl, rfl⟩

omit [Hashing] in
theorem OrdersKept.of_eq (hk : OrdersKept s) (hintents : s'.intents = s.intents)
    (hevents : s'.orderEvents = s.orderEvents) (hreceipts : s'.receipts = s.receipts) :
    OrdersKept s' := by
  obtain ⟨h1, h2, h3, h4⟩ := hk
  constructor
  · rwa [hintents]
  · rwa [hintents]
  · rwa [hreceipts]
  · rwa [hevents, hintents]

omit [Hashing] in
theorem ordersKept_migrated {at_ : UTCDateTime} : OrdersKept (Store.migrated at_) := by
  constructor
  · exact Table.unique_nil
  · exact Table.unique_nil
  · exact Table.unique_nil
  · intro e he
    cases he

/-- Every change keeps the identities, as long as outcomes report events of their own order. -/
theorem OrdersKept.effect (h : Effect BrokerOutcome s s') (hk : OrdersKept s) : OrdersKept s' := by
  cases h with
  | registered => exact hk.of_eq rfl rfl rfl
  | targeted => exact hk.of_eq rfl rfl rfl
  | decided => exact hk.of_eq rfl rfl rfl
  | batch created =>
      obtain ⟨hintents, hevents, hreceipts, -, -⟩ := created.intents
      have hunique := insertPair_unique created.inserted hk.intents_unique hk.keys_unique
      refine ⟨hunique.1, hunique.2, hreceipts ▸ hk.receipts_unique, ?_⟩
      rw [hevents, hintents]
      intro e he
      obtain ⟨i, hi, hid⟩ := hk.events_stored e he
      exact ⟨i, List.mem_append_left _ hi, hid⟩
  | @executed command outcome held _ permitted persisted =>
      obtain ⟨hintents, hevents, hreceipts⟩ := persisted.orders
      refine ⟨hintents ▸ hk.intents_unique, hintents ▸ hk.keys_unique, ?_, ?_⟩
      · rw [hreceipts]
        exact hk.receipts_unique.concat persisted.receipt_fresh
      · rw [hintents, hevents]
        intro e he
        rcases List.mem_append.mp he with hold | hnew
        · exact hk.events_stored e hold
        · have hid := permitted.events_intent e (List.mem_of_mem_drop hnew)
          exact ⟨command.intent, Table.mem_of_get persisted.order, hid.symm⟩
  | posted _ posted =>
      obtain ⟨hintents, hevents, hreceipts⟩ := posted.orders
      exact hk.of_eq hintents hevents hreceipts
  | @cancelled intent at_ before changed created _ stored cancelled =>
      obtain ⟨hintents, hevents, hreceipts⟩ := cancelled.orders
      refine ⟨hintents ▸ hk.intents_unique, hintents ▸ hk.keys_unique,
        hreceipts ▸ hk.receipts_unique, ?_⟩
      rw [hintents, hevents]
      intro e he
      rcases List.mem_append.mp he with hold | hnew
      · exact hk.events_stored e hold
      · have hid := (orderEvent_of_append cancelled.appended).1
        rw [List.mem_singleton.mp hnew]
        exact ⟨intent, stored, hid.symm⟩
  | operated operated =>
      obtain ⟨hintents, hevents, hreceipts⟩ := operated.same.orders
      exact hk.of_eq hintents hevents hreceipts

/-! ## Orders in progress have receipts -/

def InProgress (s : Store) (intent : OrderIntent) : Prop :=
  ∃ e ∈ (s.orderEventsOf intent.intentId).getLast?, ¬ e.toStatus.Terminal

instance (s : Store) (intent : OrderIntent) : Decidable (InProgress s intent) :=
  inferInstanceAs (Decidable (∃ _ ∈ _, _))

/-- Every order in progress has a receipt under its idempotency key. -/
def Receipted (s : Store) : Prop :=
  ∀ i ∈ s.intents, InProgress s i →
    ∃ r ∈ s.receipts, r.accountId = i.accountId ∧ r.idempotencyKey = i.idempotencyKey

omit [Hashing] in
theorem Receipted.of_eq (hr : Receipted s) (hintents : s'.intents = s.intents)
    (hevents : s'.orderEvents = s.orderEvents) (hreceipts : s'.receipts = s.receipts) :
    Receipted s' := by
  intro i hi hprogress
  rw [hintents] at hi
  rw [hreceipts]
  refine hr i hi ?_
  unfold InProgress at hprogress ⊢
  rwa [orderEventsOf_of_eq hevents] at hprogress

omit [Hashing] in
theorem cancelStatus_terminal {intent : OrderIntent} {at_ : UTCDateTime} :
    (cancelStatus intent at_).Terminal := by
  unfold cancelStatus
  split <;> decide

theorem OrderCancelled.eventsOf {intent : OrderIntent} {at_ : UTCDateTime}
    {before : AccountReservation} {changed : ReservationMutation} {created : OrderEvent}
    (h : OrderCancelled s intent at_ before changed created s') :
    s'.orderEventsOf intent.intentId = s.orderEventsOf intent.intentId ++ [created] := by
  obtain ⟨hid, hsequence, -⟩ := orderEvent_of_append h.appended
  refine orderEventsOf_concat h.orders.2.1 hid fun last hlast => ?_
  rw [hsequence, Option.mem_def.mp hlast]
  exact Nat.le_succ _

/-- An order gets its first event together with a receipt, and cancelling ends it. -/
theorem Receipted.effect (h : Effect BrokerOutcome s s') (hk : OrdersKept s) (hr : Receipted s) :
    Receipted s' := by
  cases h with
  | registered => exact hr.of_eq rfl rfl rfl
  | targeted => exact hr.of_eq rfl rfl rfl
  | decided => exact hr.of_eq rfl rfl rfl
  | batch created =>
      obtain ⟨hintents, hevents, hreceipts, -, -⟩ := created.intents
      have hunique := (insertPair_unique created.inserted hk.intents_unique hk.keys_unique).1
      intro i hi hprogress
      obtain ⟨e, he, hlive⟩ := hprogress
      -- an order with an event is an old one
      have hmem : e ∈ s.orderEventsOf i.intentId := by
        rw [← orderEventsOf_of_eq hevents]
        exact List.mem_of_getLast? he
      obtain ⟨hstored, hid⟩ := mem_orderEventsOf.mp hmem
      obtain ⟨j, hj, hjid⟩ := hk.events_stored e hstored
      have hsame : i = j := by
        refine hunique.eq hi ?_ (hid.symm.trans hjid.symm)
        rw [hintents]
        exact List.mem_append_left _ hj
      subst hsame
      rw [hreceipts]
      exact hr i hj ⟨e, by rwa [orderEventsOf_of_eq hevents] at he, hlive⟩
  | @executed command outcome held _ permitted persisted =>
      obtain ⟨hintents, hevents, hreceipts⟩ := persisted.orders
      intro i hi hprogress
      rw [hintents] at hi
      rw [hreceipts]
      by_cases hid : i.intentId = command.intent.intentId
      · have hsame : i = command.intent :=
          hk.intents_unique.eq hi (Table.mem_of_get persisted.order) hid
        refine ⟨executionRecord command outcome, by simp, ?_, ?_⟩ <;> rw [hsame] <;> rfl
      · have hother : ∀ e ∈ outcome.orderEvents.drop
            (s.orderEventsOf command.intent.intentId).length, e.orderIntentId ≠ i.intentId := by
          intro e he
          rw [permitted.events_intent e (List.mem_of_mem_drop he)]
          exact Ne.symm hid
        unfold InProgress at hprogress
        rw [orderEventsOf_append_other hevents hother] at hprogress
        obtain ⟨r, hrow, hkey⟩ := hr i hi hprogress
        exact ⟨r, List.mem_append_left _ hrow, hkey⟩
  | posted _ posted =>
      obtain ⟨hintents, hevents, hreceipts⟩ := posted.orders
      exact hr.of_eq hintents hevents hreceipts
  | @cancelled intent at_ before changed created _ stored cancelled =>
      obtain ⟨hintents, hevents, hreceipts⟩ := cancelled.orders
      obtain ⟨hcreated, -, hstatus, -, -⟩ := orderEvent_of_append cancelled.appended
      intro i hi hprogress
      rw [hintents] at hi
      rw [hreceipts]
      unfold InProgress at hprogress
      by_cases hid : i.intentId = intent.intentId
      · rw [hid, cancelled.eventsOf, List.getLast?_concat] at hprogress
        obtain ⟨e, he, hlive⟩ := hprogress
        obtain rfl : created = e := by simpa using he
        rw [hstatus] at hlive
        exact absurd cancelStatus_terminal hlive
      · have hother : ∀ e ∈ [created], e.orderIntentId ≠ i.intentId := by
          intro e he
          rw [List.mem_singleton.mp he, hcreated]
          exact Ne.symm hid
        rw [orderEventsOf_append_other hevents hother] at hprogress
        exact hr i hi hprogress
  | operated operated =>
      obtain ⟨hintents, hevents, hreceipts⟩ := operated.same.orders
      exact hr.of_eq hintents hevents hreceipts

theorem receipted_reached {at_ : UTCDateTime} {ops : List Timed}
    (hcalls : ∀ op ∈ ops, op.1.IsCall) : Receipted (World.reached at_ ops).store := by
  have hboth : OrdersKept (World.reached at_ ops).store ∧ Receipted (World.reached at_ ops).store :=
    World.invariant_calls (I := fun s => OrdersKept s ∧ Receipted s) at_ ops hcalls
      ⟨ordersKept_migrated, fun i hi => by cases hi⟩
      fun _ _ h hk => ⟨hk.1.effect h, hk.2.effect h hk.1⟩
  exact hboth.2

end

end StonksPaper
