import StonksPaper.Broker.Accounting
import StonksPaper.Broker.History
import StonksPaper.Runs.Halted
import StonksPaper.Runs.Records
import StonksPaper.Runs.Reserved

/-!
# Orders that are over

Every order has a reservation of its own, and an order whose last event is terminal has nothing
left in it. An activation ends every order that it covers, so it leaves nothing of their accounts
reserved beyond what their openings had reserved.
-/

namespace Chain

universe u v

variable {α : Type u} {η : Type v} (L : Link α η)

/-- The events of a chain are in the order of their sequences. -/
theorem Linked.pairwise {n : ℕ} {h : Option η} {xs : List α} (hlinked : Linked L n h xs) :
    (∀ e ∈ xs, n < L.sequence e) ∧ xs.Pairwise fun a b => L.sequence a ≤ L.sequence b := by
  induction xs generalizing n h with
  | nil => exact ⟨by simp, List.Pairwise.nil⟩
  | cons x xs ih =>
      obtain ⟨hsequence, -, hrest⟩ := hlinked
      obtain ⟨hlater, hpairs⟩ := ih hrest
      constructor
      · intro e he
        rcases List.mem_cons.mp he with rfl | he
        · omega
        · exact Nat.lt_of_succ_lt (hlater e he)
      · refine List.pairwise_cons.mpr ⟨fun e he => ?_, hpairs⟩
        have hlt := hlater e he
        omega

end Chain

namespace StonksPaper

open Chain
open scoped ExactArithmetic

def Over (s : Store) (intent : OrderIntent) : Prop :=
  ∃ e ∈ (s.orderEventsOf intent.intentId).getLast?, e.toStatus.Terminal

instance (s : Store) (intent : OrderIntent) : Decidable (Over s intent) :=
  inferInstanceAs (Decidable (∃ _ ∈ _, _))

def AccountReservation.Spent (r : AccountReservation) : Prop :=
  r.remainingAmount = 0 ∧ ¬ r.state.Mutable

instance (r : AccountReservation) : Decidable r.Spent := inferInstanceAs (Decidable (_ ∧ _))

theorem AccountReservation.Valid.spent {r : AccountReservation} (hr : r.Valid)
    (hzero : r.remainingAmount = 0) : r.Spent := by
  refine ⟨hzero, fun hmutable => ?_⟩
  have hpos := AccountReservation.Valid.remaining_pos hr hmutable
  rw [hzero] at hpos
  exact lt_irrefl _ hpos

/-- Orders and reservations go together, and an order that is over has a spent one. -/
structure HeldKept (s : Store) : Prop where
  reserved : ∀ i ∈ s.intents, ∃ r, s.reservation i.reservationId = some r ∧
    r.accountId = i.accountId ∧ r.orderIntentId = i.intentId
  ordered : ∀ r ∈ s.reservations, ∃ i ∈ s.intents, i.reservationId = r.reservationId
  ended : ∀ i ∈ s.intents, Over s i → ∀ r, s.reservation i.reservationId = some r → r.Spent

section

variable [Hashing] {s s' : Store}

/-! ## What the broker leaves -/

theorem openedEvents_of_none {request : PaperExecutionRequest} {events : List OrderEvent}
    {latest : OrderEvent} (hprior : request.priorEvents = [])
    (h : openedEvents request = .success (events, latest)) : latest.toStatus = .accepted := by
  unfold openedEvents at h
  rw [hprior] at h
  obtain ⟨accepted, happend, h⟩ := Attempt.bind_eq_success.mp h
  cases h
  exact appendOrderEvent_toStatus happend

/-- An order that the broker ends has nothing left of its reservation. -/
theorem Exit.spent {policy : PaperExecutionPolicy} {request : PaperExecutionRequest}
    {events : List OrderEvent} {latest : OrderEvent} {fills : List Fill}
    {change : ReservationChange} (hreservation : request.reservation.Valid)
    (hprior : request.priorEvents = [])
    (h : Exit policy request events latest fills change) (hterminal : latest.toStatus.Terminal) :
    change.final.Spent := by
  cases h with
  | rejected refused appended released =>
      obtain ⟨haccounts, hzero, -⟩ := releaseRemaining_accounts hreservation released
      exact haccounts.valid.spent hzero
  | pending supported untradable opened =>
      rw [openedEvents_of_none hprior opened] at hterminal
      exact absurd hterminal (by decide)
  | expired supported untradable opened appended released =>
      obtain ⟨haccounts, hzero, -⟩ := releaseRemaining_accounts hreservation released
      exact haccounts.valid.spent hzero
  | filled opened step kept =>
      obtain ⟨haccounts, hzero, -⟩ :=
        reservationAfterFill_accounts hreservation (Context.fits_exact) step.held
      refine haccounts.valid.spent (hzero ?_)
      rw [appendOrderEvent_toStatus step.appended, fillStatus] at hterminal ⊢
      split
      · rfl
      · rename_i hpartial
        rw [if_neg hpartial] at hterminal
        exact absurd hterminal (by decide)
  | cancelled opened step immediate incomplete appended surplus =>
      obtain ⟨haccounts, -, -⟩ :=
        reservationAfterFill_accounts hreservation (Context.fits_exact) step.held
      obtain ⟨haccounts', hzero, -⟩ := releaseSurplus_accounts haccounts surplus
      exact haccounts'.valid.spent (hzero trivial)

/-- The events that the broker reports of a new order are in their order. -/
theorem Exit.history_of_none {policy : PaperExecutionPolicy} {request : PaperExecutionRequest}
    {events : List OrderEvent} {latest : OrderEvent} {fills : List Fill}
    {change : ReservationChange} (hprior : request.priorEvents = [])
    (h : Exit policy request events latest fills change) : History events := by
  have hnone : History request.priorEvents := by
    rw [hprior]
    exact ⟨trivial, trivial⟩
  by_cases hsupported : AvoidsRejection policy request
  · exact (h.history hnone hsupported).1
  · cases h with
    | rejected refused appended released => exact .genesis appended
    | pending supported => exact absurd supported hsupported
    | expired supported => exact absurd supported hsupported
    | filled opened step => exact absurd step.supported hsupported
    | cancelled opened step => exact absurd step.supported hsupported

/-- The events of an execution are those of its outcome. -/
theorem ExecutionPersisted.eventsOf {command : ExecutionCommand} {outcome : PaperExecutionOutcome}
    {held : AccountReservation} (hk : ExecutionsKept s)
    (permitted : BrokerOutcome s command outcome)
    (h : ExecutionPersisted s command outcome held s') :
    s'.orderEventsOf command.intent.intentId = outcome.orderEvents ∧
      (Over s' command.intent → outcome.finalReservation.Spent) := by
  have hnone := hk.eventsOf_eq_nil permitted h
  have hown := permitted.events_intent
  obtain ⟨policy, request, rfl, hrehydrated, hexecute⟩ := permitted
  have hprior : request.priorEvents = [] := hrehydrated.events.trans hnone
  obtain ⟨-, events, latest, fills, change, hexit, ho⟩ := execute_exit hexecute
  obtain ⟨hvalid, hreceipt, hevents, rfl, -, -, hfinal, -, -⟩ := outcome_eq_success ho
  have hstored := h.orders.2.1
  rw [hnone, List.length_nil, List.drop_zero] at hstored
  have hbefore : s.orderEvents.filter
      (·.orderIntentId = request.command.intent.intentId) = [] := sorted_eq_nil.mp hnone
  have hall : outcome.orderEvents.filter
      (·.orderIntentId = request.command.intent.intentId) = outcome.orderEvents :=
    List.filter_eq_self.mpr fun e he => decide_eq_true (hown e he)
  have hwhole : s'.orderEventsOf request.command.intent.intentId = outcome.orderEvents := by
    rw [Store.orderEventsOf, hstored, List.filter_append, hbefore, hall, List.nil_append, hevents]
    exact sorted_of_pairwise (Linked.pairwise _ (hexit.history_of_none hprior).linked).2
  refine ⟨hwhole, fun hover => ?_⟩
  obtain ⟨e, he, hterminal⟩ := hover
  rw [hwhole, hvalid.latest] at he
  have hlast : outcome.receipt.event = e := Option.some.inj he
  rw [← hlast] at hterminal
  rw [hfinal]
  exact hexit.spent (AccountReservation.validate_iff.mp hrehydrated.reservation_valid) hprior
    hterminal

/-! ## Every change -/

omit [Hashing] in
theorem heldKept_migrated {at_ : UTCDateTime} : HeldKept (Store.migrated at_) := by
  constructor
  all_goals
    intro x hx
    cases hx

omit [Hashing] in
theorem HeldKept.of_eq (hk : HeldKept s) (hintents : s'.intents = s.intents)
    (hevents : s'.orderEvents = s.orderEvents) (hreservations : s'.reservations = s.reservations) :
    HeldKept s' := by
  have hlookup (id : UUID) : s'.reservation id = s.reservation id := by
    rw [Store.reservation, hreservations]
    rfl
  constructor
  · intro i hi
    rw [hlookup]
    exact hk.reserved i (hintents ▸ hi)
  · rw [hreservations, hintents]
    exact hk.ordered
  · intro i hi hover r hr
    rw [hlookup] at hr
    unfold Over at hover
    rw [orderEventsOf_of_eq hevents] at hover
    exact hk.ended i (hintents ▸ hi) hover r hr

/-- A batch adds orders with their reservations, none of them with an event. -/
theorem HeldKept.batch {ordered : List ReservationOrderPair} {now : UTCDateTime}
    {row : PaperAccountRow} {event : PaperAccountEvent} (hk : HeldKept s) (ho : OrdersKept s)
    (h : BatchCreated s ordered now row event s') : HeldKept s' := by
  obtain ⟨hintents, hevents, -, -, -⟩ := h.intents
  have hreservations : s'.reservations = s.reservations ++ ordered.map (·.1.reservation) := by
    rw [h.state]
  have hold {id : UUID} {r : AccountReservation} (hr : s.reservation id = some r) :
      s'.reservation id = some r := by
    have hget : Table.get (·.reservationId) s.reservations id = some r := hr
    rw [Store.reservation, hreservations, Table.get_append, hget]
    rfl
  constructor
  · intro i hi
    rw [hintents] at hi
    rcases List.mem_append.mp hi with hi | hi
    · obtain ⟨r, hr, hbound⟩ := hk.reserved i hi
      exact ⟨r, hold hr, hbound⟩
    · obtain ⟨pair, hpair, rfl⟩ := List.mem_map.mp hi
      obtain ⟨horder, hreservation, -, -, -, haccount, -⟩ := h.bound pair hpair
      refine ⟨pair.1.reservation, ?_, haccount, horder⟩
      rw [← hreservation]
      exact (reservation_of_inserted h.inserted hpair).1
  · rw [hreservations, hintents]
    intro r hr
    rcases List.mem_append.mp hr with hr | hr
    · obtain ⟨i, hi, hid⟩ := hk.ordered r hr
      exact ⟨i, List.mem_append_left _ hi, hid⟩
    · obtain ⟨pair, hpair, rfl⟩ := List.mem_map.mp hr
      exact ⟨pair.2, List.mem_append_right _ (List.mem_map_of_mem hpair),
        (h.bound pair hpair).2.1.symm⟩
  · intro i hi hover r hr
    -- an order with an event is an old one
    have hunique := (insertPair_unique h.inserted ho.intents_unique ho.keys_unique).1
    have hold_over : Over s i := by
      unfold Over at hover ⊢
      rwa [orderEventsOf_of_eq hevents] at hover
    have hevent := hold_over
    obtain ⟨e, he, -⟩ := hevent
    obtain ⟨hstored, hid⟩ := mem_orderEventsOf.mp (List.mem_of_getLast? he)
    obtain ⟨j, hj, hjid⟩ := ho.events_stored e hstored
    have hsame : i = j := by
      refine hunique.eq hi ?_ (hid.symm.trans hjid.symm)
      rw [hintents]
      exact List.mem_append_left _ hj
    rw [hsame] at hold_over hr
    obtain ⟨r', hr', -⟩ := hk.reserved j hj
    rw [hold hr'] at hr
    rw [← Option.some.inj hr]
    exact hk.ended j hj hold_over r' hr'

section mutated

variable {held final : AccountReservation} {mutations : List ReservationMutation}

omit [Hashing] in
theorem mutated_reservation (hheld : s.reservation held.reservationId = some held) :
    (s.mutated held final mutations).reservation held.reservationId =
      some (if mutations = [] then held else held.moved final) := by
  unfold Store.reservation Store.mutated
  by_cases hnil : mutations = []
  · simp only [hnil, if_true]
    exact hheld
  · simp only [if_neg hnil]
    exact Table.get_update_self hheld rfl

omit [Hashing] in
theorem mutated_reservation_other {id : UUID} (hother : id ≠ held.reservationId) :
    (s.mutated held final mutations).reservation id = s.reservation id := by
  unfold Store.reservation Store.mutated
  by_cases hnil : mutations = []
  · simp only [hnil, if_true]
  · simp only [if_neg hnil]
    exact Table.get_update_of_ne (fun r hr => hr.symm) fun r hr => hr ▸ hother.symm

omit [Hashing] in
theorem mem_mutated {r : AccountReservation}
    (hr : r ∈ (s.mutated held final mutations).reservations) :
    ∃ r' ∈ s.reservations, r'.reservationId = r.reservationId := by
  unfold Store.mutated at hr
  by_cases hnil : mutations = []
  · simp only [hnil, if_true] at hr
    exact ⟨r, hr, rfl⟩
  · simp only [if_neg hnil] at hr
    obtain ⟨r', hr', rfl⟩ := Table.mem_update.mp hr
    refine ⟨r', hr', ?_⟩
    split
    · rename_i hmoved
      exact hmoved
    · rfl

omit [Hashing] in
/-- One order's events and its reservation move together. -/
theorem HeldKept.moved {intent : OrderIntent} (hk : HeldKept s)
    (hunique : Table.Unique (·.intentId) s.intents) (hstored : intent ∈ s.intents)
    (hheld : s.reservation intent.reservationId = some held)
    (hintents : s'.intents = s.intents)
    (hreservations : s'.reservations = (s.mutated held final mutations).reservations)
    (hfinal : mutations = [] → final = held)
    (hothers : ∀ id, id ≠ intent.intentId → s'.orderEventsOf id = s.orderEventsOf id)
    (hspent : Over s' intent → final.Spent) : HeldKept s' := by
  have hid : held.reservationId = intent.reservationId := Table.key_of_get hheld
  have hlookup (id : UUID) :
      s'.reservation id = (s.mutated held final mutations).reservation id := by
    unfold Store.reservation
    rw [hreservations]
  have hself : s'.reservation intent.reservationId =
      some (if mutations = [] then held else held.moved final) := by
    rw [hlookup, ← hid]
    exact mutated_reservation (hid.symm ▸ hheld)
  obtain ⟨first, hfirst, haccount, horder⟩ := hk.reserved intent hstored
  have hsame : first = held := Option.some.inj (hfirst.symm.trans hheld)
  rw [hsame] at haccount horder
  -- another order has another reservation
  have hother {i : OrderIntent} (hi : i ∈ s.intents) (hne : i.intentId ≠ intent.intentId) :
      s'.reservation i.reservationId = s.reservation i.reservationId := by
    rw [hlookup]
    refine mutated_reservation_other fun heq => hne ?_
    obtain ⟨r, hr, -, hof⟩ := hk.reserved i hi
    rw [heq, hid, hheld] at hr
    rw [← hof, ← Option.some.inj hr, horder]
  constructor
  · intro i hi
    rw [hintents] at hi
    by_cases hne : i.intentId = intent.intentId
    · rw [hunique.eq hi hstored hne, hself]
      refine ⟨_, rfl, ?_⟩
      split
      · exact ⟨haccount, horder⟩
      · exact ⟨haccount, horder⟩
    · rw [hother hi hne]
      exact hk.reserved i hi
  · rw [hintents, hreservations]
    intro r hr
    obtain ⟨r', hr', hrid⟩ := mem_mutated hr
    obtain ⟨i, hi, hir⟩ := hk.ordered r' hr'
    exact ⟨i, hi, hir.trans hrid⟩
  · intro i hi hover r hr
    rw [hintents] at hi
    by_cases hne : i.intentId = intent.intentId
    · rw [hunique.eq hi hstored hne] at hover hr
      rw [hself] at hr
      rw [← Option.some.inj hr]
      split
      · rename_i hnil
        rw [← hfinal hnil]
        exact hspent hover
      · exact hspent hover
    · rw [hother hi hne] at hr
      unfold Over at hover
      rw [hothers i.intentId hne] at hover
      exact hk.ended i hi hover r hr

end mutated

theorem pendingMutation_spent {r : AccountReservation} {at_ : UTCDateTime}
    {m : ReservationMutation} (hr : r.Valid) (h : pendingMutation r at_ = .success m) :
    m.reservation.Spent := by
  have hzero := pendingMutation_remaining hr h
  unfold pendingMutation at h
  split at h
  · exact (AccountReservation.expire_valid hr h).spent hzero
  · exact (AccountReservation.release_valid hr h).spent hzero

theorem HeldKept.effect (h : Effect BrokerOutcome s s') (hk : HeldKept s) (he : ExecutionsKept s) :
    HeldKept s' := by
  cases h with
  | registered => exact hk.of_eq rfl rfl rfl
  | targeted => exact hk.of_eq rfl rfl rfl
  | decided => exact hk.of_eq rfl rfl rfl
  | batch created => exact hk.batch he.orders created
  | @executed command outcome held _ permitted persisted =>
      obtain ⟨hintents, hevents, -⟩ := persisted.orders
      have hreservations : s'.reservations = (s.mutated held outcome.finalReservation
          outcome.reservationMutations).reservations := by
        rw [persisted.state]
        rfl
      refine hk.moved he.orders.intents_unique (Table.mem_of_get persisted.order)
        persisted.reserved hintents hreservations persisted.final (fun id hne => ?_)
        (persisted.eventsOf he permitted).2
      refine orderEventsOf_append_other hevents fun e hin => ?_
      rw [permitted.events_intent e (List.mem_of_mem_drop hin)]
      exact hne.symm
  | posted _ posted =>
      obtain ⟨hintents, hevents, -⟩ := posted.orders
      exact hk.of_eq hintents hevents (by rw [posted.state]; rfl)
  | @cancelled intent at_ before changed created _ stored cancelled =>
      obtain ⟨hintents, hevents, -⟩ := cancelled.orders
      have hvalid := AccountReservation.validate_iff.mp cancelled.before_valid
      have hreservations : s'.reservations =
          (s.mutated before changed.reservation [changed]).reservations := by
        rw [cancelled.state]
        rfl
      refine hk.moved he.orders.intents_unique stored cancelled.reserved hintents hreservations
        (fun hnil => by cases hnil) (fun id hne => ?_)
        fun _ => pendingMutation_spent hvalid cancelled.released
      refine orderEventsOf_append_other hevents fun e hin => ?_
      rw [List.mem_singleton.mp hin, (orderEvent_of_append cancelled.appended).1]
      exact hne.symm
  | operated operated =>
      obtain ⟨hintents, hevents, -⟩ := operated.same.orders
      refine hk.of_eq hintents hevents ?_
      rw [operated.same]

/-- What a run of the application's operations keeps of orders and their reservations. -/
structure TradingKept (s : Store) : Prop where
  ledger : LedgerKept s
  reserved : ReservedKept s
  executions : ExecutionsKept s
  held : HeldKept s

theorem tradingKept_reached {at_ : UTCDateTime} {ops : List Timed}
    (hcalls : ∀ op ∈ ops, op.1.IsCall) : TradingKept (World.reached at_ ops).store :=
  World.invariant_calls at_ ops hcalls
    ⟨ledgerKept_migrated, reservedKept_migrated, executionsKept_migrated, heldKept_migrated⟩
    fun _ _ h hk => ⟨hk.ledger.effect h, hk.reserved.effect h hk.ledger.rowsUnique,
      hk.executions.effect h, hk.held.effect h hk.executions⟩

/-! ## Activation -/

theorem Over.cancelled {i intent : OrderIntent} {at_ : UTCDateTime} {before : AccountReservation}
    {changed : ReservationMutation} {created : OrderEvent} (hover : Over s i)
    (h : OrderCancelled s intent at_ before changed created s') : Over s' i := by
  by_cases hid : i.intentId = intent.intentId
  · obtain ⟨e, he, hterminal⟩ := hover
    rw [hid] at he
    refine absurd ?_ h.pending
    rw [Option.mem_def.mp he]
    exact hterminal
  · unfold Over at hover ⊢
    rwa [orderEventsOf_append_other h.orders.2.1 fun e he => ?_]
    rw [List.mem_singleton.mp he, (orderEvent_of_append h.appended).1]
    exact Ne.symm hid

/-- The loop over the orders ends each of them, and no order that is over comes back. -/
theorem over_cancelPending {at_ : UTCDateTime} {intents : List OrderIntent}
    {progress after : List UUID × Store}
    (h : intents.foldlM (cancelPending at_) progress = .success after) :
    (∀ i, Over progress.2 i → Over after.2 i) ∧ ∀ i ∈ intents, Over after.2 i := by
  refine Attempt.foldlM_induct
    (P := fun intents a c => (∀ i, Over a.2 i → Over c.2 i) ∧ ∀ i ∈ intents, Over c.2 i)
    (fun a => ⟨fun _ h => h, by simp⟩) ?_ h
  intro intent intents a b c hfirst hrest
  have hround : (∀ i, Over a.2 i → Over b.2 i) ∧ Over b.2 intent := by
    obtain ⟨cancelled, t⟩ := a
    obtain ⟨cancelled', t'⟩ := b
    rcases cancelPending_eq_success hfirst with
      ⟨rfl, -, hterminal⟩ | ⟨-, before, changed, created, hcancelled⟩
    · refine ⟨fun _ h => h, ?_⟩
      cases hlast : (t'.orderEventsOf intent.intentId).getLast? with
      | none =>
          rw [hlast] at hterminal
          exact absurd hterminal (by decide)
      | some e =>
          rw [hlast] at hterminal
          exact ⟨e, hlast, hterminal⟩
    · refine ⟨fun i hover => hover.cancelled hcancelled, created, ?_, ?_⟩
      · rw [hcancelled.eventsOf, List.getLast?_concat]
        rfl
      · rw [(orderEvent_of_append hcancelled.appended).2.2.1]
        exact cancelStatus_terminal
  constructor
  · exact fun i hover => hrest.1 i (hround.1 i hover)
  · exact List.forall_mem_cons.mpr ⟨hrest.1 intent hround.2, hrest.2⟩

theorem tables_cancelPending {at_ : UTCDateTime} {intents : List OrderIntent}
    {progress after : List UUID × Store}
    (h : intents.foldlM (cancelPending at_) progress = .success after) :
    after.2.intents = progress.2.intents ∧ after.2.accounts = progress.2.accounts := by
  refine Attempt.foldlM_invariant (I := fun a : List UUID × Store =>
    a.2.intents = progress.2.intents ∧ a.2.accounts = progress.2.accounts) ?_ h ⟨rfl, rfl⟩
  intro intent _ a b hround ha
  obtain ⟨cancelled, t⟩ := a
  obtain ⟨cancelled', t'⟩ := b
  rcases cancelPending_eq_success hround with ⟨rfl, -, -⟩ | ⟨-, before, changed, created,
    hcancelled⟩
  · exact ha
  · rw [hcancelled.state]
    exact ha

/-- After an activation every order of the accounts that it covers is over. -/
theorem over_activateOperation {a : Activation} {now : UTCDateTime} {record : PaperOperationRecord}
    (h : s.activateOperation a now = .success (record, s')) {i : OrderIntent}
    (hi : i ∈ s'.intents) (haccount : s'.account i.accountId ≠ none)
    (hcovers : Covers a.accountId i.accountId) : Over s' i := by
  simp only [Store.activateOperation, Attempt.bind_eq_success, Attempt.pure_eq, Prod.exists] at h
  obtain ⟨_, -, active, s₁, -, cancelled, s₂, hcancel, _, -, action, s₃, happend, _, -, h⟩ := h
  cases h
  have hsame := (sameTrading_appendAction happend).1
  have hover : Over s₂ i → Over s' i := by
    intro hover
    unfold Over at hover ⊢
    rwa [orderEventsOf_of_eq hsame.orders.2.1]
  have haccounts : s'.accounts = s₂.accounts := by rw [hsame]
  rw [hsame.orders.1] at hi
  rw [Store.account, haccounts] at haccount
  unfold Store.cancelPendingOrders at hcancel
  -- the account is among those that the activation covers
  have hmem (haccounts : s₂.accounts = s₁.accounts) :
      i.accountId ∈ s₁.activationAccounts a.accountId := by
    rcases hcovers with hglobal | hown
    · rw [hglobal]
      rw [haccounts] at haccount
      obtain ⟨row, hrow⟩ := Option.ne_none_iff_exists'.mp haccount
      refine mem_sorted.mpr (List.mem_map.mpr ⟨row, Table.mem_of_get hrow, Table.key_of_get hrow⟩)
    · rw [hown]
      exact List.mem_singleton_self _
  split at hcancel
  · rename_i hnone
    cases hcancel
    have hin := hmem rfl
    rw [hnone] at hin
    cases hin
  · obtain ⟨_, -, hloop⟩ := Attempt.bind_eq_success.mp hcancel
    obtain ⟨hintents, haccounts⟩ := tables_cancelPending hloop
    refine hover ((over_cancelPending hloop).2 i (mem_sorted.mpr (List.mem_filter.mpr ⟨?_, ?_⟩)))
    · exact hintents ▸ hi
    · exact decide_eq_true (hmem haccounts)

/-- Nothing of the account is in reserve but what its opening reserved, and its orders are over. -/
structure NothingLive (s : Store) (accountId : AccountId) : Prop where
  ended : ∀ i ∈ s.intents, i.accountId = accountId →
    Over s i ∧ ∃ r, s.reservation i.reservationId = some r ∧ r.Spent
  cash : ∀ row ∈ s.cashOf accountId, row.reservedAmount = s.openedAt row.balanceKey
  positions : ∀ row ∈ s.positionsOf accountId, row.reservedQuantity = s.openedAt row.balanceKey

/-- Where all orders of an account are over, nothing of it is in reserve. -/
theorem TradingKept.nothingLive (hk : TradingKept s) {accountId : AccountId}
    (hover : ∀ i ∈ s.intents, i.accountId = accountId → Over s i) : NothingLive s accountId := by
  have hspent : ∀ i ∈ s.intents, i.accountId = accountId →
      ∃ r, s.reservation i.reservationId = some r ∧ r.Spent := by
    intro i hi hof
    obtain ⟨r, hr, -⟩ := hk.held.reserved i hi
    exact ⟨r, hr, hk.held.ended i hi (hover i hi hof) r hr⟩
  have hheld (k : BalanceKey) (hof : k.1 = accountId) : s.heldAt k = 0 := by
    refine Table.total_eq_zero fun r hr hkey => ?_
    obtain ⟨i, hi, hid⟩ := hk.held.ordered r hr
    have hstored : s.reservation i.reservationId = some r := by
      rw [hid]
      exact Table.get_of_mem hk.reserved.ids_unique hr
    obtain ⟨r', hr', haccount, -⟩ := hk.held.reserved i hi
    have hsame : r' = r := Option.some.inj (hr'.symm.trans hstored)
    have hraccount : r.accountId = accountId := by
      rw [← hof, ← hkey]
      rfl
    have hiaccount : i.accountId = accountId := by rw [← haccount, hsame, hraccount]
    exact (hk.held.ended i hi (hover i hi hiaccount) r hstored).1
  have hunique := hk.ledger.rowsUnique
  constructor
  · exact fun i hi hof => ⟨hover i hi hof, hspent i hi hof⟩
  · intro row hrow
    obtain ⟨hmem, hof⟩ := List.mem_filter.mp hrow
    rw [(hk.reserved.rows_exact hunique).1 row hmem, hheld row.balanceKey (of_decide_eq_true hof),
      add_zero]
  · intro row hrow
    obtain ⟨hmem, hof⟩ := List.mem_filter.mp hrow
    rw [(hk.reserved.rows_exact hunique).2 row hmem, hheld row.balanceKey (of_decide_eq_true hof),
      add_zero]

theorem activateOperation_of_activates {w : World} {switch : Option AccountId} {op : Timed}
    (h : Activates w switch (.operation op.1, op.2)) :
    ∃ a record, a.accountId = switch ∧
      w.store.activateOperation a op.2 = .success (record, (w.step op).store) ∧ op.1.IsCall := by
  obtain ⟨op, now⟩ := op
  cases op with
  | activate command actor =>
      obtain ⟨hof, record, s', hactivated⟩ := h
      have hstore : (w.step (.activate command actor, now)).store = s' :=
        congrArg w.store.kept hactivated
      rw [hstore]
      exact ⟨_, record, hof, mutation_eq_success.mp hactivated, trivial⟩
  | failReconciliation command actor mismatchReasons =>
      obtain ⟨hof, record, s', hactivated⟩ := h
      have hstore : (w.step (.failReconciliation command actor mismatchReasons, now)).store = s' :=
        congrArg w.store.kept hactivated
      rw [hstore]
      exact ⟨_, record, hof.symm, mutation_eq_success.mp hactivated, trivial⟩
  | _ => exact h.elim

/-- In every run, an activation that commits leaves its switch active and nothing live on any
account that the switch covers. -/
theorem activation_leaves_nothing_live (at_ : UTCDateTime) (ops : List Timed) (op : Timed)
    (switch : Option AccountId) (hcalls : ∀ op ∈ ops, op.1.IsCall)
    (hactivates : Activates (World.reached at_ ops) switch (.operation op.1, op.2)) :
    SwitchActive (World.reached at_ (ops ++ [op])).store.switches switch ∧
      ∀ row ∈ (World.reached at_ (ops ++ [op])).store.accounts, Covers switch row.accountId →
        NothingLive (World.reached at_ (ops ++ [op])).store row.accountId := by
  have hstep : World.reached at_ (ops ++ [op]) = (World.reached at_ ops).step op := by
    rw [World.reached, Run.run_append]
    rfl
  obtain ⟨a, record, hof, hactivated, hcall⟩ := activateOperation_of_activates hactivates
  rw [← hstep] at hactivated
  refine ⟨hof ▸ switchActive_activateOperation hactivated, fun row hrow hcovers => ?_⟩
  have hcalls' : ∀ op' ∈ ops ++ [op], op'.1.IsCall := by
    intro op' hop
    rcases List.mem_append.mp hop with hop | hop
    · exact hcalls op' hop
    · rwa [List.mem_singleton.mp hop]
  refine (tradingKept_reached hcalls').nothingLive fun i hi hiof => ?_
  have haccount : (World.reached at_ (ops ++ [op])).store.account i.accountId ≠ none := by
    intro hnone
    exact Table.get_eq_none.mp hnone row hrow hiof.symm
  exact over_activateOperation hactivated hi haccount (by rwa [hof, hiof])

end

section

open scoped CodeHashing

/-- An order that is in progress holds cash, and the global activation releases all of it. -/
theorem activation_leaves_nothing_live_accepted :
    (∃ row ∈ (World.reached 0 (Scenario.accepted {} {})).store.cashOf "paper",
      0 < row.reservedAmount) ∧
    NothingLive (World.reached 0 (Scenario.accepted {} {} ++
      [(.activate ⟨900, .global, none, 1, "stop"⟩ "operator", 60)])).store "paper" := by
  have hactivated : ((World.reached 0 (Scenario.accepted {} {})).store.activate
      ⟨900, .global, none, 1, "stop"⟩ "operator" 60).SucceedsWith fun _ => True := by
    decide +kernel
  have hrows : (∃ row ∈ (World.reached 0 (Scenario.accepted {} {})).store.cashOf "paper",
        0 < row.reservedAmount) ∧
      ∃ row ∈ (World.reached 0 (Scenario.accepted {} {} ++
          [(.activate ⟨900, .global, none, 1, "stop"⟩ "operator", 60)])).store.accounts,
        row.accountId = "paper" := by
    decide +kernel
  obtain ⟨⟨record, s'⟩, hsuccess, -⟩ := hactivated
  have hcalls : ∀ op ∈ Scenario.accepted {} {}, op.1.IsCall := by
    simp [Scenario.accepted, Scenario.opened, Scenario.authorised, Scenario.call, Operation.IsCall]
  obtain ⟨row, hrow, hof⟩ := hrows.2
  have hlive := (activation_leaves_nothing_live 0 (Scenario.accepted {} {})
    (.activate ⟨900, .global, none, 1, "stop"⟩ "operator", 60) none hcalls
    ⟨rfl, record, s', hsuccess⟩).2 row hrow (.inl rfl)
  rw [hof] at hlive
  exact ⟨hrows.1, hlive⟩

end

end StonksPaper
