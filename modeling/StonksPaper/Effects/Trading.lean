import StonksPaper.Store.Operations

/-!
# What the operations write

One lemma for each operation that writes: what a success leaves, table by table, and what the
operation had checked. No later proof takes an operation apart.
-/

namespace StonksPaper

open Chain
open scoped ExactArithmetic

/-! ## Loops of insertions -/

section loops

variable {β : Type} {s s' : Store} {xs : List β}

theorem insertCash_all {f : β → PaperCashProjectionRow}
    (h : xs.foldlM (fun s b => s.insertCash (f b)) s = .success s') :
    s' = { s with cash := s.cash ++ xs.map f } := by
  refine Attempt.foldlM_induct
    (P := fun xs s s' => s' = { s with cash := s.cash ++ xs.map f }) ?_ ?_ h
  · intro s; simp
  · rintro x xs s t u hfirst rfl
    obtain ⟨-, rfl⟩ := write_eq_success.mp hfirst
    simp

theorem insertPosition_all {f : β → PaperPositionProjectionRow}
    (h : xs.foldlM (fun s b => s.insertPosition (f b)) s = .success s') :
    s' = { s with positions := s.positions ++ xs.map f } := by
  refine Attempt.foldlM_induct
    (P := fun xs s s' => s' = { s with positions := s.positions ++ xs.map f }) ?_ ?_ h
  · intro s; simp
  · rintro x xs s t u hfirst rfl
    obtain ⟨-, rfl⟩ := write_eq_success.mp hfirst
    simp

theorem insertLedger_all {f : β → PaperLedgerAccountProjectionRow}
    (h : xs.foldlM (fun s b => s.insertLedger (f b)) s = .success s') :
    s' = { s with ledger := s.ledger ++ xs.map f } := by
  refine Attempt.foldlM_induct
    (P := fun xs s s' => s' = { s with ledger := s.ledger ++ xs.map f }) ?_ ?_ h
  · intro s; simp
  · rintro x xs s t u hfirst rfl
    obtain ⟨-, rfl⟩ := write_eq_success.mp hfirst
    simp

theorem insertOrderEvent_all {events : List OrderEvent}
    (h : events.foldlM Store.insertOrderEvent s = .success s') :
    s' = { s with orderEvents := s.orderEvents ++ events } := by
  refine Attempt.foldlM_induct
    (P := fun events s s' => s' = { s with orderEvents := s.orderEvents ++ events }) ?_ ?_ h
  · intro s; simp
  · rintro x xs s t u hfirst rfl
    obtain ⟨-, rfl⟩ := write_eq_success.mp hfirst
    simp

theorem insertFill_all {fills : List Fill} (h : fills.foldlM Store.insertFill s = .success s') :
    s' = { s with fills := s.fills ++ fills } := by
  refine Attempt.foldlM_induct
    (P := fun fills s s' => s' = { s with fills := s.fills ++ fills }) ?_ ?_ h
  · intro s; simp
  · rintro x xs s t u hfirst rfl
    obtain ⟨-, rfl⟩ := write_eq_success.mp hfirst
    simp

theorem insertFill_unique {fills : List Fill} (h : fills.foldlM Store.insertFill s = .success s')
    (hunique : Table.Unique (·.fillId) s.fills) : Table.Unique (·.fillId) s'.fills := by
  refine Attempt.foldlM_invariant (I := fun s : Store => Table.Unique (·.fillId) s.fills) ?_ h
    hunique
  intro fill _ a b hinsert hfills
  obtain ⟨⟨hfresh, -⟩, rfl⟩ := write_eq_success.mp hinsert
  exact hfills.concat hfresh

end loops

section

variable [Hashing] {s s' : Store}

theorem getAccount_eq_success {accountId : AccountId} {state : PaperAccountState}
    (h : s.getAccount accountId = .success state) :
    ∃ row, s.account accountId = some row ∧ state = s.accountState row ∧
      (∀ balance ∈ state.cash, balance.validate = .success ()) ∧
      (∀ balance ∈ state.positions, balance.validate = .success ()) ∧
      state.validate = .success () := by
  simp only [Store.getAccount, Attempt.bind_eq_success, orFail_eq_success,
    integrityChecked_eq_success, Attempt.forM_eq_success, modelValidate_eq_success] at h
  obtain ⟨row, hrow, _, hcash, _, hpositions, _, -, hvalid, rfl⟩ := h
  exact ⟨row, hrow, rfl, hcash, hpositions, hvalid⟩

/-! ## Registration -/

/-- The store with a new account at its opening. -/
def Store.registered (s : Store) (snapshot : AccountPortfolioSnapshot) (baseCurrency : Currency)
    (now : UTCDateTime) : Store :=
  { s with
    accounts := s.accounts ++ [⟨snapshot.accountId, baseCurrency, 0, 0, 0, none, now, now⟩]
    cash := s.cash ++ snapshot.cash.map (cashRow snapshot)
    positions := s.positions ++ snapshot.positions.map (positionRow snapshot)
    openings := s.openings ++ [snapshot]
    ledger := s.ledger ++ (openingTotals snapshot).map (⟨snapshot.accountId, ·, 0⟩) }

theorem insertRegistration_eq_success {snapshot : AccountPortfolioSnapshot}
    {baseCurrency : Currency} {now : UTCDateTime}
    (h : s.insertRegistration snapshot baseCurrency now = .success s') :
    s' = s.registered snapshot baseCurrency now ∧
      Table.Fresh (·.accountId) snapshot.accountId s.accounts ∧
      Table.Fresh (·.accountId) snapshot.accountId s.openings := by
  simp only [Store.insertRegistration, Store.registerOpeningProjection, Attempt.bind_eq_success]
    at h
  obtain ⟨s₁, haccount, s₂, hcash, s₃, hpositions, s₄, hopening, hledger⟩ := h
  obtain ⟨⟨hfresh, -⟩, rfl⟩ := write_eq_success.mp haccount
  obtain rfl := insertCash_all hcash
  obtain rfl := insertPosition_all hpositions
  obtain ⟨⟨hopen, -⟩, rfl⟩ := write_eq_success.mp hopening
  obtain rfl := insertLedger_all hledger
  exact ⟨rfl, hfresh, hopen⟩

/-- A registration finds the account as it is, or adds it with a readable state. -/
theorem registerAccount_eq_success {snapshot : AccountPortfolioSnapshot} {baseCurrency : Currency}
    {now : UTCDateTime} {state : PaperAccountState}
    (h : s.registerAccount snapshot baseCurrency now = .success (state, s')) :
    s' = s ∨ s' = s.registered snapshot baseCurrency now ∧
      snapshot.ledgerSequence = 0 ∧ snapshot.ledgerHash = none ∧
      Table.Fresh (·.accountId) snapshot.accountId s.accounts ∧
      Table.Fresh (·.accountId) snapshot.accountId s.openings ∧
      s'.getAccount snapshot.accountId = .success state := by
  obtain ⟨_, hgenesis, h⟩ := Attempt.bind_eq_success.mp h
  rw [failUnless_eq_success] at hgenesis
  split at h
  · simp only [Attempt.bind_eq_success, Attempt.pure_eq] at h
    obtain ⟨_, -, _, -, h⟩ := h
    cases h
    exact .inl rfl
  · simp only [mutation_eq_success, Attempt.bind_eq_success, Attempt.pure_eq] at h
    obtain ⟨s₁, hinsert, state₁, hstate, h⟩ := h
    cases h
    obtain ⟨hregistered, hfresh⟩ := insertRegistration_eq_success hinsert
    exact .inr ⟨hregistered, hgenesis.2.2.1, hgenesis.2.2.2.1, hfresh.1, hfresh.2, hstate⟩

omit [Hashing] in
theorem saveTarget_eq_success {target t : PortfolioTarget}
    (h : s.saveTarget target = .success (t, s')) :
    s' = s ∨ s' = { s with targets := s.targets ++ [target] } := by
  unfold Store.saveTarget at h
  split at h <;> simp only [mutation_eq_success, Attempt.bind_eq_success, Attempt.pure_eq,
    write_eq_success] at h
  · obtain ⟨_, -, h⟩ := h
    cases h
    exact .inl rfl
  · obtain ⟨_, -, s₁, ⟨-, rfl⟩, h⟩ := h
    cases h
    exact .inr rfl

omit [Hashing] in
theorem saveRiskDecision_eq_success {decision d : RiskDecision}
    (h : s.saveRiskDecision decision = .success (d, s')) :
    s' = s ∨ s' = { s with decisions := s.decisions ++ [decision] } := by
  unfold Store.saveRiskDecision at h
  split at h <;> simp only [mutation_eq_success, Attempt.bind_eq_success, Attempt.pure_eq,
    write_eq_success] at h
  · obtain ⟨_, -, h⟩ := h
    cases h
    exact .inl rfl
  · obtain ⟨_, -, _, -, s₁, ⟨-, rfl⟩, h⟩ := h
    cases h
    exact .inr rfl

/-! ## Batches -/

omit [Hashing] in
theorem advanceAccount_eq_success {accountId : AccountId} {expected portfolio : ℕ}
    {now : UTCDateTime} {advanced : PaperAccountRow}
    (h : s.advanceAccount accountId expected portfolio now = .success (advanced, s')) :
    ∃ row, s.account accountId = some row ∧ row.aggregateSequence = expected ∧
      row.portfolioSequence = portfolio ∧
      advanced = { row with aggregateSequence := expected + 1, updatedAt := now } ∧
      s' = { s with
        accounts := Table.update (·.accountId = accountId) (fun _ => advanced) s.accounts } := by
  simp only [Store.advanceAccount, Attempt.bind_eq_success, orFail_eq_success, Attempt.pure_eq,
    Store.updateAccount, write_eq_success] at h
  obtain ⟨row, hrow, s₁, ⟨-, rfl⟩, h⟩ := h
  obtain ⟨hrow, hcurrent⟩ := Option.filter_eq_some_iff.mp hrow
  obtain ⟨hsequence, hportfolio⟩ := of_decide_eq_true hcurrent
  cases h
  have hid : row.accountId = accountId := Table.key_of_get hrow
  exact ⟨row, hrow, hsequence, hportfolio, rfl, by rw [hid]⟩

omit [Hashing] in
theorem advanceProjectionSequences_eq_success {accountId : AccountId} {expected new : ℕ}
    (h : s.advanceProjectionSequences accountId expected new = .success s') :
    s' = { s with
      cash := Table.update (·.accountId = accountId) ({ · with updatedSequence := new }) s.cash
      positions :=
        Table.update (·.accountId = accountId) ({ · with updatedSequence := new })
          s.positions } := by
  simp only [Store.advanceProjectionSequences, Attempt.bind_eq_success, Store.updateCash,
    Store.updatePositions, write_eq_success] at h
  obtain ⟨_, -, s₁, ⟨-, rfl⟩, -, rfl⟩ := h
  rfl

/-- The cash rows once the reservation is taken from them. -/
def AccountReservation.holdCash (rows : List PaperCashProjectionRow) (r : AccountReservation) :
    List PaperCashProjectionRow :=
  match r.kind with
  | .cash => Table.update (ReservableCash r) (fun row =>
      { row with
        reservedAmount := row.reservedAmount + r.amount
        updatedSequence := r.accountAggregateSequence }) rows
  | .position => rows

/-- The position rows once the reservation is taken from them. -/
def AccountReservation.holdPosition (rows : List PaperPositionProjectionRow)
    (r : AccountReservation) : List PaperPositionProjectionRow :=
  match r.kind with
  | .cash => rows
  | .position => Table.update (ReservablePosition r) (fun row =>
      { row with
        reservedQuantity := row.reservedQuantity + r.amount
        updatedSequence := r.accountAggregateSequence }) rows

/-- Some row has what the reservation holds. -/
def Available (s : Store) (r : AccountReservation) : Prop :=
  match r.kind with
  | .cash => ∃ row ∈ s.cash, ReservableCash r row
  | .position => ∃ row ∈ s.positions, ReservablePosition r row

omit [Hashing] in
theorem reserveProjection_eq_success {r : AccountReservation}
    (h : s.reserveProjection r = .success s') :
    Available s r ∧
      s' = { s with cash := r.holdCash s.cash, positions := r.holdPosition s.positions } := by
  unfold Store.reserveProjection at h
  unfold Available AccountReservation.holdCash AccountReservation.holdPosition
  cases hkind : r.kind <;>
    simp only [hkind, Attempt.bind_eq_success, failUnless_eq_success, Store.updateCash,
      Store.updatePositions, write_eq_success] at h ⊢
  all_goals
    obtain ⟨_, havailable, -, rfl⟩ := h
    exact ⟨havailable, rfl⟩

omit [Hashing] in
theorem reserveProjection_all {pairs : List ReservationOrderPair}
    (h : pairs.foldlM (fun s pair => s.reserveProjection pair.1.reservation) s = .success s') :
    s' = { s with
      cash := (pairs.map (·.1.reservation)).foldl AccountReservation.holdCash s.cash
      positions :=
        (pairs.map (·.1.reservation)).foldl AccountReservation.holdPosition s.positions } := by
  refine Attempt.foldlM_induct
    (P := fun pairs s s' => s' = { s with
      cash := (pairs.map (·.1.reservation)).foldl AccountReservation.holdCash s.cash
      positions :=
        (pairs.map (·.1.reservation)).foldl AccountReservation.holdPosition s.positions })
    ?_ ?_ h
  · intro s; rfl
  · rintro x xs s t u hfirst rfl
    obtain ⟨-, rfl⟩ := reserveProjection_eq_success hfirst
    rfl

/-- What the insertion of one pair had checked. -/
structure PairAdmitted (s : Store) (pair : ReservationOrderPair) : Prop where
  reservation_fresh : Table.Fresh (·.reservationId) pair.1.reservation.reservationId s.reservations
  order_fresh : Table.Fresh (·.orderIntentId) pair.1.reservation.orderIntentId s.reservations
  checks : Store.ReservationChecks pair.1.reservation
  opened : pair.1.reservation.state = .open_
  genesis : pair.1.reservation.eventSequence = 1
  whole : pair.1.reservation.remainingAmount = pair.1.reservation.amount
  event : s.AdmitsReservationEvent pair.1.event
  intent_fresh : Table.Fresh (·.intentId) pair.2.intentId s.intents
  key_fresh : Table.Fresh (fun r : OrderIntent => (r.accountId, r.idempotencyKey))
    (pair.2.accountId, pair.2.idempotencyKey) s.intents

/-- The store with the rows of one pair. -/
def Store.withPair (s : Store) (pair : ReservationOrderPair) : Store :=
  { s with
    reservations := s.reservations ++ [pair.1.reservation]
    reservationEvents := s.reservationEvents ++ [pair.1.event]
    intents := s.intents ++ [pair.2] }

omit [Hashing] in
theorem insertPair_eq_success {pair : ReservationOrderPair}
    (h : s.insertPair pair = .success s') : PairAdmitted s pair ∧ s' = s.withPair pair := by
  simp only [Store.insertPair, Attempt.bind_eq_success, Store.insertReservation,
    Store.insertReservationEvent, Store.insertIntent, write_eq_success] at h
  obtain ⟨s₁, ⟨⟨h1, h2, h3, h4, h5, h6, -⟩, rfl⟩, s₂, ⟨h7, rfl⟩, ⟨h8, h9, -⟩, rfl⟩ := h
  exact ⟨⟨h1, h2, h3, h4, h5, h6, h7, h8, h9⟩, rfl⟩

omit [Hashing] in
theorem insertPair_all {pairs : List ReservationOrderPair}
    (h : pairs.foldlM Store.insertPair s = .success s') : s' = pairs.foldl Store.withPair s := by
  refine Attempt.foldlM_induct (P := fun pairs s s' => s' = pairs.foldl Store.withPair s) ?_ ?_ h
  · intro s; rfl
  · rintro x xs s t u hfirst rfl
    obtain ⟨-, rfl⟩ := insertPair_eq_success hfirst
    rfl

omit [Hashing] in
theorem foldl_withPair (pairs : List ReservationOrderPair) :
    pairs.foldl Store.withPair s =
      { s with
        reservations := s.reservations ++ pairs.map (·.1.reservation)
        reservationEvents := s.reservationEvents ++ pairs.map (·.1.event)
        intents := s.intents ++ pairs.map (·.2) } := by
  induction pairs generalizing s with
  | nil => simp
  | cons pair pairs ih => simp [ih, Store.withPair]

theorem recordAccountEvent_eq_success {account : PaperAccountRow} {eventType refType : String}
    {refId : UUID} {event : PaperAccountEvent}
    (h : s.recordAccountEvent account eventType refType refId = .success (event, s')) :
    event = newAccountEvent account.accountId account.aggregateSequence eventType refType refId
        account.updatedAt (s.previousAccountHash account.accountId) ∧
      event.validate = .success () ∧ s.AdmitsAccountEvent event ∧
      s' = { s with accountEvents := s.accountEvents ++ [event] } := by
  simp only [Store.recordAccountEvent, Attempt.bind_eq_success, modelValidate_eq_success,
    Store.insertAccountEvent, write_eq_success, Attempt.pure_eq] at h
  obtain ⟨e, ⟨hvalid, rfl⟩, s₁, ⟨hadmits, rfl⟩, h⟩ := h
  cases h
  exact ⟨rfl, hvalid, hadmits, rfl⟩

/-- The account and its projections at the next sequence. -/
def Store.sequencedFor (s : Store) (row : PaperAccountRow) (now : UTCDateTime) : Store :=
  { s with
    accounts := Table.update (·.accountId = row.accountId)
      (fun _ => { row with aggregateSequence := row.aggregateSequence + 1, updatedAt := now })
      s.accounts
    cash := Table.update (·.accountId = row.accountId)
      ({ · with updatedSequence := row.aggregateSequence + 1 }) s.cash
    positions := Table.update (·.accountId = row.accountId)
      ({ · with updatedSequence := row.aggregateSequence + 1 }) s.positions }

/-- The store in which the reservations are taken from the projections. -/
def Store.heldFor (s : Store) (reservations : List AccountReservation) : Store :=
  { s with
    cash := reservations.foldl AccountReservation.holdCash s.cash
    positions := reservations.foldl AccountReservation.holdPosition s.positions }

/-- What a batch that was accepted had checked, and the store it left. -/
structure BatchCreated (s : Store) (ordered : List ReservationOrderPair) (now : UTCDateTime)
    (row : PaperAccountRow) (event : PaperAccountEvent) (s' : Store) : Prop where
  account : s.account row.accountId = some row
  bound : ∀ pair ∈ ordered, PairBound pair
  authorised : ∀ pair ∈ ordered, s.validateReservationOrderInputs pair = .success ()
  identity : batchIdentityIsValid ordered
  account_of : ∀ pair ∈ ordered, pair.1.reservation.accountId = row.accountId
  sequence_of : ∀ pair ∈ ordered,
    pair.1.reservation.accountAggregateSequence = row.aggregateSequence + 1
  reserved : ordered.foldlM (fun s pair => s.reserveProjection pair.1.reservation)
    (s.sequencedFor row now) =
      .success ((s.sequencedFor row now).heldFor (ordered.map (·.1.reservation)))
  event_account : event.accountId = row.accountId
  event_sequence : event.sequence = row.aggregateSequence + 1
  event_valid : event.validate = .success ()
  inserted : ordered.foldlM Store.insertPair
    { (s.sequencedFor row now).heldFor (ordered.map (·.1.reservation)) with
      accountEvents := s.accountEvents ++ [event] } = .success s'

omit [Hashing] in
theorem batchIdentity_inj {q r : AccountReservation} (h : batchIdentity q = batchIdentity r) :
    q.accountId = r.accountId ∧
      q.riskAccountAggregateSequence = r.riskAccountAggregateSequence ∧
      q.accountAggregateSequence = r.accountAggregateSequence := by
  simp only [batchIdentity, List.cons.injEq, dump_string_inj, dump_nat_inj] at h
  exact ⟨h.1, h.2.2.2.2.2.1, h.2.2.2.2.2.2.1⟩

theorem insertReservationOrders_eq_success {first : ReservationOrderPair}
    {rest : List ReservationOrderPair} {now : UTCDateTime} {record : ReservationOrderBatchRecord}
    (h : s.insertReservationOrders (first :: rest) first.1.reservation now =
      .success (record, s')) :
    ∃ row event, BatchCreated s (first :: rest) now row event s' := by
  simp only [Store.insertReservationOrders, Attempt.bind_eq_success, Attempt.forM_eq_success,
    failUnless_eq_success, Attempt.pure_eq, Prod.exists] at h
  obtain ⟨_, hauthorised, _, hidentity, advanced, s₁, hadvance, s₂, hsequences, s₃, hreserve, event,
    s₄, hevent, s₅, hinsert, _, -, record', -, h⟩ := h
  cases h
  obtain ⟨row, hrow, hrisk, -, rfl, rfl⟩ := advanceAccount_eq_success hadvance
  have hbound : ∀ pair ∈ first :: rest, PairBound pair := by
    intro pair hpair
    have := hauthorised pair hpair
    simp only [Store.validateReservationOrderInputs, Attempt.bind_eq_success,
      failUnless_eq_success] at this
    exact this.choose_spec.1
  have hid : row.accountId = first.1.reservation.accountId := Table.key_of_get hrow
  -- the constraint on the reservation's own sequences, from the insertion of the first pair
  have hstep : first.1.reservation.accountAggregateSequence = row.aggregateSequence + 1 := by
    rw [List.foldlM_cons] at hinsert
    obtain ⟨_, hfirst, -⟩ := Attempt.bind_eq_success.mp hinsert
    rw [hrisk, (insertPair_eq_success hfirst).1.checks.2.2.2.2.2.1]
  have hsame : ∀ pair ∈ first :: rest,
      batchIdentity pair.1.reservation = batchIdentity first.1.reservation :=
    fun pair hpair => hidentity.1 pair hpair first (List.mem_cons_self ..)
  obtain rfl := advanceProjectionSequences_eq_success hsequences
  have hheld := reserveProjection_all hreserve
  obtain ⟨heq, hvalid, -, rfl⟩ := recordAccountEvent_eq_success hevent
  have hsequenced : s.sequencedFor row now =
      { s with
        accounts := Table.update (·.accountId = first.1.reservation.accountId)
          (fun _ => { row with
            aggregateSequence := first.1.reservation.riskAccountAggregateSequence + 1
            updatedAt := now }) s.accounts
        cash := Table.update (·.accountId = first.1.reservation.accountId)
          ({ · with updatedSequence := first.1.reservation.accountAggregateSequence }) s.cash
        positions := Table.update (·.accountId = first.1.reservation.accountId)
          ({ · with updatedSequence := first.1.reservation.accountAggregateSequence })
          s.positions } := by
    unfold Store.sequencedFor
    rw [hid, ← hrisk, hstep]
  rw [← hsequenced] at hreserve hheld
  subst hheld
  refine ⟨row, event, ?_⟩
  exact
    { account := hid ▸ hrow
      bound := hbound
      authorised := hauthorised
      identity := hidentity
      account_of := fun pair hpair => (batchIdentity_inj (hsame pair hpair)).1.trans hid.symm
      sequence_of := fun pair hpair => (batchIdentity_inj (hsame pair hpair)).2.2.trans hstep
      reserved := hreserve
      event_account := by rw [heq]; rfl
      event_sequence := by rw [heq, ← hrisk]; rfl
      event_valid := hvalid
      inserted := hinsert }

/-- A batch is found as it is, or created. -/
theorem createReservationOrders_eq_success {pairs : List ReservationOrderPair} {now : UTCDateTime}
    {record : ReservationOrderBatchRecord}
    (h : s.createReservationOrders pairs now = .success (record, s')) :
    s' = s ∨ ∃ row event, BatchCreated s (sorted (·.2.intentId) pairs) now row event s' := by
  unfold Store.createReservationOrders at h
  split at h
  · cases h
  · rename_i first rest hsorted
    simp only at h
    split at h
    · simp only [Attempt.bind_eq_success, Attempt.pure_eq] at h
      obtain ⟨_, -, h⟩ := h
      cases h
      exact .inl rfl
    · rw [mutation_eq_success] at h
      rw [hsorted]
      exact .inr (insertReservationOrders_eq_success h)

omit [Hashing] in
theorem BatchCreated.state [Hashing] {ordered : List ReservationOrderPair} {now : UTCDateTime}
    {row : PaperAccountRow} {event : PaperAccountEvent}
    (h : BatchCreated s ordered now row event s') :
    s' =
      { (s.sequencedFor row now).heldFor (ordered.map (·.1.reservation)) with
        accountEvents := s.accountEvents ++ [event]
        reservations := s.reservations ++ ordered.map (·.1.reservation)
        reservationEvents := s.reservationEvents ++ ordered.map (·.1.event)
        intents := s.intents ++ ordered.map (·.2) } := by
  rw [insertPair_all h.inserted, foldl_withPair]
  rfl

end

end StonksPaper
