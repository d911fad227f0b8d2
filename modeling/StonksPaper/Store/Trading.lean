import StonksPaper.Store.Tables

/-!
# Registration and authorisation

`trading_repository.py` and `trading_reservation_batch.py`: an account starts from its opening
snapshot, and a batch of reservations and orders advances the account by one sequence.
-/

namespace StonksPaper

open Chain
open scoped ExactArithmetic

def cashFromRow (row : PaperCashProjectionRow) : CashBalance :=
  ⟨row.currency, row.settledAmount, row.reservedAmount, row.quantum⟩

def positionFromRow (row : PaperPositionProjectionRow) : PositionBalance :=
  ⟨row.instrumentId, row.quantity, row.sellableQuantity, row.reservedQuantity, row.quantum⟩

def cashRow (snapshot : AccountPortfolioSnapshot) (balance : CashBalance) :
    PaperCashProjectionRow :=
  ⟨snapshot.accountId, balance.currency, balance.settledAmount, balance.reservedAmount,
    balance.quantum, 0⟩

def positionRow (snapshot : AccountPortfolioSnapshot) (balance : PositionBalance) :
    PaperPositionProjectionRow :=
  ⟨snapshot.accountId, balance.instrumentId, balance.quantity, balance.sellableQuantity,
    balance.reservedQuantity, balance.quantum, 0⟩

/-- The state that `get_account` reads, before its validators run. -/
def Store.accountState (s : Store) (row : PaperAccountRow) : PaperAccountState :=
  { accountId := row.accountId
    baseCurrency := row.baseCurrency
    accountAggregateSequence := row.aggregateSequence
    portfolioSequence := row.portfolioSequence
    ledgerSequence := row.ledgerSequence
    ledgerHash := row.ledgerHash
    cash := (sorted (·.currency) (s.cashOf row.accountId)).map cashFromRow
    positions := (sorted (·.instrumentId) (s.positionsOf row.accountId)).map positionFromRow
    events := s.accountEventsOf row.accountId
    createdAt := row.createdAt
    updatedAt := row.updatedAt }

section

variable [Hashing]

def Store.getAccount (s : Store) (accountId : AccountId) : Call PaperAccountState := do
  let row ← orFail .notFound "Paper account was not found" (s.account accountId)
  let state := s.accountState row
  integrityChecked "Paper account integrity check failed" do
    state.cash.forM (·.validate)
    state.positions.forM (·.validate)
    state.events.forM (·.validate)
    modelValidate PaperAccountState.validate state

/-! ## Registration -/

def accountMatchesSnapshot (state : PaperAccountState) (snapshot : AccountPortfolioSnapshot)
    (baseCurrency : Currency) : Prop :=
  state.baseCurrency = baseCurrency ∧
  state.accountAggregateSequence = snapshot.accountAggregateSequence ∧
  state.portfolioSequence = snapshot.portfolioSequence ∧
  state.ledgerSequence = snapshot.ledgerSequence ∧ state.ledgerHash = snapshot.ledgerHash ∧
  state.cash = snapshot.cash ∧ state.positions = snapshot.positions

instance (state : PaperAccountState) (snapshot : AccountPortfolioSnapshot)
    (baseCurrency : Currency) : Decidable (accountMatchesSnapshot state snapshot baseCurrency) :=
  inferInstanceAs (Decidable (_ ∧ _))

def Store.registerOpeningProjection (s : Store) (snapshot : AccountPortfolioSnapshot) :
    Call Store := do
  let s ← s.insertOpening snapshot
  (openingTotals snapshot).foldlM
    (fun s balance => s.insertLedger ⟨snapshot.accountId, balance, 0⟩) s

/-- The insertions of `register_account`. -/
def Store.insertRegistration (s : Store) (snapshot : AccountPortfolioSnapshot)
    (baseCurrency : Currency) (now : UTCDateTime) : Call Store := do
  let s ← s.insertAccount ⟨snapshot.accountId, baseCurrency, 0, 0, 0, none, now, now⟩
  let s ← snapshot.cash.foldlM (fun s balance => s.insertCash (cashRow snapshot balance)) s
  let s ← snapshot.positions.foldlM
    (fun s balance => s.insertPosition (positionRow snapshot balance)) s
  s.registerOpeningProjection snapshot

def Store.registerAccount (s : Store) (snapshot : AccountPortfolioSnapshot)
    (baseCurrency : Currency) (now : UTCDateTime) : Call (PaperAccountState × Store) := do
  failUnless (snapshot.accountAggregateSequence = 0 ∧ snapshot.portfolioSequence = 0 ∧
    snapshot.ledgerSequence = 0 ∧ snapshot.ledgerHash = none ∧ snapshot.pendingOrderIds = [])
    .invalidInput "Paper account must start at genesis"
  match s.account snapshot.accountId with
  | some _ => do
      let state ← s.getAccount snapshot.accountId
      failUnless (accountMatchesSnapshot state snapshot baseCurrency) .conflict
        "Paper account identity already exists"
      return (state, s)
  | none =>
      mutation "Paper account registration conflicted" do
        let s ← s.insertRegistration snapshot baseCurrency now
        let state ← s.getAccount snapshot.accountId
        return (state, s)

/-! ## Targets and decisions -/

def Store.saveTarget (s : Store) (target : PortfolioTarget) : Call (PortfolioTarget × Store) :=
  match Table.get (·.targetId) s.targets target.targetId with
  | some existing => do
      failUnless (existing = target) .conflict "Portfolio target id already exists"
      return (target, s)
  | none =>
      mutation "Portfolio target registration conflicted" do
        failUnless (s.account target.accountId ≠ none) .notFound "Paper account was not found"
        let s ← write (Table.Fresh (·.calculationHash) target.calculationHash s.targets)
          "portfolio target is not unique" { s with targets := s.targets ++ [target] }
        return (target, s)

def riskMatchesTarget (decision : RiskDecision) (target : PortfolioTarget) : Prop :=
  decision.accountId = target.accountId ∧ decision.inputTargetHash = target.calculationHash ∧
  decision.accountAggregateSequence = target.accountAggregateSequence ∧
  decision.portfolioSequence = target.portfolioSequence

instance (decision : RiskDecision) (target : PortfolioTarget) :
    Decidable (riskMatchesTarget decision target) := inferInstanceAs (Decidable (_ ∧ _))

def Store.saveRiskDecision (s : Store) (decision : RiskDecision) : Call (RiskDecision × Store) :=
  match Table.get (·.decisionId) s.decisions decision.decisionId with
  | some existing => do
      failUnless (existing = decision) .conflict "Risk decision id already exists"
      return (decision, s)
  | none =>
      mutation "Risk decision registration conflicted" do
        let target ← orFail .notFound "Portfolio target was not found"
          (Table.get (·.targetId) s.targets decision.portfolioTargetId)
        failUnless (riskMatchesTarget decision target) .conflict "Risk target binding mismatch"
        let s ← write (Table.Fresh (·.decisionHash) decision.decisionHash s.decisions)
          "risk decision is not unique" { s with decisions := s.decisions ++ [decision] }
        return (decision, s)

/-! ## Batches of reservations and orders -/

abbrev ReservationOrderPair := ReservationMutation × OrderIntent

/-- The first check of `_validate_reservation_order_inputs`. -/
def PairBound (pair : ReservationOrderPair) : Prop :=
  pair.1.reservation.orderIntentId = pair.2.intentId ∧
  pair.1.reservation.reservationId = pair.2.reservationId ∧
  pair.1.reservation.eventHash = pair.2.reservationHash ∧
  pair.1.reservation.riskDecisionId = pair.2.riskDecisionId ∧
  pair.1.reservation.portfolioTargetId = pair.2.portfolioTargetId ∧
  pair.1.reservation.accountId = pair.2.accountId ∧
  pair.1.reservation.accountAggregateSequence = pair.2.accountAggregateSequence

instance (pair : ReservationOrderPair) : Decidable (PairBound pair) :=
  inferInstanceAs (Decidable (_ ∧ _))

def Store.validateReservationOrderInputs (s : Store) (pair : ReservationOrderPair) : Call Unit := do
  let reservation := pair.1.reservation
  failUnless (PairBound pair) .conflict "Reservation/order binding mismatch"
  let risk ← orFail .notFound "Trading authorization was not found"
    (Table.get (·.decisionId) s.decisions reservation.riskDecisionId)
  let target ← orFail .notFound "Trading authorization was not found"
    (Table.get (·.targetId) s.targets reservation.portfolioTargetId)
  failUnless (risk.decisionHash = reservation.riskDecisionHash ∧
    target.calculationHash = reservation.authorizedTargetHash ∧
    risk.authorizedTargetHash = some reservation.authorizedTargetHash ∧ risk.approved = true)
    .conflict "Trading authorization mismatch"

/-- The identity that all reservations of a batch share. -/
def batchIdentity (r : AccountReservation) : List Payload :=
  [dump r.accountId, dump r.riskDecisionId, dump r.riskDecisionHash, dump r.portfolioTargetId,
    dump r.authorizedTargetHash, dump r.riskAccountAggregateSequence,
    dump r.accountAggregateSequence, dump r.portfolioSequence]

def batchIdentityIsValid (pairs : List ReservationOrderPair) : Prop :=
  (∀ p ∈ pairs, ∀ q ∈ pairs, batchIdentity p.1.reservation = batchIdentity q.1.reservation) ∧
  (pairs.map (·.1.reservation.reservationId)).Nodup ∧ (pairs.map (·.2.intentId)).Nodup ∧
  (pairs.map (·.2.idempotencyKey)).Nodup ∧ (pairs.map (·.2.instrumentId)).Nodup

instance (pairs : List ReservationOrderPair) : Decidable (batchIdentityIsValid pairs) :=
  inferInstanceAs (Decidable (_ ∧ _))

def Store.itemFromRow (s : Store) (intent : OrderIntent) : Call ReservationOrderItem := do
  match s.reservation intent.reservationId,
      Table.get (·.sequence) (s.reservationEventsOf intent.reservationId) 1 with
  | some reservation, some event =>
      reservation.validate
      event.validate
      modelValidate ReservationOrderItem.validate ⟨reservation, event, intent⟩
  | _, _ => .raised (.valueError "reservation/order item is incomplete")

/-- `existing_reservation_order_batch`, when some of the orders are stored. -/
def Store.existingReservationOrderBatch (s : Store) (pairs : List ReservationOrderPair)
    (rows : List (Option OrderIntent)) : Call ReservationOrderBatchRecord := do
  failUnless (none ∉ rows) .conflict "Reservation/order batch is partial"
  let persisted := rows.reduceOption
  failUnless (persisted.map (·.intentHash) = pairs.map (·.2.intentHash)) .conflict
    "Order idempotency payload changed"
  let event ← orFail .conflict "Reservation/order batch event is missing" do
    let first ← pairs.head?
    s.accountEvents.find? fun e =>
      e.accountId = first.1.reservation.accountId ∧ e.aggregateRefType = "reservation_orders" ∧
        e.aggregateRefId = first.1.reservation.riskDecisionId
  integrityChecked "Reservation/order batch integrity check failed" do
    let items ← persisted.mapM s.itemFromRow
    event.validate
    modelValidate ReservationOrderBatchRecord.validate ⟨items, event⟩

/-- `_advance_account`, as a batch calls it. -/
def Store.advanceAccount (s : Store) (accountId : AccountId)
    (expectedSequence portfolioSequence : ℕ) (now : UTCDateTime) :
    Call (PaperAccountRow × Store) := do
  let row ← orFail .conflict "Paper account CAS failed" <|
    (s.account accountId).filter fun row =>
      row.aggregateSequence = expectedSequence ∧ row.portfolioSequence = portfolioSequence
  let advanced := { row with aggregateSequence := expectedSequence + 1, updatedAt := now }
  let s ← s.updateAccount row advanced
  return (advanced, s)

def Store.advanceProjectionSequences (s : Store) (accountId : AccountId)
    (expectedSequence newSequence : ℕ) : Call Store := do
  failUnless ((∀ row ∈ s.cashOf accountId, row.updatedSequence = expectedSequence) ∧
    ∀ row ∈ s.positionsOf accountId, row.updatedSequence = expectedSequence) .conflict
    "Paper account projection sequence is stale"
  let s ← s.updateCash (·.accountId = accountId) ({ · with updatedSequence := newSequence })
  s.updatePositions (·.accountId = accountId) ({ · with updatedSequence := newSequence })

/-- The cash row that a reservation is taken from. -/
def ReservableCash (r : AccountReservation) (row : PaperCashProjectionRow) : Prop :=
  row.accountId = r.accountId ∧ row.currency = r.commodity ∧ row.quantum = r.quantum ∧
  row.updatedSequence = r.accountAggregateSequence ∧
  row.reservedAmount + r.amount ≤ row.settledAmount

instance (r : AccountReservation) (row : PaperCashProjectionRow) :
    Decidable (ReservableCash r row) := inferInstanceAs (Decidable (_ ∧ _))

/-- The position row that a reservation is taken from. -/
def ReservablePosition (r : AccountReservation) (row : PaperPositionProjectionRow) : Prop :=
  row.accountId = r.accountId ∧ some row.instrumentId = r.instrumentId ∧
  row.quantum = r.quantum ∧ row.updatedSequence = r.accountAggregateSequence ∧
  row.reservedQuantity + r.amount ≤ row.sellableQuantity

instance (r : AccountReservation) (row : PaperPositionProjectionRow) :
    Decidable (ReservablePosition r row) := inferInstanceAs (Decidable (_ ∧ _))

def Store.reserveProjection (s : Store) (r : AccountReservation) : Call Store :=
  match r.kind with
  | .cash => do
      failUnless (∃ row ∈ s.cash, ReservableCash r row) .conflict
        "Available balance is insufficient"
      s.updateCash (ReservableCash r) fun row =>
        { row with
          reservedAmount := row.reservedAmount + r.amount
          updatedSequence := r.accountAggregateSequence }
  | .position => do
      failUnless (∃ row ∈ s.positions, ReservablePosition r row) .conflict
        "Available balance is insufficient"
      s.updatePositions (ReservablePosition r) fun row =>
        { row with
          reservedQuantity := row.reservedQuantity + r.amount
          updatedSequence := r.accountAggregateSequence }

def Store.previousAccountHash (s : Store) (accountId : AccountId) : Option Sha256 :=
  (s.accountEventsOf accountId).getLast?.map (·.eventHash)

/-- The rows of one reservation and its order. -/
def Store.insertPair (s : Store) (pair : ReservationOrderPair) : Call Store := do
  let s ← s.insertReservation pair.1.reservation
  let s ← s.insertReservationEvent pair.1.event
  s.insertIntent pair.2

/-- `new_account_event`, which validates, and the row it adds. -/
def Store.recordAccountEvent (s : Store) (account : PaperAccountRow)
    (eventType aggregateRefType : String) (aggregateRefId : UUID) :
    Call (PaperAccountEvent × Store) := do
  let event ← modelValidate PaperAccountEvent.validate <|
    newAccountEvent account.accountId account.aggregateSequence eventType aggregateRefType
      aggregateRefId account.updatedAt (s.previousAccountHash account.accountId)
  let s ← s.insertAccountEvent event
  return (event, s)

/-- `mutate` of `create_reservation_orders`, for pairs in the order of their intents. -/
def Store.insertReservationOrders (s : Store) (ordered : List ReservationOrderPair)
    (first : AccountReservation) (now : UTCDateTime) :
    Call (ReservationOrderBatchRecord × Store) := do
  ordered.forM s.validateReservationOrderInputs
  failUnless (batchIdentityIsValid ordered) .conflict
    "Reservation/order batch identity is inconsistent"
  let (account, s) ← s.advanceAccount first.accountId first.riskAccountAggregateSequence
    first.portfolioSequence now
  let s ← s.advanceProjectionSequences first.accountId first.riskAccountAggregateSequence
    first.accountAggregateSequence
  let s ← ordered.foldlM (fun s pair => s.reserveProjection pair.1.reservation) s
  let (event, s) ← s.recordAccountEvent account "reservation_orders.created" "reservation_orders"
    first.riskDecisionId
  let s ← ordered.foldlM insertPair s
  let items := ordered.map fun pair => ⟨pair.1.reservation, pair.1.event, pair.2⟩
  items.forM (·.validate)
  let record ← modelValidate ReservationOrderBatchRecord.validate ⟨items, event⟩
  return (record, s)

def Store.createReservationOrders (s : Store) (pairs : List ReservationOrderPair)
    (now : UTCDateTime) : Call (ReservationOrderBatchRecord × Store) :=
  match sorted (·.2.intentId) pairs with
  | [] => fail .invalidInput "Reservation/order batch is empty"
  | first :: rest =>
      let ordered := first :: rest
      let rows := ordered.map fun pair => s.orderFor pair.2.accountId pair.2.idempotencyKey
      if rows.any (·.isSome) then do
        let record ← s.existingReservationOrderBatch ordered rows
        return (record, s)
      else
        mutation "Reservation/order batch mutation conflicted" <|
          s.insertReservationOrders ordered first.1.reservation now

end

end StonksPaper
