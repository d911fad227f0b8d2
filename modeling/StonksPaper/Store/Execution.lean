import StonksPaper.Store.Ledger

/-!
# Persistence of execution outcomes

`trading_execution.py`: an outcome is stored once for an idempotency key, as a continuation of the
stored events, fills and reservation.
-/

namespace StonksPaper

open Chain
open scoped ExactArithmetic

section

variable [Hashing]

/-! ## Reading -/

def Store.getOrderByIdempotency (s : Store) (accountId : AccountId) (key : String) :
    Call OrderIntent := do
  let intent ← orFail .notFound "Paper order was not found" (s.orderFor accountId key)
  integrityChecked "Paper order integrity check failed" <| modelValidate OrderIntent.validate intent

def Store.getReservation (s : Store) (reservationId : UUID) : Call AccountReservation := do
  let row ← orFail .notFound "Paper reservation was not found" (s.reservation reservationId)
  integrityChecked "Paper reservation integrity check failed" <|
    modelValidate AccountReservation.validate row

def Store.listFills (s : Store) (intentId : UUID) : Call (List Fill) :=
  integrityChecked "Paper fill integrity check failed" do
    (s.fillsOf intentId).forM (·.validate)
    return s.fillsOf intentId

def Store.requiredEvents (s : Store) (intentId : UUID) : Call (List OrderEvent) :=
  integrityChecked "Order event integrity check failed" do
    (s.orderEventsOf intentId).forM (·.validate)
    return s.orderEventsOf intentId

/-- `list_order_events`, which also walks the chain. -/
def Store.listOrderEvents (s : Store) (intentId : UUID) : Call (List OrderEvent) := do
  let events ← s.requiredEvents intentId
  failUnless (Linked OrderEvent.link 0 none events) .conflict "Order event chain is invalid"
  return events

def ReservationMutation.validateParts (self : ReservationMutation) : Call Unit := do
  self.reservation.validate
  self.event.validate
  self.validate

/-- The validators of an outcome's parts and then its own. -/
def PaperExecutionOutcome.validateParts (self : PaperExecutionOutcome) : Call Unit := do
  self.receipt.event.validate
  self.receipt.fills.forM (·.validate)
  self.receipt.validate
  self.orderEvents.forM (·.validate)
  self.reservationMutations.forM (·.validateParts)
  self.finalReservation.validate
  self.validate

def recordFromRow (row : PaperExecutionRecord) : Call PaperExecutionRecord :=
  integrityChecked "Paper execution integrity check failed" do
    row.outcome.validateParts
    modelValidate PaperExecutionRecord.validate row

def Store.getExecutionRecord (s : Store) (accountId : AccountId) (key : String) :
    Call PaperExecutionRecord := do
  let row ← orFail .notFound "Paper execution receipt was not found" (s.receiptFor accountId key)
  recordFromRow row

/-! ## Reservations -/

/-- The cash row that a reservation is given back to. -/
def ReleasableCash (r : AccountReservation) (amount : Decimal) (row : PaperCashProjectionRow) :
    Prop :=
  row.accountId = r.accountId ∧ row.currency = r.commodity ∧
  row.updatedSequence = r.accountAggregateSequence ∧ amount ≤ row.reservedAmount

instance (r : AccountReservation) (amount : Decimal) (row : PaperCashProjectionRow) :
    Decidable (ReleasableCash r amount row) := inferInstanceAs (Decidable (_ ∧ _))

/-- The position row that a reservation is given back to. -/
def ReleasablePosition (r : AccountReservation) (amount : Decimal)
    (row : PaperPositionProjectionRow) : Prop :=
  row.accountId = r.accountId ∧ some row.instrumentId = r.instrumentId ∧
  row.updatedSequence = r.accountAggregateSequence ∧ amount ≤ row.reservedQuantity

instance (r : AccountReservation) (amount : Decimal) (row : PaperPositionProjectionRow) :
    Decidable (ReleasablePosition r amount row) := inferInstanceAs (Decidable (_ ∧ _))

/-- The update that both `_release_projection`s make. -/
def Store.releaseReserved (s : Store) (r : AccountReservation) (amount : Decimal)
    (message : String) : Call Store :=
  match r.kind with
  | .cash => do
      failUnless (∃ row ∈ s.cash, ReleasableCash r amount row) .conflict message
      s.updateCash (ReleasableCash r amount) fun row =>
        { row with reservedAmount := row.reservedAmount - amount }
  | .position => do
      failUnless (∃ row ∈ s.positions, ReleasablePosition r amount row) .conflict message
      s.updatePositions (ReleasablePosition r amount) fun row =>
        { row with reservedQuantity := row.reservedQuantity - amount }

def Store.releaseProjection (s : Store) (r : AccountReservation) (decrease : Decimal) :
    Call Store :=
  if decrease = 0 then return s
  else s.releaseReserved r decrease "Reserved projection could not be released"

/-- The row once the columns that may change are those of `current`. -/
def AccountReservation.moved (row current : AccountReservation) : AccountReservation :=
  { row with
    remainingAmount := current.remainingAmount
    state := current.state
    updatedAt := current.updatedAt
    eventSequence := current.eventSequence
    previousEventHash := current.previousEventHash
    eventHash := current.eventHash }

/-- The event and the reservation continue the stored reservation. -/
def MutationApplies (before previous : AccountReservation) (m : ReservationMutation) : Prop :=
  m.reservation.reservationId = before.reservationId ∧
  m.event.sequence = previous.eventSequence + 1 ∧
  m.event.previousEventHash = some previous.eventHash ∧
  m.reservation.previousEventHash = some previous.eventHash

instance (before previous : AccountReservation) (m : ReservationMutation) :
    Decidable (MutationApplies before previous m) := inferInstanceAs (Decidable (_ ∧ _))

/-- What the loop of `_apply_reservation` carries: the row, and the last mutation's reservation. -/
abbrev ReservationProgress := Store × AccountReservation × AccountReservation

def applyMutation (before : AccountReservation) (progress : ReservationProgress)
    (m : ReservationMutation) : Call ReservationProgress := do
  let (s, row, previous) := progress
  failUnless (MutationApplies before previous m) .conflict "Reservation event chain changed"
  let s ← s.insertReservationEvent m.event
  let s ← s.updateReservation row (row.moved m.reservation)
  return (s, row.moved m.reservation, m.reservation)

def Store.applyReservation (s : Store) (before : AccountReservation)
    (outcome : PaperExecutionOutcome) : Call Store :=
  if outcome.reservationMutations = [] then do
    failUnless (outcome.finalReservation = before) .conflict "Reservation changed without event"
    return s
  else do
    let (s, _, previous) ← outcome.reservationMutations.foldlM (applyMutation before)
      (s, before, before)
    failUnless (previous = outcome.finalReservation) .conflict "Reservation outcome is incomplete"
    let decrease := before.remainingAmount - previous.remainingAmount
    failUnless (0 ≤ decrease) .conflict "Reservation remaining amount increased"
    s.releaseProjection before decrease

/-! ## Writing -/

/-- `_validate_identity`. -/
def IdentityHolds (command : ExecutionCommand) (outcome : PaperExecutionOutcome)
    (intent : OrderIntent) (reservation : AccountReservation) : Prop :=
  command.intent = intent ∧ command.commandHash = command.expectedCommandHash ∧
  reservation.reservationId = intent.reservationId ∧
  outcome.receipt.commandId = command.commandId ∧
  outcome.receipt.intentHash = intent.intentHash ∧
  outcome.finalReservation.reservationId = reservation.reservationId

instance (command : ExecutionCommand) (outcome : PaperExecutionOutcome) (intent : OrderIntent)
    (reservation : AccountReservation) :
    Decidable (IdentityHolds command outcome intent reservation) :=
  inferInstanceAs (Decidable (_ ∧ _))

def suffix {α : Type} [DecidableEq α] (complete start : List α) (message : String) :
    Call (List α) := do
  failUnless (start <+: complete) .conflict message
  return complete.drop start.length

/-- The record that an execution stores, before its validators run. -/
def executionRecord (command : ExecutionCommand) (outcome : PaperExecutionOutcome) :
    PaperExecutionRecord :=
  { accountId := command.intent.accountId
    idempotencyKey := command.intent.idempotencyKey
    commandId := command.commandId
    commandHash := command.commandHash
    intentHash := command.intent.intentHash
    outcome }

/-- The part of `apply_paper_execution` after the look-up of a stored record. -/
def Store.persistExecution (s : Store) (command : ExecutionCommand)
    (outcome : PaperExecutionOutcome) : Call (PaperExecutionRecord × Store) := do
  let intent := command.intent
  let order ← orFail .notFound "Execution authority was not found" (s.intent intent.intentId)
  let held ← orFail .notFound "Execution authority was not found"
    (s.reservation intent.reservationId)
  integrityChecked "Paper order integrity check failed" order.validate
  integrityChecked "Paper reservation integrity check failed" held.validate
  failUnless (IdentityHolds command outcome order held) .conflict
    "Paper execution identity changed"
  let priorEvents ← s.requiredEvents intent.intentId
  let priorFills ← s.listFills intent.intentId
  let newEvents ← suffix outcome.orderEvents priorEvents "Persisted order event prefix changed"
  let newFills ← suffix outcome.receipt.fills priorFills "Persisted paper fill prefix changed"
  let s ← s.applyReservation held outcome
  let s ← newEvents.foldlM Store.insertOrderEvent s
  let s ← newFills.foldlM Store.insertFill s
  let record ← modelValidate PaperExecutionRecord.validate (executionRecord command outcome)
  let s ← s.insertReceipt record
  return (record, s)

def Store.applyPaperExecution (s : Store) (command : ExecutionCommand)
    (outcome : PaperExecutionOutcome) (expectedAccountSequence : ℕ) :
    Call (PaperExecutionRecord × Store) :=
  mutation "Paper execution mutation conflicted" do
    let account ← orFail .notFound "Paper account was not found"
      (s.account command.intent.accountId)
    match s.receiptFor command.intent.accountId command.intent.idempotencyKey with
    | some existing => do
        let record ← recordFromRow existing
        failUnless (record.commandHash = command.commandHash) .conflict
          "Execution idempotency payload changed"
        return (record, s)
    | none => do
        failUnless (account.aggregateSequence = expectedAccountSequence) .conflict
          "Execution account sequence is stale"
        s.persistExecution command outcome

end

end StonksPaper
