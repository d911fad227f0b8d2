import StonksPaper.Base.Table
import StonksPaper.Domain.Operations
import StonksPaper.Ledger.Replay

/-!
# The paper store

One list for each table of the migrations, and the statements that write to them with the
constraints and triggers that refuse them. A row that holds a payload with indexed copies of its
fields is the payload. Constraints that are deferred to the commit are not part of a statement.
-/

namespace StonksPaper

open Chain
open scoped ExactArithmetic

structure PaperAccountRow where
  accountId : AccountId
  baseCurrency : Currency
  aggregateSequence : ℕ
  portfolioSequence : ℕ
  ledgerSequence : ℕ
  ledgerHash : Option Sha256
  createdAt : UTCDateTime
  updatedAt : UTCDateTime
deriving DecidableEq

structure PaperCashProjectionRow where
  accountId : AccountId
  currency : Currency
  settledAmount : Decimal
  reservedAmount : Decimal
  quantum : Decimal
  updatedSequence : ℕ
deriving DecidableEq

structure PaperPositionProjectionRow where
  accountId : AccountId
  instrumentId : UUID
  quantity : Decimal
  sellableQuantity : Decimal
  reservedQuantity : Decimal
  quantum : Decimal
  updatedSequence : ℕ
deriving DecidableEq

structure PaperLedgerAccountProjectionRow where
  accountId : AccountId
  balance : LedgerAccountBalance
  updatedLedgerSequence : ℕ
deriving DecidableEq

structure PaperOperatorAuditHeadRow where
  sequence : ℕ
  actionHash : Option Sha256
deriving DecidableEq

structure Store where
  accounts : List PaperAccountRow
  accountEvents : List PaperAccountEvent
  cash : List PaperCashProjectionRow
  positions : List PaperPositionProjectionRow
  ledger : List PaperLedgerAccountProjectionRow
  openings : List AccountPortfolioSnapshot
  targets : List PortfolioTarget
  decisions : List RiskDecision
  reservations : List AccountReservation
  reservationEvents : List ReservationEvent
  intents : List OrderIntent
  orderEvents : List OrderEvent
  fills : List Fill
  receipts : List PaperExecutionRecord
  journal : List JournalTransaction
  switches : List PaperKillSwitchState
  actions : List PaperOperatorAction
  auditHead : PaperOperatorAuditHeadRow
deriving DecidableEq

/-- The store as the migrations leave it: the global switch exists and is inactive. -/
def Store.migrated (at_ : UTCDateTime) : Store where
  accounts := []
  accountEvents := []
  cash := []
  positions := []
  ledger := []
  openings := []
  targets := []
  decisions := []
  reservations := []
  reservationEvents := []
  intents := []
  orderEvents := []
  fills := []
  receipts := []
  journal := []
  switches := [⟨46, .global, none, false, "initialized", "system:migration", 1, at_, at_⟩]
  actions := []
  auditHead := ⟨0, none⟩

/-- A statement on the store: refused by the database unless the condition holds. -/
def write (c : Prop) [Decidable c] (message : String) (store : Store) : Call Store := do
  guardUnless c message
  return store

@[simp] theorem write_eq_success {c : Prop} [Decidable c] {m : String} {s s' : Store} :
    write c m s = .success s' ↔ c ∧ s = s' := by
  simp [write, Attempt.bind_eq_success]

namespace Store

variable (s : Store)

/-! ## Queries -/

def account (accountId : AccountId) : Option PaperAccountRow :=
  Table.get (·.accountId) s.accounts accountId

def intent (intentId : UUID) : Option OrderIntent := Table.get (·.intentId) s.intents intentId

def reservation (reservationId : UUID) : Option AccountReservation :=
  Table.get (·.reservationId) s.reservations reservationId

def opening (accountId : AccountId) : Option AccountPortfolioSnapshot :=
  Table.get (·.accountId) s.openings accountId

def cashOf (accountId : AccountId) : List PaperCashProjectionRow :=
  s.cash.filter (·.accountId = accountId)

def positionsOf (accountId : AccountId) : List PaperPositionProjectionRow :=
  s.positions.filter (·.accountId = accountId)

def ledgerOf (accountId : AccountId) : List PaperLedgerAccountProjectionRow :=
  s.ledger.filter (·.accountId = accountId)

/-- `... where account_id = accountId order by sequence`. -/
def accountEventsOf (accountId : AccountId) : List PaperAccountEvent :=
  sorted (·.sequence) (s.accountEvents.filter (·.accountId = accountId))

def journalOf (accountId : AccountId) : List JournalTransaction :=
  sorted (·.sequence) (s.journal.filter (·.accountId = accountId))

def reservationEventsOf (reservationId : UUID) : List ReservationEvent :=
  sorted (·.sequence) (s.reservationEvents.filter (·.reservationId = reservationId))

def orderEventsOf (intentId : UUID) : List OrderEvent :=
  sorted (·.sequence) (s.orderEvents.filter (·.orderIntentId = intentId))

/-- `... where order_intent_id = intentId order by fill_id`. -/
def fillsOf (intentId : UUID) : List Fill :=
  sorted (·.fillId) (s.fills.filter (·.orderIntentId = intentId))

/-- `... where account_id = accountId and idempotency_key = key`. -/
def receiptFor (accountId : AccountId) (key : String) : Option PaperExecutionRecord :=
  s.receipts.find? fun r => r.accountId = accountId ∧ r.idempotencyKey = key

def orderFor (accountId : AccountId) (key : String) : Option OrderIntent :=
  s.intents.find? fun i => i.accountId = accountId ∧ i.idempotencyKey = key

def switch (scope : KillSwitchScope) (accountId : Option AccountId) : List PaperKillSwitchState :=
  s.switches.filter fun w => w.scope = scope ∧ w.accountId = accountId

end Store

/-! ## Accounts -/

/-- `validate_paper_account_mutation` on an update. -/
def PaperAccountRow.Follows (old new : PaperAccountRow) : Prop :=
  new.accountId = old.accountId ∧ new.baseCurrency = old.baseCurrency ∧
  new.aggregateSequence = old.aggregateSequence + 1 ∧
  (new.portfolioSequence = old.portfolioSequence ∨
    new.portfolioSequence = old.portfolioSequence + 1) ∧
  (new.ledgerSequence = old.ledgerSequence ∧ new.ledgerHash = old.ledgerHash ∨
    new.ledgerSequence = old.ledgerSequence + 1 ∧ new.ledgerHash ≠ none)

instance (old new : PaperAccountRow) : Decidable (old.Follows new) :=
  inferInstanceAs (Decidable (_ ∧ _))

namespace Store

variable (s : Store)

def insertAccount (row : PaperAccountRow) : Call Store :=
  write (Table.Fresh (·.accountId) row.accountId s.accounts ∧ row.aggregateSequence = 0 ∧
    row.portfolioSequence = 0 ∧ row.ledgerSequence = 0 ∧ row.ledgerHash = none)
    "paper account must start at genesis" { s with accounts := s.accounts ++ [row] }

/-- `update paper_account set ... where account_id = row.account_id`. -/
def updateAccount (row new : PaperAccountRow) : Call Store :=
  write (row.Follows new) "paper account CAS mutation is invalid"
    { s with accounts := Table.update (·.accountId = row.accountId) (fun _ => new) s.accounts }

/-- `validate_paper_account_event_chain` and the unique keys. -/
def AdmitsAccountEvent (event : PaperAccountEvent) : Prop :=
  (∃ row ∈ s.account event.accountId, event.sequence = row.aggregateSequence) ∧
  (if event.sequence = 1 then
      s.accountEventsOf event.accountId = [] ∧ event.previousHash = none
    else ∃ prior ∈ (s.accountEventsOf event.accountId).getLast?,
      event.sequence = prior.sequence + 1 ∧ event.previousHash = some prior.eventHash ∧
        prior.occurredAt ≤ event.occurredAt) ∧
  0 < event.sequence ∧ Table.Fresh (·.eventId) event.eventId s.accountEvents ∧
  Table.Fresh (·.eventHash) event.eventHash s.accountEvents

instance (event : PaperAccountEvent) : Decidable (s.AdmitsAccountEvent event) :=
  inferInstanceAs (Decidable (_ ∧ _))

def insertAccountEvent (event : PaperAccountEvent) : Call Store :=
  write (s.AdmitsAccountEvent event) "paper account event chain is invalid"
    { s with accountEvents := s.accountEvents ++ [event] }

def insertOpening (snapshot : AccountPortfolioSnapshot) [Hashing] : Call Store :=
  write (Table.Fresh (·.accountId) snapshot.accountId s.openings ∧
    Table.Fresh (·.snapshotId) snapshot.snapshotId s.openings ∧
    Table.Fresh (·.snapshotHash) snapshot.snapshotHash s.openings)
    "paper account opening snapshot is not unique" { s with openings := s.openings ++ [snapshot] }

/-! ## Projections -/

/-- The check constraints and the trigger of `paper_cash_projection`. -/
def AdmitsCash (row : PaperCashProjectionRow) : Prop :=
  (∃ account ∈ s.account row.accountId, row.updatedSequence = account.aggregateSequence) ∧
  0 ≤ row.reservedAmount ∧ row.reservedAmount ≤ row.settledAmount ∧
  IsQuantized row.settledAmount row.quantum ∧ IsQuantized row.reservedAmount row.quantum

instance (row : PaperCashProjectionRow) : Decidable (s.AdmitsCash row) :=
  inferInstanceAs (Decidable (_ ∧ _))

/-- The check constraints and the trigger of `paper_position_projection`. -/
def AdmitsPosition (row : PaperPositionProjectionRow) : Prop :=
  (∃ account ∈ s.account row.accountId, row.updatedSequence = account.aggregateSequence) ∧
  0 ≤ row.reservedQuantity ∧ row.reservedQuantity ≤ row.sellableQuantity ∧
  row.sellableQuantity ≤ row.quantity ∧ IsQuantized row.quantity row.quantum ∧
  IsQuantized row.sellableQuantity row.quantum ∧ IsQuantized row.reservedQuantity row.quantum

instance (row : PaperPositionProjectionRow) : Decidable (s.AdmitsPosition row) :=
  inferInstanceAs (Decidable (_ ∧ _))

def insertCash (row : PaperCashProjectionRow) : Call Store :=
  write (s.AdmitsCash row ∧
    Table.Fresh (fun r => (r.accountId, r.currency)) (row.accountId, row.currency) s.cash)
    "paper cash projection is invalid" { s with cash := s.cash ++ [row] }

def insertPosition (row : PaperPositionProjectionRow) : Call Store :=
  write (s.AdmitsPosition row ∧
    Table.Fresh (fun r => (r.accountId, r.instrumentId)) (row.accountId, row.instrumentId)
      s.positions)
    "paper position projection is invalid" { s with positions := s.positions ++ [row] }

/-- `update paper_cash_projection set ... where ...`: each changed row is checked. -/
def updateCash (p : PaperCashProjectionRow → Prop) [DecidablePred p]
    (f : PaperCashProjectionRow → PaperCashProjectionRow) : Call Store :=
  write (∀ row ∈ s.cash, p row → s.AdmitsCash (f row)) "paper cash projection is invalid"
    { s with cash := Table.update p f s.cash }

def updatePositions (p : PaperPositionProjectionRow → Prop) [DecidablePred p]
    (f : PaperPositionProjectionRow → PaperPositionProjectionRow) : Call Store :=
  write (∀ row ∈ s.positions, p row → s.AdmitsPosition (f row))
    "paper position projection is invalid" { s with positions := Table.update p f s.positions }

/-- The check constraints and the trigger of `paper_ledger_account_projection`. -/
def AdmitsLedger (row : PaperLedgerAccountProjectionRow) : Prop :=
  (∃ account ∈ s.account row.accountId, row.updatedLedgerSequence ≤ account.ledgerSequence) ∧
  0 ≤ row.balance.debitTotal ∧ 0 ≤ row.balance.creditTotal ∧
  IsQuantized row.balance.debitTotal row.balance.quantum ∧
  IsQuantized row.balance.creditTotal row.balance.quantum

instance (row : PaperLedgerAccountProjectionRow) : Decidable (s.AdmitsLedger row) :=
  inferInstanceAs (Decidable (_ ∧ _))

def insertLedger (row : PaperLedgerAccountProjectionRow) : Call Store :=
  write (s.AdmitsLedger row ∧ Table.Fresh (fun r => (r.accountId, r.balance.key))
      (row.accountId, row.balance.key) s.ledger)
    "paper ledger projection is invalid" { s with ledger := s.ledger ++ [row] }

/-- Totals never fall and the ledger sequence of a changed row rises. -/
def updateLedger (p : PaperLedgerAccountProjectionRow → Prop) [DecidablePred p]
    (f : PaperLedgerAccountProjectionRow → PaperLedgerAccountProjectionRow) : Call Store :=
  write (∀ row ∈ s.ledger, p row → s.AdmitsLedger (f row) ∧
      row.balance.debitTotal ≤ (f row).balance.debitTotal ∧
      row.balance.creditTotal ≤ (f row).balance.creditTotal ∧
      row.updatedLedgerSequence < (f row).updatedLedgerSequence)
    "paper ledger projection mutation is invalid" { s with ledger := Table.update p f s.ledger }

/-! ## Reservations -/

/-- The columns of a reservation that no update may change. -/
def SameReservation (old new : AccountReservation) : Prop :=
  new = { old with
    remainingAmount := new.remainingAmount
    state := new.state
    updatedAt := new.updatedAt
    eventSequence := new.eventSequence
    previousEventHash := new.previousEventHash
    eventHash := new.eventHash }

instance (old new : AccountReservation) : Decidable (SameReservation old new) :=
  inferInstanceAs (Decidable (_ = _))

/-- The check constraints of `account_reservation`. -/
def ReservationChecks (r : AccountReservation) : Prop :=
  0 < r.amount ∧ 0 ≤ r.remainingAmount ∧ r.remainingAmount ≤ r.amount ∧
  IsQuantized r.amount r.quantum ∧ IsQuantized r.remainingAmount r.quantum ∧
  r.accountAggregateSequence = r.riskAccountAggregateSequence + 1 ∧
  (r.eventSequence = 1 ↔ r.previousEventHash = none)

instance (r : AccountReservation) : Decidable (ReservationChecks r) :=
  inferInstanceAs (Decidable (_ ∧ _))

def insertReservation (r : AccountReservation) : Call Store :=
  write (Table.Fresh (·.reservationId) r.reservationId s.reservations ∧
    Table.Fresh (·.orderIntentId) r.orderIntentId s.reservations ∧ ReservationChecks r ∧
    r.state = .open_ ∧ r.eventSequence = 1 ∧ r.remainingAmount = r.amount ∧
    s.account r.accountId ≠ none)
    "reservation genesis is invalid" { s with reservations := s.reservations ++ [r] }

/-- `validate_account_reservation_projection` on an update. -/
def updateReservation (old new : AccountReservation) : Call Store :=
  write (SameReservation old new ∧ new.eventSequence = old.eventSequence + 1 ∧
    new.previousEventHash = some old.eventHash ∧ new.remainingAmount ≤ old.remainingAmount ∧
    ReservationChecks new)
    "reservation projection mutation is invalid"
    { s with
      reservations :=
        Table.update (·.reservationId = old.reservationId) (fun _ => new) s.reservations }

/-- `validate_reservation_event_chain` and the unique keys. -/
def AdmitsReservationEvent (event : ReservationEvent) : Prop :=
  (if event.sequence = 1 then
      s.reservationEventsOf event.reservationId = [] ∧ event.previousEventHash = none ∧
        event.fromState = none ∧ event.toState = .open_
    else ∃ prior ∈ (s.reservationEventsOf event.reservationId).getLast?,
      event.sequence = prior.sequence + 1 ∧ event.previousEventHash = some prior.eventHash ∧
        event.fromState = some prior.toState ∧ prior.occurredAt ≤ event.occurredAt) ∧
  0 < event.sequence ∧ Table.Fresh (·.eventId) event.eventId s.reservationEvents ∧
  Table.Fresh (·.eventHash) event.eventHash s.reservationEvents

instance (event : ReservationEvent) : Decidable (s.AdmitsReservationEvent event) :=
  inferInstanceAs (Decidable (_ ∧ _))

def insertReservationEvent (event : ReservationEvent) : Call Store :=
  write (s.AdmitsReservationEvent event) "reservation event chain is invalid"
    { s with reservationEvents := s.reservationEvents ++ [event] }

/-! ## Orders -/

def insertIntent (i : OrderIntent) : Call Store :=
  write (Table.Fresh (·.intentId) i.intentId s.intents ∧
    Table.Fresh (fun r => (r.accountId, r.idempotencyKey)) (i.accountId, i.idempotencyKey)
      s.intents ∧
    Table.Fresh (·.intentHash) i.intentHash s.intents)
    "order intent is not unique" { s with intents := s.intents ++ [i] }

/-- `validate_order_event_chain` and the unique keys. -/
def AdmitsOrderEvent (event : OrderEvent) : Prop :=
  s.intent event.orderIntentId ≠ none ∧
  (if event.sequence = 1 then
      s.orderEventsOf event.orderIntentId = [] ∧ event.previousEventHash = none ∧
        event.fromStatus = .created
    else ∃ prior ∈ (s.orderEventsOf event.orderIntentId).getLast?,
      event.sequence = prior.sequence + 1 ∧ event.previousEventHash = some prior.eventHash ∧
        event.fromStatus = prior.toStatus ∧
        prior.cumulativeFilledQuantity ≤ event.cumulativeFilledQuantity ∧
        prior.occurredAt ≤ event.occurredAt) ∧
  event.toStatus ∈ event.fromStatus.transitions ∧
  0 < event.sequence ∧ Table.Fresh (·.eventId) event.eventId s.orderEvents ∧
  Table.Fresh (·.eventHash) event.eventHash s.orderEvents

instance (event : OrderEvent) : Decidable (s.AdmitsOrderEvent event) :=
  inferInstanceAs (Decidable (_ ∧ _))

def insertOrderEvent (event : OrderEvent) : Call Store :=
  write (s.AdmitsOrderEvent event) "order event chain is invalid"
    { s with orderEvents := s.orderEvents ++ [event] }

def insertFill (fill : Fill) : Call Store :=
  write (Table.Fresh (·.fillId) fill.fillId s.fills ∧ s.intent fill.orderIntentId ≠ none ∧
    s.account fill.accountId ≠ none) "paper fill is not unique"
    { s with fills := s.fills ++ [fill] }

def insertReceipt (record : PaperExecutionRecord) : Call Store :=
  write (Table.Fresh (·.outcome.receipt.receiptId) record.outcome.receipt.receiptId s.receipts ∧
    Table.Fresh (fun r => (r.accountId, r.idempotencyKey))
      (record.accountId, record.idempotencyKey) s.receipts ∧
    Table.Fresh (·.commandId) record.commandId s.receipts ∧
    Table.Fresh (·.outcome.receipt.receiptHash) record.outcome.receipt.receiptHash s.receipts ∧
    Table.Fresh (·.outcome.outcomeHash) record.outcome.outcomeHash s.receipts)
    "paper execution receipt is not unique" { s with receipts := s.receipts ++ [record] }

/-! ## The journal -/

/-- `validate_journal_transaction_chain`, the foreign keys and the unique keys. -/
def AdmitsJournal (t : JournalTransaction) : Prop :=
  (if t.sequence = 1 then s.journalOf t.accountId = [] ∧ t.previousHash = none
    else ∃ prior ∈ (s.journalOf t.accountId).getLast?,
      t.sequence = prior.sequence + 1 ∧ t.previousHash = some prior.transactionHash ∧
        prior.occurredAt ≤ t.occurredAt) ∧
  0 < t.sequence ∧ s.account t.accountId ≠ none ∧
  ¬ Table.Fresh (·.fillId) t.sourceFillId s.fills ∧
  s.intent t.sourceOrderIntentId ≠ none ∧
  Table.Fresh (·.transactionId) t.transactionId s.journal ∧
  Table.Fresh (·.transactionHash) t.transactionHash s.journal ∧
  Table.Fresh (·.sourceFillId) t.sourceFillId s.journal

instance (t : JournalTransaction) : Decidable (s.AdmitsJournal t) :=
  inferInstanceAs (Decidable (_ ∧ _))

/-- The constraints of `journal_posting`. -/
def AdmitsPostings (postings : List JournalPosting) : Prop :=
  2 ≤ postings.length ∧ (postings.map (·.postingId)).Nodup ∧
  ∀ p ∈ postings, 0 < p.amount ∧ IsQuantized p.amount p.quantum ∧
    ∀ t ∈ s.journal, Table.Fresh (·.postingId) p.postingId t.postings

instance (postings : List JournalPosting) : Decidable (s.AdmitsPostings postings) :=
  inferInstanceAs (Decidable (_ ∧ _))

def insertJournal (t : JournalTransaction) : Call Store :=
  write (s.AdmitsJournal t ∧ s.AdmitsPostings t.postings) "journal hash chain is invalid"
    { s with journal := s.journal ++ [t] }

/-! ## Kill switches and operator actions -/

def insertSwitch (w : PaperKillSwitchState) : Call Store :=
  write (Table.Fresh (·.switchId) w.switchId s.switches ∧
    (w.scope = .global ↔ w.accountId = none) ∧ Table.Fresh (·.accountId) w.accountId s.switches ∧
    (∀ a ∈ w.accountId, s.account a ≠ none) ∧ 0 < w.version)
    "kill switch is not unique" { s with switches := s.switches ++ [w] }

/-- `validate_paper_kill_switch_mutation` on an update. -/
def updateSwitch (old new : PaperKillSwitchState) : Call Store :=
  write (new.switchId = old.switchId ∧ new.scope = old.scope ∧ new.accountId = old.accountId ∧
    new.createdAt = old.createdAt ∧ new.version = old.version + 1)
    "kill switch identity/version is invalid"
    { s with switches := Table.update (·.switchId = old.switchId) (fun _ => new) s.switches }

/-- The chain trigger of `paper_operator_action` and the unique keys. -/
def AdmitsAction (action : PaperOperatorAction) : Prop :=
  (if action.sequence = 1 then action.previousActionHash = none
    else ∃ prior ∈ Table.get (·.sequence) s.actions (action.sequence - 1),
      action.previousActionHash = some prior.actionHash) ∧
  0 < action.sequence ∧ 0 < action.switchVersion ∧
  (action.scope = .global ↔ action.accountId = none) ∧
  (action.sequence = 1 ↔ action.previousActionHash = none) ∧
  (∀ a ∈ action.accountId, s.account a ≠ none) ∧
  Table.Fresh (·.actionId) action.actionId s.actions ∧
  Table.Fresh (·.sequence) action.sequence s.actions ∧
  Table.Fresh (·.actionHash) action.actionHash s.actions

instance (action : PaperOperatorAction) : Decidable (s.AdmitsAction action) :=
  inferInstanceAs (Decidable (_ ∧ _))

def insertAction (action : PaperOperatorAction) : Call Store :=
  write (s.AdmitsAction action) "paper operator action chain is invalid"
    { s with actions := s.actions ++ [action] }

/-- `validate_paper_operator_audit_head`. -/
def updateAuditHead (head : PaperOperatorAuditHeadRow) : Call Store :=
  write (head.sequence = s.auditHead.sequence + 1 ∧ head.actionHash ≠ none)
    "paper operator audit head CAS failed" { s with auditHead := head }

end Store

end StonksPaper
