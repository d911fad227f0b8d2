import StonksPaper.Store.Trading

/-!
# The ledger repository

`ledger_repository.py`: a journal transaction is appended only if it is the one that its fill calls
for, and the settled projections are then moved to what the replayed journal says.
-/

namespace StonksPaper

open Chain
open scoped ExactArithmetic

section

variable [Hashing]

/-! ## Reading -/

/-- `_transaction_from_row`, for all rows of an account. -/
def Store.listTransactions (s : Store) (accountId : AccountId) : Call (List JournalTransaction) :=
  integrityChecked "Journal integrity check failed" do
    (s.journalOf accountId).forM fun t => do
      t.postings.forM (·.validate)
      t.validate
    return s.journalOf accountId

def Store.getHead (s : Store) (accountId : AccountId) : Call LedgerHead := do
  let row ← orFail .notFound "Paper account was not found" (s.account accountId)
  integrityChecked "Ledger head is invalid" <|
    modelValidate LedgerHead.validate ⟨accountId, row.ledgerSequence, row.ledgerHash⟩

/-- The stored snapshot, which its validators check again. -/
def Store.getOpeningSnapshot (s : Store) (accountId : AccountId) :
    Call AccountPortfolioSnapshot := do
  let snapshot ← orFail .notFound "Ledger opening was not found" (s.opening accountId)
  integrityChecked "Ledger opening is invalid" do
    snapshot.cash.forM (·.validate)
    snapshot.positions.forM (·.validate)
    modelValidate AccountPortfolioSnapshot.validate snapshot

def Store.ledgerBalances (s : Store) (accountId : AccountId) : List LedgerAccountBalance :=
  sorted (·.sortKey) ((s.ledgerOf accountId).map (·.balance))

def cashQuantums (projection : LedgerProjection) : List (Currency × Decimal) :=
  projection.balances.filterMap fun item =>
    match item.ledgerAccount, item.commodity with
    | .assetCash c, .currency c' => if c = c' then some (c, item.quantum) else none
    | _, _ => none

def positionQuantums (projection : LedgerProjection) : List (UUID × Decimal) :=
  projection.balances.filterMap fun item =>
    match item.ledgerAccount, item.commodity with
    | .inventoryUnits i, .units i' => if i = i' then some (i, item.quantum) else none
    | _, _ => none

/-- A cash row shows the projection at the account's sequence. -/
def CashRowMatches (projection : LedgerProjection) (sequence : ℕ)
    (row : PaperCashProjectionRow) : Prop :=
  (row.currency, row.quantum) ∈ cashQuantums projection ∧
  row.settledAmount = projection.cash row.currency ∧ row.updatedSequence = sequence

instance (projection : LedgerProjection) (sequence : ℕ) (row : PaperCashProjectionRow) :
    Decidable (CashRowMatches projection sequence row) := inferInstanceAs (Decidable (_ ∧ _))

/-- A position row shows the projection at the account's sequence. -/
def PositionRowMatches (projection : LedgerProjection) (sequence : ℕ)
    (row : PaperPositionProjectionRow) : Prop :=
  (row.instrumentId, row.quantum) ∈ positionQuantums projection ∧
  row.quantity = projection.position row.instrumentId ∧ row.updatedSequence = sequence

instance (projection : LedgerProjection) (sequence : ℕ) (row : PaperPositionProjectionRow) :
    Decidable (PositionRowMatches projection sequence row) := inferInstanceAs (Decidable (_ ∧ _))

def Store.validateSpecializedProjection (s : Store) (projection : LedgerProjection) :
    Call Unit := do
  let account ← orFail .notFound "Paper account was not found" (s.account projection.accountId)
  failUnless ((∀ row ∈ s.cashOf projection.accountId,
      CashRowMatches projection account.aggregateSequence row) ∧
    ∀ item ∈ cashQuantums projection,
      item.1 ∈ (s.cashOf projection.accountId).map (·.currency))
    .conflict "Cash ledger projection mismatched"
  failUnless ((∀ row ∈ s.positionsOf projection.accountId,
      PositionRowMatches projection account.aggregateSequence row) ∧
    ∀ item ∈ positionQuantums projection,
      item.1 ∈ (s.positionsOf projection.accountId).map (·.instrumentId))
    .conflict "Position ledger projection mismatched"

/-- The stored projection that `get_projection` builds, before its validators run. -/
def Store.persistedProjection (s : Store) (head : LedgerHead) (replayed : LedgerProjection) :
    LedgerProjection :=
  { replayed with
    accountId := head.accountId
    ledgerSequence := head.sequence
    ledgerHash := head.transactionHash
    balances := s.ledgerBalances head.accountId }

def Store.getProjection (s : Store) (accountId : AccountId) : Call LedgerProjection := do
  let opening ← s.getOpeningSnapshot accountId
  let head ← s.getHead accountId
  let transactions ← s.listTransactions accountId
  let replayed ← replayJournal opening transactions
  let persisted ← integrityChecked "Ledger projection is invalid" do
    (s.ledgerBalances accountId).forM (·.validate)
    modelValidate LedgerProjection.validate (s.persistedProjection head replayed)
  failUnless (replayed.ledgerSequence = head.sequence ∧
    replayed.ledgerHash = head.transactionHash) .conflict "Ledger head and journal diverged"
  s.validateSpecializedProjection persisted
  return persisted

def Store.replayInputs (s : Store) (accountId : AccountId) :
    Call (AccountPortfolioSnapshot × List JournalTransaction × LedgerProjection) := do
  let opening ← s.getOpeningSnapshot accountId
  let transactions ← s.listTransactions accountId
  let replayed ← replayJournal opening transactions
  return (opening, transactions, replayed)

/-- The global switch is one row and inactive. -/
def Store.GlobalEnabled (s : Store) : Prop :=
  (s.switches.filter (·.scope = .global)).length = 1 ∧
    ∀ row ∈ s.switches.filter (·.scope = .global), row.active = false

instance (s : Store) : Decidable s.GlobalEnabled := inferInstanceAs (Decidable (_ ∧ _))

/-- The account's switch, if it has one, is inactive. -/
def Store.AccountEnabled (s : Store) (accountId : AccountId) : Prop :=
  (s.switch .account (some accountId)).length ≤ 1 ∧
    ∀ row ∈ s.switch .account (some accountId), row.active = false

instance (s : Store) (accountId : AccountId) : Decidable (s.AccountEnabled accountId) :=
  inferInstanceAs (Decidable (_ ∧ _))

def Store.requireExecutionEnabled (s : Store) (accountId : AccountId) : Call Unit := do
  failUnless s.GlobalEnabled .conflict "Global paper kill switch is active"
  failUnless (s.AccountEnabled accountId) .conflict "Account paper kill switch is active"

/-- The state of an order whose latest event a fill explains. -/
def Store.FillStateKnown (s : Store) (fill : Fill) : Prop :=
  ∃ latest ∈ (s.orderEventsOf fill.orderIntentId).getLast?,
    latest.toStatus ∈ [OrderStatus.partiallyFilled, .filled] ∧
      latest.cumulativeFilledQuantity = totalQuantity (s.fillsOf fill.orderIntentId)

instance (s : Store) (fill : Fill) : Decidable (s.FillStateKnown fill) :=
  inferInstanceAs (Decidable (∃ _ ∈ _, _))

def Store.validateFillState (s : Store) (fill : Fill) : Call Unit :=
  failUnless (s.FillStateKnown fill) .conflict "Paper fill order state is unknown"

def Store.validateSource (s : Store) (transaction : JournalTransaction) : Call Fill := do
  let fill ← orFail .notFound "Journal source was not found"
    (Table.get (·.fillId) s.fills transaction.sourceFillId)
  failUnless (fill.orderIntentId = transaction.sourceOrderIntentId ∧
    fill.accountId = transaction.accountId) .conflict "Journal source binding mismatch"
  integrityChecked "Paper fill payload is invalid" fill.validate
  s.validateFillState fill
  return fill

/-! ## Writing -/

/-- `_advance_account` of the ledger. -/
def Store.postAccount (s : Store) (account : PaperAccountRow) (transaction : JournalTransaction)
    (now : UTCDateTime) : Call (PaperAccountRow × Store) := do
  let posted :=
    { account with
      aggregateSequence := account.aggregateSequence + 1
      ledgerSequence := transaction.sequence
      ledgerHash := some transaction.transactionHash
      updatedAt := now }
  let s ← s.updateAccount account posted
  return (posted, s)

/-- The update of `_apply_cash` on the rows that exist. -/
def settledCash (after : LedgerProjection) (sequence : ℕ)
    (row : PaperCashProjectionRow) : PaperCashProjectionRow :=
  { row with settledAmount := after.cash row.currency, updatedSequence := sequence }

/-- `_apply_cash`: existing rows are moved to the new projection, then missing rows are added. -/
def Store.applyCash (s : Store) (before after : LedgerProjection) (sequence : ℕ) : Call Store := do
  let accountId := before.accountId
  let existing := s.cashOf accountId
  failUnless (∀ row ∈ existing, row.currency ∈ (cashQuantums after).map (·.1)) .conflict
    "Cash projection identity drifted"
  failUnless (∀ row ∈ existing, row.settledAmount = before.cash row.currency ∧
    (row.currency, row.quantum) ∈ cashQuantums after) .conflict "Cash projection drifted"
  let missing := (cashQuantums after).filter (·.1 ∉ existing.map (·.currency))
  failUnless (∀ item ∈ missing, before.cash item.1 = 0) .conflict "Cash projection is missing"
  let s ← s.updateCash (·.accountId = accountId) (settledCash after sequence)
  missing.foldlM (fun s item =>
    s.insertCash ⟨accountId, item.1, after.cash item.1, 0, item.2, sequence⟩) s

/-- The update of `_apply_positions` on the rows that exist. -/
def settledPosition (after : LedgerProjection) (sequence : ℕ)
    (row : PaperPositionProjectionRow) : PaperPositionProjectionRow :=
  { row with
    quantity := after.position row.instrumentId
    sellableQuantity := after.position row.instrumentId
    updatedSequence := sequence }

def Store.applyPositions (s : Store) (before after : LedgerProjection) (sequence : ℕ) :
    Call Store := do
  let accountId := before.accountId
  let existing := s.positionsOf accountId
  failUnless (∀ row ∈ existing, row.instrumentId ∈ (positionQuantums after).map (·.1)) .conflict
    "Position projection identity drifted"
  failUnless (∀ row ∈ existing, row.quantity = before.position row.instrumentId ∧
    (row.instrumentId, row.quantum) ∈ positionQuantums after) .conflict
    "Position projection drifted"
  failUnless (∀ row ∈ existing, row.reservedQuantity ≤ after.position row.instrumentId) .conflict
    "Position reservation exceeds fill"
  let missing := (positionQuantums after).filter (·.1 ∉ existing.map (·.instrumentId))
  failUnless (∀ item ∈ missing, before.position item.1 = 0) .conflict
    "Position projection is missing"
  let s ← s.updatePositions (·.accountId = accountId) (settledPosition after sequence)
  missing.foldlM (fun s item => s.insertPosition
    ⟨accountId, item.1, after.position item.1, after.position item.1, 0, item.2, sequence⟩) s

/-- The projection's balance that a ledger row must be moved to, if it changed. -/
def changedBalance (after : LedgerProjection) (row : PaperLedgerAccountProjectionRow) :
    Option LedgerAccountBalance :=
  after.balances.find? fun b => b.key = row.balance.key ∧
    (row.balance.debitTotal ≠ b.debitTotal ∨ row.balance.creditTotal ≠ b.creditTotal)

/-- The row moved to the projection's balance, when that changed. -/
def movedLedger (after : LedgerProjection) (row : PaperLedgerAccountProjectionRow) :
    PaperLedgerAccountProjectionRow :=
  match changedBalance after row with
  | some b =>
      { row with
        balance :=
          { row.balance with debitTotal := b.debitTotal, creditTotal := b.creditTotal }
        updatedLedgerSequence := after.ledgerSequence }
  | none => row

def Store.applyLedgerProjection (s : Store) (after : LedgerProjection) : Call Store := do
  let accountId := after.accountId
  let existing := s.ledgerOf accountId
  failUnless (∀ row ∈ existing, row.balance.key ∈ after.balances.map (·.key)) .conflict
    "Ledger account projection drifted"
  failUnless (∀ row ∈ existing, ∀ b ∈ changedBalance after row, row.balance.quantum = b.quantum)
    .conflict "Ledger quantum drifted"
  let s ← s.updateLedger (fun row => row.accountId = accountId ∧ changedBalance after row ≠ none)
    (movedLedger after)
  let missing := after.balances.filter (·.key ∉ existing.map (·.balance.key))
  missing.foldlM (fun s b => s.insertLedger ⟨accountId, b, after.ledgerSequence⟩) s

def repositoryPolicy : LedgerPostingPolicy := ⟨"1.0.0"⟩

/-- The checks of `append` up to its first statement, and what they read. -/
def Store.checkAppend (s : Store) (transaction : JournalTransaction) (expectedSequence : ℕ)
    (expectedHash : Option Sha256) (expectedAccountSequence : ℕ) :
    Call (PaperAccountRow × LedgerProjection × LedgerProjection) := do
  let account ← orFail .notFound "Paper account was not found" (s.account transaction.accountId)
  failUnless (account.aggregateSequence = expectedAccountSequence ∧
    account.ledgerSequence = expectedSequence ∧ account.ledgerHash = expectedHash ∧
    transaction.sequence = expectedSequence + 1 ∧ transaction.previousHash = expectedHash)
    .conflict "Ledger head CAS failed"
  s.requireExecutionEnabled transaction.accountId
  let (opening, transactions, before) ← s.replayInputs transaction.accountId
  let fill ← s.validateSource transaction
  let expected ← match buildFillJournal fill before repositoryPolicy with
    | .failure _ => fail .conflict "Journal economics mismatch fill"
    | call => call
  failUnless (expected = transaction) .conflict "Journal economics mismatch fill"
  let persisted ← s.getProjection transaction.accountId
  failUnless (persisted.projectionHash = before.projectionHash) .conflict
    "Ledger projection drifted"
  let after ← replayJournal opening (transactions ++ [transaction])
  return (account, before, after)

/-- The statements of `append`. -/
def Store.postJournal (s : Store) (transaction : JournalTransaction) (account : PaperAccountRow)
    (before after : LedgerProjection) (now : UTCDateTime) : Call Store := do
  let s ← s.insertJournal transaction
  let (posted, s) ← s.postAccount account transaction now
  let s ← s.applyCash before after posted.aggregateSequence
  let s ← s.applyPositions before after posted.aggregateSequence
  let s ← s.applyLedgerProjection after
  let (_, s) ← s.recordAccountEvent posted "journal.posted" "journal_transaction"
    transaction.transactionId
  return s

def Store.existingTransaction (s : Store) (transactionId : UUID) : Option JournalTransaction :=
  (Table.get (·.transactionId) s.journal transactionId).filter fun t =>
    (∀ p ∈ t.postings, p.validate = .success ()) ∧ t.validate = .success ()

/-- `append`. A transaction whose identifier is stored is returned if it is the same. -/
def Store.append (s : Store) (transaction : JournalTransaction) (expectedSequence : ℕ)
    (expectedHash : Option Sha256) (expectedAccountSequence : ℕ) (now : UTCDateTime) :
    Call (JournalTransaction × Store) :=
  match s.existingTransaction transaction.transactionId with
  | some existing => do
      failUnless (existing = transaction) .conflict "Journal identity already exists"
      return (existing, s)
  | none =>
      mutation "Ledger append conflicted" do
        let (account, before, after) ← s.checkAppend transaction expectedSequence expectedHash
          expectedAccountSequence
        let s ← s.postJournal transaction account before after now
        return (transaction, s)

/-! ## Graphs and the global switch -/

def Store.journalsOf (s : Store) (fillId : UUID) : List JournalTransaction :=
  s.journal.filter (·.sourceFillId = fillId)

def Store.validateAccountGraph (s : Store) (accountId : AccountId) : Call Unit := do
  let fills := s.fills.filter (·.accountId = accountId)
  failUnless (∀ fill ∈ fills, (s.journalsOf fill.fillId).length = 1) .conflict
    "Account fill/journal graph is incomplete"
  let projection ← s.getProjection accountId
  let (_, _, replayed) ← s.replayInputs accountId
  failUnless (projection.projectionHash = replayed.projectionHash) .conflict
    "Ledger projection replay mismatched"
  fills.forM s.validateFillState

def Store.validateExecutionGraph (s : Store) (record : PaperExecutionRecord) : Call Unit :=
  if record.outcome.receipt.fills = [] then return
  else do
    failUnless (∀ fill ∈ record.outcome.receipt.fills, (s.journalsOf fill.fillId).length = 1 ∧
      ∀ t ∈ s.journalsOf fill.fillId, t.sourceOrderIntentId = fill.orderIntentId) .conflict
      "Execution journal graph is incomplete"
    s.validateAccountGraph record.accountId

def PaperKillSwitchState.activated (row : PaperKillSwitchState) (reasonCode actor : String)
    (now : UTCDateTime) : PaperKillSwitchState :=
  { row with active := true, reasonCode, actor, version := row.version + 1, updatedAt := now }

def Store.activateGlobalKillSwitch (s : Store) (reasonCode actor : String) (now : UTCDateTime) :
    Call Store := do
  failUnless (reasonCode ≠ "" ∧ actor ≠ "") .invalidInput "Kill switch audit is required"
  mutation "Global kill switch activation failed" <|
    match s.switches.filter (·.scope = .global) with
    | [row] =>
        if row.active = true ∧ row.reasonCode = reasonCode then .success s
        else s.updateSwitch row (row.activated reasonCode actor now)
    | _ => fail .conflict "Global kill switch is invalid"

end

end StonksPaper
