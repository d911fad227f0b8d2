import StonksPaper.Ledger.Post
import StonksPaper.Base.Table

/-!
# Replay of the journal

`replay.py`: the balances of an account are the fold of its journal over its opening snapshot.
-/

namespace StonksPaper

open Chain

/-- `commodity.isupper() and len(commodity) == 3`, of the characters that an account's last part
can have. -/
def isCommodityCode (code : String) : Bool :=
  code.length == 3 && code.toList.any Char.isUpper &&
    code.toList.all fun c => c.isUpper || c.isDigit || c == '_' || c == '.' || c == '-'

/-- `_recognized`: the commodity is the account's own. -/
def recognized (account : LedgerAccount) (commodity : Commodity) : Prop :=
  match account with
  | .assetCash c => commodity = .currency c ∧ isCommodityCode c = true
  | .clearingCash c => commodity = .currency c ∧ isCommodityCode c = true
  | .feeExecution c => commodity = .currency c ∧ isCommodityCode c = true
  | .pnlRealized c => commodity = .currency c ∧ isCommodityCode c = true
  | .inventoryUnits i => commodity = .units i
  | .clearingUnits i => commodity = .units i
  | .inventoryValue _ c => commodity = .currency c ∧ isCommodityCode c = true

instance (account : LedgerAccount) (commodity : Commodity) :
    Decidable (recognized account commodity) := by
  cases account <;> unfold recognized <;> infer_instance

abbrev MutableTotals := List LedgerAccountBalance

/-- `totals.setdefault(key, [ZERO, ZERO, posting.quantum])`. -/
def MutableTotals.setdefault (totals : MutableTotals) (posting : JournalPosting) : MutableTotals :=
  if Table.Fresh (·.key) posting.key totals then
    totals ++ [⟨posting.ledgerAccount, posting.commodity, posting.quantum, 0, 0⟩]
  else totals

/-- `current[index] += posting.amount`. -/
def LedgerAccountBalance.add [Arithmetic] (self : LedgerAccountBalance) (posting : JournalPosting) :
    LedgerAccountBalance :=
  match posting.side with
  | .debit => { self with debitTotal := kept (self.debitTotal + posting.amount) }
  | .credit => { self with creditTotal := kept (self.creditTotal + posting.amount) }

def postTo [Arithmetic] (totals : MutableTotals) (posting : JournalPosting) :
    Call MutableTotals := do
  failUnless (recognized posting.ledgerAccount posting.commodity) .conflict
    "Unknown canonical ledger account"
  let totals := MutableTotals.setdefault totals posting
  failUnless (∀ b ∈ totals, b.key = posting.key → b.quantum = posting.quantum) .conflict
    "Ledger commodity quantum changed"
  return Table.update (·.key = posting.key) (·.add posting) totals

def openingCash (cash : CashBalance) : LedgerAccountBalance :=
  ⟨.assetCash cash.currency, .currency cash.currency, cash.quantum, cash.settledAmount, 0⟩

def openingPosition (position : PositionBalance) : LedgerAccountBalance :=
  ⟨.inventoryUnits position.instrumentId, .units position.instrumentId, position.quantum,
    position.quantity, 0⟩

/-- `_opening_totals`. The snapshot's currencies and instruments are unique. -/
def openingTotals (opening : AccountPortfolioSnapshot) : MutableTotals :=
  opening.cash.map openingCash ++ opening.positions.map openingPosition

/-- What the loop of `replay_journal` carries. -/
structure ReplayState where
  totals : MutableTotals
  sequence : ℕ
  previousHash : Option Sha256
  lastOccurredAt : UTCDateTime
deriving DecidableEq

def ReplayState.opening (opening : AccountPortfolioSnapshot) : ReplayState :=
  ⟨openingTotals opening, 0, none, opening.asOf⟩

section

variable [Arithmetic] [Hashing]

def transactionError (opening : AccountPortfolioSnapshot) (state : ReplayState)
    (transaction : JournalTransaction) : Call Unit :=
  failUnless (transaction.accountId = opening.accountId ∧
    transaction.sequence = state.sequence + 1 ∧ transaction.previousHash = state.previousHash ∧
    state.lastOccurredAt ≤ transaction.occurredAt ∧
    transaction.transactionHash = transaction.expectedTransactionHash ∧ transaction.isBalanced)
    .conflict "Ledger journal chain is invalid"

/-- The projection that `_projection` builds, before its validators run. -/
def ledgerProjection (opening : AccountPortfolioSnapshot) (state : ReplayState) :
    LedgerProjection :=
  { accountId := opening.accountId
    openingSnapshotHash := opening.snapshotHash
    ledgerSequence := state.sequence
    ledgerHash := state.previousHash
    lastOccurredAt := state.lastOccurredAt
    balances := sorted (·.sortKey) state.totals
    unvaluedInstrumentIds :=
      sorted id ((opening.positions.filter (0 < ·.quantity)).map (·.instrumentId)) }

/-- `_projection`. -/
def projectionOf (opening : AccountPortfolioSnapshot) (state : ReplayState) :
    Call LedgerProjection := do
  state.totals.forM (·.validate)
  modelValidate LedgerProjection.validate (ledgerProjection opening state)

def LedgerAccount.isAsset : LedgerAccount → Bool
  | .assetCash _ => true
  | .inventoryUnits _ => true
  | .inventoryValue _ _ => true
  | _ => false

def hasNegativeAsset (projection : LedgerProjection) : Prop :=
  ∃ item ∈ projection.balances, item.ledgerAccount.isAsset = true ∧ item.balance < 0

instance (projection : LedgerProjection) : Decidable (hasNegativeAsset projection) :=
  inferInstanceAs (Decidable (∃ _ ∈ _, _))

/-- One round of the loop. -/
def replayTransaction (opening : AccountPortfolioSnapshot) (state : ReplayState)
    (transaction : JournalTransaction) : Call ReplayState := do
  transactionError opening state transaction
  let totals ← transaction.postings.foldlM postTo state.totals
  let next : ReplayState := ⟨totals, transaction.sequence, some transaction.transactionHash,
    transaction.occurredAt⟩
  let projection ← projectionOf opening next
  failUnless (¬ hasNegativeAsset projection) .conflict "Ledger replay produced negative assets"
  return next

/-- The loop of `replay_journal`. -/
def replayTransactions (opening : AccountPortfolioSnapshot)
    (transactions : List JournalTransaction) : Call ReplayState :=
  transactions.foldlM (replayTransaction opening) (.opening opening)

def replayJournal (opening : AccountPortfolioSnapshot) (transactions : List JournalTransaction) :
    Call LedgerProjection := do
  failUnless (opening.ledgerSequence = 0 ∧ opening.ledgerHash = none) .invalidInput
    "Ledger opening must be genesis"
  let state ← replayTransactions opening transactions
  projectionOf opening state

/-! ## What a replay shows -/

variable {opening : AccountPortfolioSnapshot} {ts : List JournalTransaction}
  {t : JournalTransaction} {state next : ReplayState} {p : LedgerProjection}

theorem projectionOf_eq_success : projectionOf opening state = .success p ↔
    (∀ b ∈ state.totals, b.validate = .success ()) ∧
      (ledgerProjection opening state).validate = .success () ∧
      p = ledgerProjection opening state := by
  simp only [projectionOf, Attempt.bind_eq_success, Attempt.forM_eq_success,
    modelValidate_eq_success]
  constructor
  · rintro ⟨_, htotals, hvalid, rfl⟩
    exact ⟨htotals, hvalid, rfl⟩
  · rintro ⟨htotals, hvalid, rfl⟩
    exact ⟨(), htotals, hvalid, rfl⟩

/-- What a round of the loop checks and makes. -/
theorem replayTransaction_eq_success : replayTransaction opening state t = .success next ↔
    (t.accountId = opening.accountId ∧ t.sequence = state.sequence + 1 ∧
      t.previousHash = state.previousHash ∧ state.lastOccurredAt ≤ t.occurredAt ∧
      t.transactionHash = t.expectedTransactionHash ∧ t.isBalanced) ∧
      ∃ totals, t.postings.foldlM postTo state.totals = .success totals ∧
        next = ⟨totals, t.sequence, some t.transactionHash, t.occurredAt⟩ ∧
        projectionOf opening next = .success (ledgerProjection opening next) ∧
        ¬ hasNegativeAsset (ledgerProjection opening next) := by
  simp only [replayTransaction, transactionError, Attempt.bind_eq_success, failUnless_eq_success,
    Attempt.pure_eq, Attempt.success.injEq]
  constructor
  · rintro ⟨_, hchain, totals, htotals, projection, hprojection, _, hassets, rfl⟩
    obtain ⟨-, -, rfl⟩ := projectionOf_eq_success.mp hprojection
    exact ⟨hchain, totals, htotals, rfl, hprojection, hassets⟩
  · rintro ⟨hchain, totals, htotals, rfl, hprojection, hassets⟩
    exact ⟨(), hchain, totals, htotals, _, hprojection, (), hassets, rfl⟩

theorem replayJournal_eq_success : replayJournal opening ts = .success p ↔
    (opening.ledgerSequence = 0 ∧ opening.ledgerHash = none) ∧
      ∃ state, replayTransactions opening ts = .success state ∧
        projectionOf opening state = .success p := by
  simp only [replayJournal, Attempt.bind_eq_success, failUnless_eq_success]
  exact ⟨fun ⟨_, hgenesis, h⟩ => ⟨hgenesis, h⟩, fun ⟨hgenesis, h⟩ => ⟨(), hgenesis, h⟩⟩

theorem replayJournal_accountId (h : replayJournal opening ts = .success p) :
    p.accountId = opening.accountId := by
  obtain ⟨-, state, -, h⟩ := replayJournal_eq_success.mp h
  rw [(projectionOf_eq_success.mp h).2.2]
  rfl

end

end StonksPaper
