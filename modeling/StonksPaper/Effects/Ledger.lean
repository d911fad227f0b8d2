import StonksPaper.Effects.Execution

/-!
# What a journal transaction writes

`append` either finds the stored transaction or adds one, moves the settled projections to the
replayed journal and advances the account.
-/

namespace StonksPaper

open Chain
open scoped ExactArithmetic

section

variable [Hashing] {s s' : Store}

/-- The account's row once a transaction is posted. -/
def PaperAccountRow.posted (row : PaperAccountRow) (transaction : JournalTransaction)
    (now : UTCDateTime) : PaperAccountRow :=
  { row with
    aggregateSequence := row.aggregateSequence + 1
    ledgerSequence := transaction.sequence
    ledgerHash := some transaction.transactionHash
    updatedAt := now }

def missingCash (rows : List PaperCashProjectionRow) (accountId : AccountId)
    (after : LedgerProjection) : List (Currency × Decimal) :=
  (cashQuantums after).filter (·.1 ∉ (rows.filter (·.accountId = accountId)).map (·.currency))

/-- The positions of the projection that have no row yet. -/
def missingPositions (rows : List PaperPositionProjectionRow) (accountId : AccountId)
    (after : LedgerProjection) : List (UUID × Decimal) :=
  (positionQuantums after).filter
    (·.1 ∉ (rows.filter (·.accountId = accountId)).map (·.instrumentId))

/-- The ledger accounts of the projection that have no row yet. -/
def missingLedger (rows : List PaperLedgerAccountProjectionRow) (after : LedgerProjection) :
    List LedgerAccountBalance :=
  after.balances.filter
    (·.key ∉ (rows.filter (·.accountId = after.accountId)).map (·.balance.key))

/-- The cash rows after `_apply_cash`. -/
def settledCashRows (rows : List PaperCashProjectionRow) (accountId : AccountId)
    (after : LedgerProjection) (sequence : ℕ) : List PaperCashProjectionRow :=
  Table.update (·.accountId = accountId) (settledCash after sequence) rows ++
    (missingCash rows accountId after).map fun item =>
      ⟨accountId, item.1, after.cash item.1, 0, item.2, sequence⟩

/-- The position rows after `_apply_positions`. -/
def settledPositionRows (rows : List PaperPositionProjectionRow) (accountId : AccountId)
    (after : LedgerProjection) (sequence : ℕ) : List PaperPositionProjectionRow :=
  Table.update (·.accountId = accountId) (settledPosition after sequence) rows ++
    (missingPositions rows accountId after).map fun item =>
      ⟨accountId, item.1, after.position item.1, after.position item.1, 0, item.2, sequence⟩

/-- The ledger rows after `_apply_ledger_projection`. -/
def movedLedgerRows (rows : List PaperLedgerAccountProjectionRow) (after : LedgerProjection) :
    List PaperLedgerAccountProjectionRow :=
  Table.update (fun row => row.accountId = after.accountId ∧ changedBalance after row ≠ none)
      (movedLedger after) rows ++
    (missingLedger rows after).map (⟨after.accountId, ·, after.ledgerSequence⟩)

/-- The checks of `_apply_cash` on the rows that exist. -/
structure CashSettles (s : Store) (before after : LedgerProjection) : Prop where
  known : ∀ row ∈ s.cashOf before.accountId, (row.currency, row.quantum) ∈ cashQuantums after
  current : ∀ row ∈ s.cashOf before.accountId, row.settledAmount = before.cash row.currency

/-- The checks of `_apply_positions` on the rows that exist. -/
structure PositionsSettle (s : Store) (before after : LedgerProjection) : Prop where
  known : ∀ row ∈ s.positionsOf before.accountId,
    (row.instrumentId, row.quantum) ∈ positionQuantums after
  current : ∀ row ∈ s.positionsOf before.accountId, row.quantity = before.position row.instrumentId
  reserved : ∀ row ∈ s.positionsOf before.accountId,
    row.reservedQuantity ≤ after.position row.instrumentId

/-- The checks of `_apply_ledger_projection` on the rows that exist. -/
structure LedgerMoves (s : Store) (after : LedgerProjection) : Prop where
  known : ∀ row ∈ s.ledgerOf after.accountId, row.balance.key ∈ after.balances.map (·.key)
  quantum : ∀ row ∈ s.ledgerOf after.accountId, ∀ b ∈ changedBalance after row,
    row.balance.quantum = b.quantum

omit [Hashing] in
theorem applyCash_eq_success {before after : LedgerProjection} {sequence : ℕ}
    {accountId : AccountId} (hid : before.accountId = accountId)
    (h : s.applyCash before after sequence = .success s') :
    CashSettles s before after ∧
      s' = { s with cash := settledCashRows s.cash accountId after sequence } := by
  subst hid
  simp only [Store.applyCash, Attempt.bind_eq_success, failUnless_eq_success, Store.updateCash,
    write_eq_success] at h
  obtain ⟨_, -, _, hdrift, _, -, s₁, ⟨-, rfl⟩, h⟩ := h
  obtain rfl := insertCash_all h
  exact ⟨⟨fun row hrow => (hdrift row hrow).2, fun row hrow => (hdrift row hrow).1⟩, rfl⟩

omit [Hashing] in
theorem applyPositions_eq_success {before after : LedgerProjection} {sequence : ℕ}
    {accountId : AccountId} (hid : before.accountId = accountId)
    (h : s.applyPositions before after sequence = .success s') :
    PositionsSettle s before after ∧
      s' = { s with positions := settledPositionRows s.positions accountId after sequence } := by
  subst hid
  simp only [Store.applyPositions, Attempt.bind_eq_success, failUnless_eq_success,
    Store.updatePositions, write_eq_success] at h
  obtain ⟨_, -, _, hdrift, _, hreserved, _, -, s₁, ⟨-, rfl⟩, h⟩ := h
  obtain rfl := insertPosition_all h
  exact ⟨⟨fun row hrow => (hdrift row hrow).2, fun row hrow => (hdrift row hrow).1, hreserved⟩,
    rfl⟩

omit [Hashing] in
theorem applyLedgerProjection_eq_success {after : LedgerProjection}
    (h : s.applyLedgerProjection after = .success s') :
    LedgerMoves s after ∧ s' = { s with ledger := movedLedgerRows s.ledger after } := by
  simp only [Store.applyLedgerProjection, Attempt.bind_eq_success, failUnless_eq_success,
    Store.updateLedger, write_eq_success] at h
  obtain ⟨_, hknown, _, hquantum, s₁, ⟨-, rfl⟩, h⟩ := h
  obtain rfl := insertLedger_all h
  exact ⟨⟨hknown, hquantum⟩, rfl⟩

omit [Hashing] in
theorem postAccount_eq_success {row posted : PaperAccountRow} {transaction : JournalTransaction}
    {now : UTCDateTime} (h : s.postAccount row transaction now = .success (posted, s')) :
    posted = row.posted transaction now ∧
      s' = { s with
        accounts := Table.update (·.accountId = row.accountId)
          (fun _ => row.posted transaction now) s.accounts } := by
  simp only [Store.postAccount, Attempt.bind_eq_success, Store.updateAccount, write_eq_success,
    Attempt.pure_eq] at h
  obtain ⟨s₁, ⟨-, rfl⟩, h⟩ := h
  cases h
  exact ⟨rfl, rfl⟩

/-- What `append` reads and checks before it writes. -/
structure AppendChecked (s : Store) (transaction : JournalTransaction) (expectedSequence : ℕ)
    (expectedHash : Option Sha256) (expectedAccountSequence : ℕ) (row : PaperAccountRow)
    (before after : LedgerProjection) (fill : Fill) : Prop where
  account : s.account transaction.accountId = some row
  aggregate : row.aggregateSequence = expectedAccountSequence
  head : row.ledgerSequence = expectedSequence ∧ row.ledgerHash = expectedHash
  continues : transaction.sequence = expectedSequence + 1 ∧ transaction.previousHash = expectedHash
  enabled : s.GlobalEnabled ∧ s.AccountEnabled transaction.accountId
  opened : ∃ opening, s.getOpeningSnapshot transaction.accountId = .success opening
  replayed : ∃ opening, s.opening transaction.accountId = some opening ∧
    replayJournal opening (s.journalOf transaction.accountId) = .success before ∧
    replayJournal opening (s.journalOf transaction.accountId ++ [transaction]) = .success after
  source : Table.get (·.fillId) s.fills transaction.sourceFillId = some fill
  fill_valid : fill.validate = .success ()
  source_bound : fill.orderIntentId = transaction.sourceOrderIntentId ∧
    fill.accountId = transaction.accountId
  known : s.FillStateKnown fill
  built : buildFillJournal fill before repositoryPolicy = .success transaction
  persisted : ∃ persisted, s.getProjection transaction.accountId = .success persisted ∧
    persisted.projectionHash = before.projectionHash

omit [Hashing] in
theorem requireExecutionEnabled_eq_success {accountId : AccountId} {u : Unit} :
    s.requireExecutionEnabled accountId = .success u ↔
      s.GlobalEnabled ∧ s.AccountEnabled accountId := by
  simp [Store.requireExecutionEnabled, Attempt.bind_eq_success]

omit [Hashing] in
theorem getOpeningSnapshot_eq_success {accountId : AccountId}
    {snapshot : AccountPortfolioSnapshot}
    (h : s.getOpeningSnapshot accountId = .success snapshot) :
    s.opening accountId = some snapshot ∧ (∀ b ∈ snapshot.cash, b.validate = .success ()) ∧
      (∀ b ∈ snapshot.positions, b.validate = .success ()) ∧ snapshot.validate = .success () := by
  simp only [Store.getOpeningSnapshot, Attempt.bind_eq_success, orFail_eq_success,
    integrityChecked_eq_success, Attempt.forM_eq_success, modelValidate_eq_success] at h
  obtain ⟨_, hopening, _, hcash, _, hpositions, hvalid, rfl⟩ := h
  exact ⟨hopening, hcash, hpositions, hvalid⟩

theorem listTransactions_eq_success {accountId : AccountId} {ts : List JournalTransaction}
    (h : s.listTransactions accountId = .success ts) : ts = s.journalOf accountId := by
  simp only [Store.listTransactions, integrityChecked_eq_success, Attempt.bind_eq_success,
    Attempt.pure_eq] at h
  obtain ⟨_, -, h⟩ := h
  cases h
  rfl

theorem replayInputs_eq_success {accountId : AccountId} {opening : AccountPortfolioSnapshot}
    {ts : List JournalTransaction} {replayed : LedgerProjection}
    (h : s.replayInputs accountId = .success (opening, ts, replayed)) :
    s.getOpeningSnapshot accountId = .success opening ∧ ts = s.journalOf accountId ∧
      replayJournal opening ts = .success replayed := by
  simp only [Store.replayInputs, Attempt.bind_eq_success, Attempt.pure_eq] at h
  obtain ⟨_, hopening, _, hlist, _, hreplay, h⟩ := h
  cases h
  exact ⟨hopening, listTransactions_eq_success hlist, hreplay⟩

omit [Hashing] in
theorem validateSource_eq_success {transaction : JournalTransaction} {fill : Fill}
    (h : s.validateSource transaction = .success fill) :
    Table.get (·.fillId) s.fills transaction.sourceFillId = some fill ∧
      (fill.orderIntentId = transaction.sourceOrderIntentId ∧
        fill.accountId = transaction.accountId) ∧
      fill.validate = .success () ∧ s.FillStateKnown fill := by
  simp only [Store.validateSource, Attempt.bind_eq_success, orFail_eq_success,
    failUnless_eq_success, integrityChecked_eq_success, Store.validateFillState,
    Attempt.pure_eq] at h
  obtain ⟨_, hsource, _, hbound, _, hvalid, _, hknown, h⟩ := h
  cases h
  exact ⟨hsource, hbound, hvalid, hknown⟩

theorem checkAppend_eq_success {transaction : JournalTransaction} {expectedSequence : ℕ}
    {expectedHash : Option Sha256} {expectedAccountSequence : ℕ} {row : PaperAccountRow}
    {before after : LedgerProjection}
    (h : s.checkAppend transaction expectedSequence expectedHash expectedAccountSequence =
      .success (row, before, after)) :
    ∃ fill, AppendChecked s transaction expectedSequence expectedHash expectedAccountSequence row
      before after fill := by
  simp only [Store.checkAppend, Attempt.bind_eq_success, orFail_eq_success, failUnless_eq_success,
    Attempt.pure_eq, requireExecutionEnabled_eq_success, Prod.exists] at h
  obtain ⟨row', hrow, _, ⟨haggregate, hsequence, hhash, hnext, hprevious⟩, _, henabled, opening, ts,
    before', hinputs, fill, hsource, h⟩ := h
  -- a failure of the builder is replaced by another one, so only its success goes on
  have hbuilt : ∃ expected, buildFillJournal fill before' repositoryPolicy = .success expected := by
    cases hbuild : buildFillJournal fill before' repositoryPolicy with
    | success expected => exact ⟨expected, rfl⟩
    | failure e => simp [hbuild, fail] at h
    | raised e => simp [hbuild] at h
  obtain ⟨expected, hbuilt⟩ := hbuilt
  simp only [hbuilt, Attempt.success_bind, Attempt.bind_eq_success, failUnless_eq_success] at h
  obtain ⟨_, rfl, persisted, hpersisted, _, hprojection, after', hafter, h⟩ := h
  cases h
  obtain ⟨hopening, rfl, hreplay⟩ := replayInputs_eq_success hinputs
  obtain ⟨hfill, hbound, hvalid, hknown⟩ := validateSource_eq_success hsource
  refine ⟨fill, ?_⟩
  exact
    { account := hrow
      aggregate := haggregate
      head := ⟨hsequence, hhash⟩
      continues := ⟨hnext, hprevious⟩
      enabled := henabled
      opened := ⟨opening, hopening⟩
      replayed := ⟨opening, (getOpeningSnapshot_eq_success hopening).1, hreplay, hafter⟩
      source := hfill
      fill_valid := hvalid
      source_bound := hbound
      known := hknown
      built := hbuilt
      persisted := ⟨persisted, hpersisted, hprojection⟩ }

/-- The store in which the journal's transaction is posted. -/
def Store.journalled (s : Store) (transaction : JournalTransaction) (row : PaperAccountRow)
    (after : LedgerProjection) (event : PaperAccountEvent) (now : UTCDateTime) : Store :=
  { s with
    journal := s.journal ++ [transaction]
    accounts := Table.update (·.accountId = row.accountId) (fun _ => row.posted transaction now)
      s.accounts
    cash := settledCashRows s.cash row.accountId after (row.aggregateSequence + 1)
    positions := settledPositionRows s.positions row.accountId after (row.aggregateSequence + 1)
    ledger := movedLedgerRows s.ledger after
    accountEvents := s.accountEvents ++ [event] }

/-- What the statements of `append` had checked, and the store they left. -/
structure JournalPosted (s : Store) (transaction : JournalTransaction) (row : PaperAccountRow)
    (before after : LedgerProjection) (event : PaperAccountEvent) (now : UTCDateTime)
    (s' : Store) : Prop where
  journal : s.AdmitsJournal transaction
  cash : CashSettles s before after
  positions : PositionsSettle s before after
  ledger : LedgerMoves s after
  event_account : event.accountId = row.accountId
  event_sequence : event.sequence = row.aggregateSequence + 1
  event_valid : event.validate = .success ()
  state : s' = s.journalled transaction row after event now

theorem postJournal_eq_success {transaction : JournalTransaction} {row : PaperAccountRow}
    {before after : LedgerProjection} {now : UTCDateTime}
    (hbefore : before.accountId = row.accountId)
    (h : s.postJournal transaction row before after now = .success s') :
    ∃ event, JournalPosted s transaction row before after event now s' := by
  simp only [Store.postJournal, Attempt.bind_eq_success, Attempt.pure_eq, Prod.exists] at h
  obtain ⟨s₁, hjournal, posted, s₂, haccount, s₃, hcash, s₄, hpositions, s₅, hledger, event, s₆,
    hevent, h⟩ := h
  cases h
  obtain ⟨⟨hadmits, -⟩, rfl⟩ := write_eq_success.mp hjournal
  obtain ⟨rfl, rfl⟩ := postAccount_eq_success haccount
  obtain ⟨hcashSettles, rfl⟩ := applyCash_eq_success hbefore hcash
  obtain ⟨hpositionsSettle, rfl⟩ := applyPositions_eq_success hbefore hpositions
  obtain ⟨hmoves, rfl⟩ := applyLedgerProjection_eq_success hledger
  obtain ⟨heq, hvalid, -, rfl⟩ := recordAccountEvent_eq_success hevent
  refine ⟨event, ?_⟩
  exact
    { journal := hadmits
      cash := ⟨hcashSettles.known, hcashSettles.current⟩
      positions := ⟨hpositionsSettle.known, hpositionsSettle.current, hpositionsSettle.reserved⟩
      ledger := ⟨hmoves.known, hmoves.quantum⟩
      event_account := by rw [heq]; rfl
      event_sequence := by rw [heq]; rfl
      event_valid := hvalid
      state := rfl }

/-! ## Append -/

omit [Hashing] in
theorem opening_accountId {accountId : AccountId} {opening : AccountPortfolioSnapshot}
    (h : s.opening accountId = some opening) : opening.accountId = accountId := Table.key_of_get h

theorem AppendChecked.accountIds {transaction : JournalTransaction} {expectedSequence : ℕ}
    {expectedHash : Option Sha256} {expectedAccountSequence : ℕ} {row : PaperAccountRow}
    {before after : LedgerProjection} {fill : Fill}
    (h : AppendChecked s transaction expectedSequence expectedHash expectedAccountSequence row
    before
      after fill) :
    row.accountId = transaction.accountId ∧ before.accountId = transaction.accountId ∧
      after.accountId = transaction.accountId := by
  obtain ⟨opening, hopening, hbefore, hafter⟩ := h.replayed
  have hid := opening_accountId hopening
  exact ⟨Table.key_of_get h.account, (replayJournal_accountId hbefore).trans hid,
    (replayJournal_accountId hafter).trans hid⟩

/-- `append` finds the transaction, or posts it. -/
theorem append_eq_success {transaction t : JournalTransaction} {expectedSequence : ℕ}
    {expectedHash : Option Sha256} {expectedAccountSequence : ℕ} {now : UTCDateTime}
    (h : s.append transaction expectedSequence expectedHash expectedAccountSequence now =
      .success (t, s')) :
    t = transaction ∧ ((s' = s ∧ transaction ∈ s.journal) ∨
      ∃ row before after fill event,
        AppendChecked s transaction expectedSequence expectedHash expectedAccountSequence row before
          after fill ∧ JournalPosted s transaction row before after event now s') := by
  unfold Store.append at h
  split at h
  · rename_i existing hexisting
    simp only [Attempt.bind_eq_success, failUnless_eq_success, Attempt.pure_eq] at h
    obtain ⟨_, rfl, h⟩ := h
    cases h
    exact ⟨rfl, .inl ⟨rfl, Table.mem_of_get (Option.filter_eq_some_iff.mp hexisting).1⟩⟩
  · simp only [mutation_eq_success, Attempt.bind_eq_success, Attempt.pure_eq, Prod.exists] at h
    obtain ⟨row, before, after, hcheck, s₁, hpost, h⟩ := h
    cases h
    obtain ⟨fill, hchecked⟩ := checkAppend_eq_success hcheck
    have hids := hchecked.accountIds
    obtain ⟨event, hposted⟩ := postJournal_eq_success (hids.2.1.trans hids.1.symm) hpost
    exact ⟨rfl, .inr ⟨row, before, after, fill, event, hchecked, hposted⟩⟩

end

end StonksPaper
