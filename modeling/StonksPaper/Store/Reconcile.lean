import StonksPaper.Store.Execute
import StonksPaper.Store.Operations

/-!
# Reconciliation and resumption

`operations/resume.py`, `operations/_common.py` and `ledger/reconcile.py`: an account reconciles
when its replayed journal gives the stored projection. A resume reconciles every account that the
switch covers; a daily reconciliation that fails activates the global switch.
-/

namespace StonksPaper

open Chain
open scoped ExactArithmetic

section

variable [Hashing]

/-- The reasons for which a stored projection differs from the replayed one. -/
def mismatchReasons (replayed database : LedgerProjection) : List String :=
  (if replayed.ledgerSequence ≠ database.ledgerSequence then ["ledger_sequence_mismatch"] else
    []) ++
    (if replayed.ledgerHash ≠ database.ledgerHash then ["ledger_hash_mismatch"] else []) ++
    (if replayed.projectionHash ≠ database.projectionHash then ["projection_hash_mismatch"]
      else [])

def compareLedgerProjection (opening : AccountPortfolioSnapshot)
    (transactions : List JournalTransaction) (databaseProjection : LedgerProjection)
    (asOf : UTCDateTime) : Call LedgerReconciliationReport := do
  let replayed ← replayJournal opening transactions
  let reasons := mismatchReasons replayed databaseProjection
  integrityChecked "Ledger reconciliation report is invalid" <|
    modelValidate LedgerReconciliationReport.validate
      { accountId := opening.accountId
        asOf
        ledgerSequence := replayed.ledgerSequence
        replayProjectionHash := replayed.projectionHash
        databaseProjectionHash := databaseProjection.projectionHash
        matched := reasons = []
        mismatchReasons := sorted id reasons }

def Store.reconcileLockedAccount (s : Store) (accountId : AccountId) (asOf : UTCDateTime) :
    Call LedgerReconciliationReport := do
  let opening ← s.getOpeningSnapshot accountId
  let journals ← s.listTransactions accountId
  let projection ← s.getProjection accountId
  s.validateAccountGraph accountId
  compareLedgerProjection opening journals projection asOf

/-! ## Resuming -/

/-- One round of the loop of `_reconcile_prepared`. -/
def Store.reconcilePreparedAccount (s : Store) (asOf : UTCDateTime)
    (progress : List LedgerReconciliationReport × List String) (accountId : AccountId) :
    Call (List LedgerReconciliationReport × List String) :=
  match s.reconcileLockedAccount accountId asOf with
  | .success report =>
      if report.matched then return (progress.1 ++ [report], progress.2)
      else return (progress.1,
        progress.2 ++ report.mismatchReasons.map fun reason => accountId ++ ":" ++ reason)
  | .failure error => return (progress.1, progress.2 ++ [accountId ++ ":" ++ error.code.value])
  | .raised e => .raised e

def Store.reconcilePrepared (s : Store) (accountIds : List AccountId) (asOf : UTCDateTime) :
    Call (List LedgerReconciliationReport × List String) := do
  let (reports, reasons) ← accountIds.foldlM (s.reconcilePreparedAccount asOf) ([], [])
  return (reports, sorted id reasons.dedup)

/-- The transaction of `resume_paper` up to its commit: what the caller gets, and the store. -/
def Store.resumeOnce (s : Store) (command : ResumePaperCommand) (requestedAt : UTCDateTime)
    (actor : String) (now : UTCDateTime) : Call (Call PaperOperationRecord × Store) := do
  let preparation ← s.prepareResume command
  let (reports, reasons) ← s.reconcilePrepared preparation.accountIds requestedAt
  if reasons = [] then do
    let (record, resumed) ← s.completeResume command preparation reports actor now
    return (.success record, resumed)
  else do
    let (_, rejected) ← s.rejectResume command preparation actor reasons now
    return (fail .conflict "Paper resume reconciliation failed", rejected)

/-- `resume_paper`, for a principal that the scope is granted to. -/
def Store.resumePaper (s : Store) (command : ResumePaperCommand) (requestedAt : UTCDateTime)
    (actor : String) (commits : Bool) (now : UTCDateTime) : Call PaperOperationRecord × Store :=
  match s.resumeOnce command requestedAt actor now with
  | .success (result, s') =>
      if commits then (result, s')
      else if result.Succeeds then (fail .internalError "Paper resume did not commit", s)
      else (fail .internalError "Rejected resume audit did not commit", s)
  | .failure error => (.failure error, s)
  | .raised e => (.raised e, s)

/-! ## The daily reconciliation -/

def Store.activateReconciliationKillSwitch (s : Store) (commits : Bool) (now : UTCDateTime) :
    Call Unit × Store :=
  match s.activateGlobalKillSwitch "ledger_reconciliation_failed" "system:ledger_reconciliation"
    now with
  | .success activated =>
      if commits then (.success (), activated)
      else (fail .internalError "Reconciliation kill switch activation did not commit", s)
  | .failure _ => (fail .internalError
      "Reconciliation failed and kill switch activation failed", s)
  | .raised e => (.raised e, s)

/-- The account did not reconcile in the store that was read; `_reconcile_once` reads and compares
what `reconcile_locked_account` does. -/
def Store.Unreconciled (read : Store) (accountId : AccountId) (asOf : UTCDateTime) : Prop :=
  match read.reconcileLockedAccount accountId asOf with
  | .success report => report.matched = false
  | .failure _ => True
  | .raised _ => False

instance (read : Store) (accountId : AccountId) (asOf : UTCDateTime) :
    Decidable (read.Unreconciled accountId asOf) := by
  unfold Store.Unreconciled
  cases read.reconcileLockedAccount accountId asOf <;> exact inferInstance

/-- What `reconcile_paper_account` answers when the switch is activated. -/
def unreconciledResult : Call LedgerReconciliationReport → Call LedgerReconciliationReport
  | .success _ => fail .conflict "Ledger reconciliation mismatch"
  | result => result

/-- `reconcile_paper_account`. The first transaction reads; the switch is activated in a second,
which may start from a later store. -/
def Store.reconcilePaperAccount (s read : Store) (accountId : AccountId) (asOf : UTCDateTime)
    (commits : Bool) (now : UTCDateTime) : Call LedgerReconciliationReport × Store :=
  if read.Unreconciled accountId asOf then
    match s.activateReconciliationKillSwitch commits now with
    | (.success _, activated) =>
        (unreconciledResult (read.reconcileLockedAccount accountId asOf), activated)
    | (.failure error, s) => (.failure error, s)
    | (.raised e, s) => (.raised e, s)
  else (read.reconcileLockedAccount accountId asOf, s)

/-! ## What a resume has -/

variable {s : Store} {accountId : AccountId} {asOf : UTCDateTime}
  {report : LedgerReconciliationReport}

theorem reconcileLockedAccount_accountId
    (h : s.reconcileLockedAccount accountId asOf = .success report) :
    report.accountId = accountId := by
  simp only [Store.reconcileLockedAccount, compareLedgerProjection, Store.getOpeningSnapshot,
    Attempt.bind_eq_success, orFail_eq_success, integrityChecked_eq_success,
    modelValidate_eq_success] at h
  obtain ⟨opening, ⟨stored, hstored, _, -, _, -, -, rfl⟩, _, -, _, -, _, -, _, -, -, rfl⟩ := h
  have hkey : stored.accountId = accountId := Table.key_of_get hstored
  exact hkey

/-- The reports of a resume are the matched ones of the accounts it prepared. -/
theorem reconcilePrepared_reports {accountIds : List AccountId}
    {reports : List LedgerReconciliationReport} {reasons : List String}
    (h : s.reconcilePrepared accountIds asOf = .success (reports, reasons)) :
    ∀ report ∈ reports, report.matched = true ∧
      s.reconcileLockedAccount report.accountId asOf = .success report := by
  simp only [Store.reconcilePrepared, Attempt.bind_eq_success, Attempt.pure_eq] at h
  obtain ⟨progress, hloop, h⟩ := h
  cases h
  refine Attempt.foldlM_invariant (I := fun progress => ∀ report ∈ progress.1,
    report.matched = true ∧ s.reconcileLockedAccount report.accountId asOf = .success report)
    (fun accountId _ a b hround ha => ?_) hloop (by simp)
  unfold Store.reconcilePreparedAccount at hround
  split at hround
  · rename_i report hreport
    split at hround
    · rename_i hmatched
      cases hround
      refine List.forall_mem_append.mpr ⟨ha, ?_⟩
      rw [List.forall_mem_singleton, reconcileLockedAccount_accountId hreport]
      exact ⟨hmatched, hreport⟩
    · cases hround
      exact ha
  · cases hround
    exact ha
  · cases hround

/-- `complete_resume` is called as `resume_paper` calls it, in the transaction that prepared it. -/
def Store.PreparedResume (s : Store) (command : ResumePaperCommand)
    (preparation : ResumePreparation) (reports : List LedgerReconciliationReport) : Prop :=
  s.prepareResume command = .success preparation ∧
    ∃ asOf, s.reconcilePrepared preparation.accountIds asOf = .success (reports, [])

omit [Hashing] in
/-- A resume is prepared for the accounts that the switch covers. -/
theorem prepareResume_accountIds {command : ResumePaperCommand} {preparation : ResumePreparation}
    (h : s.prepareResume command = .success preparation) :
    preparation.accountIds = s.activationAccounts command.accountId := by
  simp only [Store.prepareResume, integrityChecked_eq_success, Attempt.bind_eq_success,
    modelValidate_eq_success] at h
  obtain ⟨_, -, row, -, _, -, accountIds, haccounts, _, -, -, rfl⟩ := h
  unfold Store.resumeAccounts at haccounts
  unfold Store.activationAccounts
  cases hof : command.accountId with
  | none =>
      simp only [hof, Attempt.bind_eq_success, Attempt.pure_eq] at haccounts
      obtain ⟨_, -, haccounts⟩ := haccounts
      exact (Attempt.success.inj haccounts).symm
  | some accountId =>
      simp only [hof, Attempt.bind_eq_success, Attempt.pure_eq] at haccounts
      obtain ⟨_, -, haccounts⟩ := haccounts
      exact (Attempt.success.inj haccounts).symm

/-- A resume that succeeds is a call of `complete_resume`, prepared in the same store. -/
theorem resumePaper_eq_success {command : ResumePaperCommand} {actor : String} {commits : Bool}
    {now : UTCDateTime} {record : PaperOperationRecord} {s' : Store}
    (h : s.resumePaper command asOf actor commits now = (.success record, s')) :
    ∃ preparation reports, s.PreparedResume command preparation reports ∧
      s.completeResume command preparation reports actor now = .success (record, s') := by
  unfold Store.resumePaper at h
  split at h
  · rename_i result t honce
    split at h
    · simp only [Store.resumeOnce, Attempt.bind_eq_success] at honce
      obtain ⟨preparation, hprepared, ⟨reports, reasons⟩, hreports, honce⟩ := honce
      cases h
      split at honce
      · rename_i hnone
        simp only [Attempt.bind_eq_success, Attempt.pure_eq] at honce
        obtain ⟨⟨record', t'⟩, hcompleted, honce⟩ := honce
        cases honce
        exact ⟨preparation, reports, ⟨hprepared, asOf, hnone ▸ hreports⟩, hcompleted⟩
      · simp only [Attempt.bind_eq_success, Attempt.pure_eq] at honce
        obtain ⟨_, -, honce⟩ := honce
        cases honce
    · split at h <;> cases h
  · cases h
  · cases h

end

end StonksPaper
