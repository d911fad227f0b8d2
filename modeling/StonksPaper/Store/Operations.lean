import StonksPaper.Store.Execution

/-!
# Operator actions

`paper_operations.py`: activation of a kill switch cancels every pending order it covers in the
same transaction, and every action is an entry of the audit chain.
-/

namespace StonksPaper

open Chain
open scoped ExactArithmetic

section

variable [Hashing]

/-! ## Switches and accounts -/

def stateFromRow (row : PaperKillSwitchState) : Call PaperKillSwitchState :=
  integrityChecked "Kill switch state is invalid" <| modelValidate PaperKillSwitchState.validate row

def Store.switchRow (s : Store) (scope : KillSwitchScope) (accountId : Option AccountId) :
    Call PaperKillSwitchState := do
  failUnless (scope = .global ↔ accountId = none) .invalidInput "Kill switch scope is invalid"
  match s.switch scope accountId with
  | [row] => return row
  | [] => fail .notFound "Paper kill switch was not found"
  | _ => fail .conflict "Paper kill switch was not found"

def Store.lockAccountIds (s : Store) (accountIds : List AccountId) : Call Unit :=
  failUnless (sorted id ((s.accounts.filter (·.accountId ∈ accountIds)).map (·.accountId)) =
    sorted id accountIds) .notFound "Paper account was not found"

def Store.activationAccounts (s : Store) (accountId : Option AccountId) : List AccountId :=
  match accountId with
  | some accountId => [accountId]
  | none => sorted id (s.accounts.map (·.accountId))

def Store.requireNewAction (s : Store) (actionId : UUID) : Call Unit :=
  failUnless (Table.Fresh (·.actionId) actionId s.actions) .conflict
    "Operator action already exists"

def Store.appendAction (s : Store) (actionId : UUID) (actionType : OperatorActionType)
    (scope : KillSwitchScope) (accountId : Option AccountId) (actor reasonCode : String)
    (switchVersion : ℕ) (cancelledOrderIds : List UUID) (reconciliationHashes : List Sha256)
    (mismatchReasons : List String) (now : UTCDateTime) :
    Call (PaperOperatorAction × Store) := do
  let action ← modelValidate PaperOperatorAction.validate <| paperOperatorAction
    { actionId, actionType, scope, accountId, actor, reasonCode, switchVersion
      sequence := s.auditHead.sequence + 1
      cancelledOrderIds := sorted id cancelledOrderIds
      reconciliationHashes := sorted id reconciliationHashes
      mismatchReasons := sorted id mismatchReasons.dedup
      occurredAt := now
      previousActionHash := s.auditHead.actionHash
      actionHash := 0 }
  let s ← s.insertAction action
  let s ← s.updateAuditHead ⟨action.sequence, some action.actionHash⟩
  return (action, s)

/-! ## Cancelling the pending orders -/

def pendingMutation (before : AccountReservation) (at_ : UTCDateTime) : Call ReservationMutation :=
  if before.expiresAt ≤ at_ then expireReservation before at_
  else releaseReservation before at_ "paper_kill_switch_activated"

/-- `_release_reservation`. -/
def Store.releasePending (s : Store) (intent : OrderIntent) (at_ : UTCDateTime) : Call Store := do
  let before ← orFail .conflict "Pending order reservation is missing"
    (s.reservation intent.reservationId)
  integrityChecked "Pending reservation integrity failed" before.validate
  failUnless before.state.Mutable .conflict "Pending reservation is terminal"
  let changed ← pendingMutation before at_
  let s ← s.insertReservationEvent changed.event
  let s ← s.updateReservation before (before.moved changed.reservation)
  s.releaseReserved before before.remainingAmount "Reserved projection release failed"

/-- `_order_events`. -/
def Store.pendingEvents (s : Store) (intentId : UUID) : Call (List OrderEvent) := do
  integrityChecked "Order event integrity failed" do
    (s.orderEventsOf intentId).forM (·.validate)
  failUnless (Linked OrderEvent.link 0 none (s.orderEventsOf intentId)) .conflict
    "Order event chain is invalid"
  return s.orderEventsOf intentId

def cancelStatus (intent : OrderIntent) (at_ : UTCDateTime) : OrderStatus :=
  if intent.validUntil ≤ at_ then .expired else .cancelled

/-- The part of a round of `_cancel_pending_orders` for an order that is not terminal. -/
def Store.cancelOrder (s : Store) (intent : OrderIntent) (previous : Option OrderEvent)
    (at_ : UTCDateTime) : Call Store := do
  let created ← appendOrderEvent intent previous (cancelStatus intent at_)
    (previous.elim 0 (·.cumulativeFilledQuantity)) at_ "paper_kill_switch_activated"
  let s ← s.releasePending intent at_
  s.insertOrderEvent created

/-- One round of the loop of `_cancel_pending_orders`. -/
def cancelPending (at_ : UTCDateTime) (progress : List UUID × Store) (intent : OrderIntent) :
    Call (List UUID × Store) := do
  let (cancelled, s) := progress
  integrityChecked "Order intent integrity failed" intent.validate
  let events ← s.pendingEvents intent.intentId
  let previous := events.getLast?
  if (previous.elim OrderStatus.created (·.toStatus)).Terminal then return (cancelled, s)
  else do
    let s ← s.cancelOrder intent previous at_
    return (cancelled ++ [intent.intentId], s)

def Store.cancelPendingOrders (s : Store) (accountIds : List AccountId) (at_ : UTCDateTime) :
    Call (List UUID × Store) :=
  if accountIds = [] then return ([], s)
  else do
    s.lockAccountIds accountIds
    (sorted (·.intentId) (s.intents.filter (·.accountId ∈ accountIds))).foldlM (cancelPending at_)
      ([], s)

/-! ## Activation -/

/-- The arguments of `_activate`. -/
structure Activation where
  actionId : UUID
  accountId : Option AccountId
  expectedVersion : Option ℕ
  actor : String
  reasonCode : String
  actionType : OperatorActionType
  mismatchReasons : List String
deriving DecidableEq

def Activation.scope (a : Activation) : KillSwitchScope :=
  if a.accountId = none then .global else .account

/-- The row that `_account_switch` adds for an account without one, as it is flushed. -/
def Activation.newSwitch (a : Activation) (accountId : AccountId) (now : UTCDateTime) :
    PaperKillSwitchState :=
  ⟨uuid5 (.record "paper-kill-switch" [dump accountId]), .account, some accountId, true,
    a.reasonCode, a.actor, 1, now, now⟩

/-- The switch's row after activation: an existing row moves to its next version. -/
def Store.activateRow (s : Store) (a : Activation) (row : PaperKillSwitchState)
    (now : UTCDateTime) : Call (PaperKillSwitchState × Store) := do
  failUnless (∀ version ∈ a.expectedVersion, row.version = version) .conflict
    "Kill switch activation CAS failed"
  let activated := row.activated a.reasonCode a.actor now
  let s ← s.updateSwitch row activated
  return (activated, s)

/-- `_account_switch` and the activation of the row it returns. -/
def Store.activateAccountSwitch (s : Store) (a : Activation) (accountId : AccountId)
    (now : UTCDateTime) : Call (PaperKillSwitchState × Store) := do
  s.lockAccountIds [accountId]
  match s.switch .account (some accountId) with
  | row :: _ => s.activateRow a row now
  | [] => do
      failUnless (a.expectedVersion = some 0) .conflict "Account kill switch CAS failed"
      let s ← s.insertSwitch (a.newSwitch accountId now)
      return (a.newSwitch accountId now, s)

/-- The switch of an activation, made active. -/
def Store.activateSwitch (s : Store) (a : Activation) (now : UTCDateTime) :
    Call (PaperKillSwitchState × Store) := do
  let globalRow ← s.switchRow .global none
  match a.accountId with
  | none => s.activateRow a globalRow now
  | some accountId => s.activateAccountSwitch a accountId now

/-- `_activate`. -/
def Store.activateOperation (s : Store) (a : Activation) (now : UTCDateTime) :
    Call (PaperOperationRecord × Store) := do
  s.requireNewAction a.actionId
  let (row, s) ← s.activateSwitch a now
  let (cancelled, s) ← s.cancelPendingOrders (s.activationAccounts a.accountId) now
  let state ← stateFromRow row
  let (action, s) ← s.appendAction a.actionId a.actionType a.scope a.accountId a.actor
    a.reasonCode state.version cancelled [] a.mismatchReasons now
  let record ← modelValidate PaperOperationRecord.validate ⟨state, action⟩
  return (record, s)

def ActivateKillSwitchCommand.activation (command : ActivateKillSwitchCommand) (actor : String) :
    Activation :=
  ⟨command.actionId, command.accountId, some command.expectedVersion, actor, command.reasonCode,
    .activated, []⟩

def Store.activate (s : Store) (command : ActivateKillSwitchCommand) (actor : String)
    (now : UTCDateTime) : Call (PaperOperationRecord × Store) :=
  mutation "Kill switch activation conflicted" <| s.activateOperation (command.activation actor) now

def ReconcilePaperCommand.activation (command : ReconcilePaperCommand) (actor : String)
    (mismatchReasons : List String) : Activation :=
  ⟨command.actionId, none, none, actor, "ledger_reconciliation_failed", .reconciliationFailed,
    mismatchReasons⟩

def Store.failReconciliation (s : Store) (command : ReconcilePaperCommand) (actor : String)
    (mismatchReasons : List String) (now : UTCDateTime) : Call (PaperOperationRecord × Store) :=
  mutation "Failed reconciliation safety action conflicted" <|
    s.activateOperation (command.activation actor mismatchReasons) now

def Store.recordReconciliation (s : Store) (command : ReconcilePaperCommand)
    (report : LedgerReconciliationReport) (actor : String) (now : UTCDateTime) :
    Call (PaperOperatorAction × Store) :=
  mutation "Reconciliation audit conflicted" do
    failUnless (report.matched = true ∧ report.accountId = command.accountId) .conflict
      "Reconciliation report is invalid"
    s.requireNewAction command.actionId
    s.lockAccountIds [command.accountId]
    let globalRow ← s.switchRow .global none
    let (action, s) ← s.appendAction command.actionId .reconciled .account
      (some command.accountId) actor "reconciliation_passed" globalRow.version []
      [reconciliationReportHash report] [] now
    let _ ← stateFromRow globalRow
    return (action, s)

/-! ## Resumption -/

def Store.resumeAccounts (s : Store) (accountId : Option AccountId) : Call (List AccountId) :=
  match accountId with
  | some accountId => do
      s.lockAccountIds [accountId]
      return [accountId]
  | none => do
      failUnless (s.accounts ≠ []) .dataUnavailable "No paper accounts to reconcile"
      return sorted id (s.accounts.map (·.accountId))

def Store.prepareResume (s : Store) (command : ResumePaperCommand) : Call ResumePreparation :=
  integrityChecked "Resume preparation is invalid" do
    let _ ← s.switchRow .global none
    let row ← s.switchRow command.scope command.accountId
    failUnless (row.version = command.expectedVersion ∧ row.active = true) .conflict
      "Kill switch resume CAS failed"
    let accountIds ← s.resumeAccounts command.accountId
    let state ← stateFromRow row
    modelValidate ResumePreparation.validate ⟨state, accountIds⟩

def Store.preparedSwitch (s : Store) (command : ResumePaperCommand)
    (preparation : ResumePreparation) : Call PaperKillSwitchState := do
  let row ← s.switchRow command.scope command.accountId
  let state ← stateFromRow row
  failUnless (state = preparation.state ∧ row.active = true) .conflict
    "Prepared kill switch changed"
  return row

def PaperKillSwitchState.resumed (row : PaperKillSwitchState) (reasonCode actor : String)
    (now : UTCDateTime) : PaperKillSwitchState :=
  { row with active := false, reasonCode, actor, version := row.version + 1, updatedAt := now }

def Store.completeResume (s : Store) (command : ResumePaperCommand)
    (preparation : ResumePreparation) (reports : List LedgerReconciliationReport) (actor : String)
    (now : UTCDateTime) : Call (PaperOperationRecord × Store) :=
  mutation "Paper resume conflicted" do
    s.requireNewAction command.actionId
    let row ← s.preparedSwitch command preparation
    failUnless (reports.map (·.accountId) = preparation.accountIds ∧ reports ≠ [] ∧
      ∀ report ∈ reports, report.matched = true) .conflict "Resume reconciliation changed"
    let resumed := row.resumed command.reasonCode actor now
    let s ← s.updateSwitch row resumed
    let state ← stateFromRow resumed
    let (action, s) ← s.appendAction command.actionId .resumed command.scope command.accountId
      actor command.reasonCode state.version [] (reports.map reconciliationReportHash) [] now
    let record ← modelValidate PaperOperationRecord.validate ⟨state, action⟩
    return (record, s)

def Store.rejectResume (s : Store) (command : ResumePaperCommand)
    (preparation : ResumePreparation) (actor : String) (mismatchReasons : List String)
    (now : UTCDateTime) : Call (PaperOperatorAction × Store) :=
  mutation "Rejected resume audit conflicted" do
    s.requireNewAction command.actionId
    let row ← s.preparedSwitch command preparation
    s.appendAction command.actionId .resumeRejected command.scope command.accountId actor
      "resume_reconciliation_failed" row.version [] [] mismatchReasons now

end

end StonksPaper
