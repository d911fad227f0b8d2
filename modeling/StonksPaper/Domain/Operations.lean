import StonksPaper.Domain.ExecutionModel
import StonksPaper.Domain.Journal

/-!
# Kill switches, operator actions and persisted records

`operations.py` and `trading_persistence.py`. A switch is global or belongs to an account; every
operator action is an entry of one audit chain.
-/

namespace StonksPaper

open Chain

inductive KillSwitchScope where
  | global
  | account
deriving DecidableEq, Repr

inductive OperatorActionType where
  | activated
  | reconciled
  | reconciliationFailed
  | resumed
  | resumeRejected
deriving DecidableEq, Repr

instance : Dump KillSwitchScope := ⟨fun s => .int (s.ctorIdx : ℕ)⟩
instance : Dump OperatorActionType := ⟨fun t => .int (t.ctorIdx : ℕ)⟩

/-- `^[A-Za-z0-9_.:@-]{1,128}$`. -/
def isActor (actor : String) : Bool :=
  (1 ≤ actor.length && actor.length ≤ 128) && actor.toList.all fun c =>
    c.isAlphanum || c == '_' || c == '.' || c == ':' || c == '@' || c == '-'

def validateScope (scope : KillSwitchScope) (accountId : Option AccountId) : Call Unit :=
  raiseUnless (scope = .global ↔ accountId = none) "kill switch scope and account shape differ"

@[simp] theorem validateScope_eq_success {scope : KillSwitchScope} {accountId : Option AccountId}
    {u : Unit} : validateScope scope accountId = .success u ↔
      (scope = .global ↔ accountId = none) := raiseUnless_eq_success

/-- A switch, as it is stored and as it is returned. -/
structure PaperKillSwitchState where
  switchId : UUID
  scope : KillSwitchScope
  accountId : Option AccountId
  active : Bool
  reasonCode : String
  actor : String
  version : ℕ
  createdAt : UTCDateTime
  updatedAt : UTCDateTime
deriving DecidableEq

def PaperKillSwitchState.validate (self : PaperKillSwitchState) : Call Unit := do
  raiseUnless (isCheckCode self.reasonCode = true) "String should match the reason pattern"
  raiseUnless (isActor self.actor = true) "String should match the actor pattern"
  raiseUnless (∀ account ∈ self.accountId, account ≠ "")
    "String should have at least 1 character"
  atLeast 1 self.version
  validateScope self.scope self.accountId
  raiseUnless (self.createdAt ≤ self.updatedAt) "kill switch timeline is invalid"

structure PaperOperatorAction where
  actionId : UUID
  sequence : ℕ
  actionType : OperatorActionType
  scope : KillSwitchScope
  accountId : Option AccountId
  actor : String
  reasonCode : String
  switchVersion : ℕ
  cancelledOrderIds : List UUID
  reconciliationHashes : List Sha256
  mismatchReasons : List String
  occurredAt : UTCDateTime
  previousActionHash : Option Sha256
  actionHash : Sha256
deriving DecidableEq

def PaperOperatorAction.link : Link PaperOperatorAction Sha256 where
  sequence := (·.sequence)
  previous := (·.previousActionHash)
  hash := (·.actionHash)

def PaperOperatorAction.expectedActionHash [Hashing] (self : PaperOperatorAction) : Sha256 :=
  stablePayloadHash <| .record "PaperOperatorAction"
    [dump self.actionId, dump self.sequence, dump self.actionType, dump self.scope,
      dump self.accountId, dump self.actor, dump self.reasonCode, dump self.switchVersion,
      dump self.cancelledOrderIds, dump self.reconciliationHashes, dump self.mismatchReasons,
      dump self.occurredAt, dump self.previousActionHash]

def PaperOperatorAction.validate [Hashing] (self : PaperOperatorAction) : Call Unit := do
  atLeast 1 self.sequence
  raiseUnless (isActor self.actor = true) "String should match the actor pattern"
  raiseUnless (isCheckCode self.reasonCode = true) "String should match the reason pattern"
  atLeast 1 self.switchVersion
  maxLength tupleLimit self.cancelledOrderIds.length
  maxLength tupleLimit self.reconciliationHashes.length
  maxLength tupleLimit self.mismatchReasons.length
  raiseUnless (∀ reason ∈ self.mismatchReasons, reason ≠ "")
    "String should have at least 1 character"
  raiseUnless (∀ account ∈ self.accountId, account ≠ "")
    "String should have at least 1 character"
  raiseUnless (self.scope = .global ↔ self.accountId = none)
    "operator action scope and account shape differ"
  raiseUnless (self.sequence = 1 ↔ self.previousActionHash = none)
    "only genesis operator action may omit previous hash"
  requireSortedUnique self.cancelledOrderIds "cancelled order IDs"
  requireSortedUnique self.reconciliationHashes "reconciliation hashes"
  requireSortedUnique self.mismatchReasons "mismatch reasons"
  raiseUnless (self.actionHash = self.expectedActionHash)
    "operator action hash does not match payload"

/-- The action that `PaperOperatorAction.create` builds, before its validators run. -/
def paperOperatorAction [Hashing] (provisional : PaperOperatorAction) : PaperOperatorAction :=
  { provisional with actionHash := provisional.expectedActionHash }

structure PaperOperationRecord where
  state : PaperKillSwitchState
  action : PaperOperatorAction
deriving DecidableEq

def PaperOperationRecord.validate (self : PaperOperationRecord) : Call Unit :=
  raiseUnless (self.state.scope = self.action.scope ∧ self.state.accountId = self.action.accountId ∧
    self.state.version = self.action.switchVersion)
    "operator action does not match resulting switch state"

structure ResumePreparation where
  state : PaperKillSwitchState
  accountIds : List AccountId
deriving DecidableEq

def ResumePreparation.validate (self : ResumePreparation) : Call Unit := do
  atLeast 1 self.accountIds.length
  maxLength tupleLimit self.accountIds.length
  requireSortedUnique self.accountIds "resume account IDs"
  raiseUnless (self.state.active = true) "resume preparation requires an active switch"
  raiseUnless (self.state.scope = .account → self.state.accountId.toList = self.accountIds)
    "account resume must lock its exact account"

structure ActivateKillSwitchCommand where
  actionId : UUID
  scope : KillSwitchScope
  accountId : Option AccountId
  expectedVersion : ℕ
  reasonCode : String
deriving DecidableEq

def ActivateKillSwitchCommand.validate (self : ActivateKillSwitchCommand) : Call Unit := do
  raiseUnless (isCheckCode self.reasonCode = true) "String should match the reason pattern"
  raiseUnless (∀ account ∈ self.accountId, account ≠ "")
    "String should have at least 1 character"
  validateScope self.scope self.accountId
  raiseUnless (self.scope = .global → 1 ≤ self.expectedVersion)
    "global switch must already exist"

structure ReconcilePaperCommand where
  actionId : UUID
  accountId : AccountId
deriving DecidableEq

structure ResumePaperCommand where
  actionId : UUID
  scope : KillSwitchScope
  accountId : Option AccountId
  expectedVersion : ℕ
  reasonCode : String
deriving DecidableEq

def ResumePaperCommand.validate (self : ResumePaperCommand) : Call Unit := do
  raiseUnless (isCheckCode self.reasonCode = true) "String should match the reason pattern"
  raiseUnless (∀ account ∈ self.accountId, account ≠ "")
    "String should have at least 1 character"
  atLeast 1 self.expectedVersion
  validateScope self.scope self.accountId

def reconciliationReportHash [Hashing] (report : LedgerReconciliationReport) : Sha256 :=
  stablePayloadHash (dump report)

/-! ## Persisted records -/

structure PaperExecutionRecord where
  accountId : AccountId
  idempotencyKey : String
  commandId : UUID
  commandHash : Sha256
  intentHash : Sha256
  outcome : PaperExecutionOutcome
deriving DecidableEq

def PaperExecutionRecord.validate (self : PaperExecutionRecord) : Call Unit := do
  nonEmptyString self.accountId
  nonEmptyString self.idempotencyKey
  raiseUnless (self.outcome.receipt.accountId = self.accountId ∧
    self.outcome.receipt.commandId = self.commandId ∧
    self.outcome.receipt.intentHash = self.intentHash)
    "paper execution record identity does not match receipt"

structure ReservationOrderItem where
  reservation : AccountReservation
  reservationEvent : ReservationEvent
  orderIntent : OrderIntent
deriving DecidableEq

def ReservationOrderItem.validate (self : ReservationOrderItem) : Call Unit :=
  raiseUnless (self.reservation.reservationId = self.reservationEvent.reservationId ∧
    self.reservation.orderIntentId = self.orderIntent.intentId ∧
    self.reservation.reservationId = self.orderIntent.reservationId ∧
    self.reservation.accountId = self.orderIntent.accountId ∧
    self.reservation.eventHash = self.orderIntent.reservationHash)
    "reservation/order item bindings are invalid"

structure ReservationOrderBatchRecord where
  items : List ReservationOrderItem
  accountEvent : PaperAccountEvent
deriving DecidableEq

def ReservationOrderBatchRecord.validate (self : ReservationOrderBatchRecord) : Call Unit := do
  let intents := self.items.map (·.orderIntent)
  atLeast 1 self.items.length
  maxLength tupleLimit self.items.length
  raiseUnless (intents = sorted (·.intentId) intents)
    "reservation/order batch must be stably sorted"
  raiseUnless ((∀ intent ∈ intents, intent.accountId = self.accountEvent.accountId ∧
      intent.accountAggregateSequence = self.accountEvent.sequence ∧
      intent.riskDecisionId = self.accountEvent.aggregateRefId) ∧
    self.accountEvent.aggregateRefType = "reservation_orders")
    "reservation/order batch bindings are invalid"

end StonksPaper
