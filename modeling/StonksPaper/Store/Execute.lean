import StonksPaper.Broker.Reference
import StonksPaper.Store.Execution

/-!
# Execution of an order

`execute.py`: look-up of a stored record, simulation, persistence and journal in one transaction,
and the global kill switch in a second one when the ledger does not accept what was simulated.

The first look-up takes no lock; `lookup` is the store it reads. The check of the kill switches
locks the row of the global switch, which orders everything after it.
-/

namespace StonksPaper

open Chain
open scoped ExactArithmetic

/-- A failure, and whether it must activate the kill switch. -/
structure Refusal where
  failure : Failure
  mismatch : Bool
deriving DecidableEq

abbrev Verdict (α : Type) := Attempt Refusal Exception α

/-- `return failure, mismatch` for a failed call. -/
def flagged {α : Type} (mismatch : Bool) : Call α → Verdict α
  | .success a => .success a
  | .failure e => .failure ⟨e, mismatch⟩
  | .raised e => .raised e

@[simp] theorem flagged_eq_success {α : Type} {mismatch : Bool} {x : Call α} {a : α} :
    flagged mismatch x = .success a ↔ x = .success a := by
  cases x <;> simp [flagged]

section

variable [Hashing]

/-- `get_execution_record`, where a missing record is no failure. -/
def Store.lookupRecord (s : Store) (intent : OrderIntent) :
    Verdict (Option PaperExecutionRecord) :=
  match s.getExecutionRecord intent.accountId intent.idempotencyKey with
  | .success record => .success (some record)
  | .failure e => if e.code = .notFound then .success none else .failure ⟨e, false⟩
  | .raised e => .raised e

/-- A stored record is returned for the same command, once its graph is validated. -/
def Store.replayRecord (s : Store) (command : ExecutionCommand) (record : PaperExecutionRecord) :
    Verdict PaperExecutionRecord := do
  flagged false <| failUnless (record.commandHash = command.commandHash) .conflict
    "Execution idempotency payload changed"
  flagged true <| s.validateExecutionGraph record
  return record

/-- The projection that the journal continues; a conflict in it is a mismatch. -/
def Store.currentProjection (s : Store) (accountId : AccountId) : Verdict LedgerProjection :=
  match s.getProjection accountId with
  | .success projection => .success projection
  | .failure e => .failure ⟨e, decide (e.code = .conflict)⟩
  | .raised e => .raised e

/-- One round of the loop over the new fills. -/
def postFill (ledgerPolicy : LedgerPostingPolicy) (now : UTCDateTime)
    (progress : Store × LedgerProjection × ℕ) (fill : Fill) :
    Call (Store × LedgerProjection × ℕ) := do
  let (s, projection, accountSequence) := progress
  let journal ← buildFillJournal fill projection ledgerPolicy
  let (_, s) ← s.append journal projection.ledgerSequence projection.ledgerHash accountSequence now
  let refreshed ← s.getProjection fill.accountId
  return (s, refreshed, accountSequence + 1)

def PaperExecutionRequest.rehydrated (request : PaperExecutionRequest) (held : AccountReservation)
    (events : List OrderEvent) (fills : List Fill) : PaperExecutionRequest :=
  { request with reservation := held, priorEvents := events, priorFills := fills }

/-- Simulation, persistence and journal of an order that has no record yet. -/
def Store.executeOrder (s : Store) (policy : PaperExecutionPolicy)
    (ledgerPolicy : LedgerPostingPolicy) (authoritative : PaperExecutionRequest)
    (projection : LedgerProjection) (accountSequence : ℕ) (now : UTCDateTime) :
    Verdict (PaperExecutionRecord × Store) := do
  flagged false <| integrityChecked "Execution state cannot be rehydrated" authoritative.validate
  let simulated ← flagged false <| execute policy authoritative
  let (record, s) ← flagged false <|
    s.applyPaperExecution authoritative.command simulated accountSequence
  let newFills := simulated.receipt.fills.drop authoritative.priorFills.length
  let (s, _) ← flagged true <|
    newFills.foldlM (postFill ledgerPolicy now) (s, projection, accountSequence)
  flagged true <| s.validateExecutionGraph record
  return (record, s)

/-- The part of `_execute_once` for a command that is not stale. -/
def Store.executeCurrent (s : Store) (policy : PaperExecutionPolicy)
    (ledgerPolicy : LedgerPostingPolicy) (request : PaperExecutionRequest)
    (held : AccountReservation) (accountSequence : ℕ) (now : UTCDateTime) :
    Verdict (PaperExecutionRecord × Store) := do
  let intent := request.command.intent
  let projection ← s.currentProjection intent.accountId
  let events ← flagged false <| s.listOrderEvents intent.intentId
  let fills ← flagged false <| s.listFills intent.intentId
  match ← s.lookupRecord intent with
  | some record => do
      let record ← s.replayRecord request.command record
      return (record, s)
  | none =>
      let authoritative := request.rehydrated held events fills
      s.executeOrder policy ledgerPolicy authoritative projection accountSequence now

/-- `sequence_replay`: a stale command may still be one that was executed. -/
def Store.executeStale (s : Store) (request : PaperExecutionRequest) :
    Verdict (PaperExecutionRecord × Store) :=
  let stale : Verdict (PaperExecutionRecord × Store) :=
    flagged false <| fail .conflict "Execution account sequence is stale"
  match s.getExecutionRecord request.command.intent.accountId
      request.command.intent.idempotencyKey with
  | .success record =>
      if record.commandHash = request.command.commandHash then do
        flagged true <| s.validateExecutionGraph record
        return (record, s)
      else stale
  | .failure _ => stale
  | .raised e => .raised e

/-- `_execute_once` after the first look-up. -/
def Store.executeLocked (s : Store) (policy : PaperExecutionPolicy)
    (ledgerPolicy : LedgerPostingPolicy) (request : PaperExecutionRequest) (now : UTCDateTime) :
    Verdict (PaperExecutionRecord × Store) := do
  let intent := request.command.intent
  flagged false <| s.requireExecutionEnabled intent.accountId
  let loaded ← flagged false <| s.getOrderByIdempotency intent.accountId intent.idempotencyKey
  flagged false <| failUnless (loaded = intent) .conflict "Execution order intent binding changed"
  let held ← flagged false <| s.getReservation intent.reservationId
  let account ← flagged false <| s.getAccount intent.accountId
  if account.accountAggregateSequence = request.command.accountAggregateSequence then
    s.executeCurrent policy ledgerPolicy request held account.accountAggregateSequence now
  else s.executeStale request

/-- `_execute_once`, up to the commit. -/
def Store.executeOnce (s lookup : Store) (policy : PaperExecutionPolicy)
    (ledgerPolicy : LedgerPostingPolicy) (request : PaperExecutionRequest) (now : UTCDateTime) :
    Verdict (PaperExecutionRecord × Store) := do
  match ← lookup.lookupRecord request.command.intent with
  | some record => do
      let record ← s.replayRecord request.command record
      return (record, s)
  | none => s.executeLocked policy ledgerPolicy request now

/-- Whether the commits of the two transactions succeed. -/
structure Commits where
  execution : Bool := true
  killSwitch : Bool := true
deriving DecidableEq

/-- `_activate_accounting_kill_switch`, and the result that the caller then gets. -/
def Store.accountingMismatch (s : Store) (failure : Failure) (commits : Commits)
    (now : UTCDateTime) : Call PaperExecutionRecord × Store :=
  match s.activateGlobalKillSwitch "ledger_invariant_mismatch" "system:paper_execution" now with
  | .success activated =>
      if commits.killSwitch then (.failure failure, activated)
      else (fail .internalError "Global paper kill switch activation did not commit", s)
  | .failure _ => (fail .internalError
      "Ledger failed and global paper kill switch could not be activated", s)
  | .raised e => (.raised e, s)

/-- `execute_reference_paper`: the result, and the store it leaves. A replay changes nothing and
needs no commit. -/
def Store.executeReferencePaper (s lookup : Store) (policy : PaperExecutionPolicy)
    (ledgerPolicy : LedgerPostingPolicy) (request : PaperExecutionRequest) (commits : Commits)
    (now : UTCDateTime) : Call PaperExecutionRecord × Store :=
  match s.executeOnce lookup policy ledgerPolicy request now with
  | .success (record, executed) =>
      if executed = s ∨ commits.execution = true then (.success record, executed)
      else s.accountingMismatch ⟨.conflict, "Accounted execution commit failed", []⟩ commits now
  | .failure ⟨failure, false⟩ => (.failure failure, s)
  | .failure ⟨failure, true⟩ => s.accountingMismatch failure commits now
  | .raised e => (.raised e, s)

end

end StonksPaper
