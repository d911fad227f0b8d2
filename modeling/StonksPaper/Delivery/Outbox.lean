import Mathlib.Data.Prod.Lex
import StonksPaper.Base.Run
import StonksPaper.Jobs.Tables

/-!
# Outbox delivery

`outbox.py`. Publishers claim messages of the outbox, and acknowledge them or give them back. Every
call is one transaction, at one reading of the database clock; the messages that another transaction
has locked are skipped by a claim, and which ones these are is an input of it.
-/

namespace StonksPaper

open Chain

/-- A row of the outbox with its delivery columns. -/
structure DeliveryRow extends OutboxRow where
  publishedAt : Option UTCDateTime
  maxAttempts : ℕ
  leaseOwner : Option String
  leaseUntil : Option UTCDateTime
  leaseGeneration : ℕ
  leaseNonce : Option UUID
  lastError : Option Payload
deriving DecidableEq

structure OutboxLease where
  outboxId : UUID
  aggregateType : String
  aggregateId : UUID
  sequence : ℕ
  topic : String
  payload : Payload
  idempotencyKey : AuditKey
  leaseOwner : String
  leaseUntil : UTCDateTime
  leaseGeneration : ℕ
  leaseNonce : UUID
  attempts : ℕ
deriving DecidableEq

structure OutboxAckReceipt where
  outboxId : UUID
  workerId : String
  leaseGeneration : ℕ
  leaseNonce : UUID
  publishedAt : UTCDateTime
deriving DecidableEq

/-- The arguments of a claim, and the nonces that it draws for the messages. -/
structure ClaimMessages where
  workerId : String
  leaseFor : ℤ
  limit : ℤ
  nonce : UUID → UUID

/-- What a worker shows for a message that it has claimed. -/
structure OutboxFence where
  outboxId : UUID
  workerId : String
  leaseGeneration : ℕ
  leaseNonce : UUID
deriving DecidableEq

structure NackMessage where
  fence : OutboxFence
  retryAt : UTCDateTime
  errorCode : String
deriving DecidableEq

def validWorker (value : String) : Prop := isBlank value = false ∧ value.length ≤ 128

instance (value : String) : Decidable (validWorker value) := inferInstanceAs (Decidable (_ ∧ _))

namespace DeliveryRow

/-- `_lease`; what `OutboxLease` validates of it holds of the rows that are published. -/
def lease (self : DeliveryRow) : QueueCall OutboxLease :=
  match self.leaseOwner, self.leaseUntil, self.leaseNonce with
  | some leaseOwner, some leaseUntil, some leaseNonce => do
      .valid (1 ≤ self.leaseGeneration) "claimed outbox row is missing lease fields"
      .valid (self.aggregateType ≠ "" ∧ self.topic ≠ "" ∧ leaseOwner ≠ "")
        "String should have at least 1 character"
      .valid (1 ≤ self.sequence ∧ 1 ≤ self.attempts)
        "Input should be greater than or equal to 1"
      return {
        outboxId := self.outboxId
        aggregateType := self.aggregateType
        aggregateId := self.aggregateId
        sequence := self.sequence
        topic := self.topic
        payload := self.payload
        idempotencyKey := self.idempotencyKey
        leaseOwner := leaseOwner
        leaseUntil := leaseUntil
        leaseGeneration := self.leaseGeneration
        leaseNonce := leaseNonce
        attempts := self.attempts }
  | _, _, _ => .raised (.valueError "claimed outbox row is missing lease fields")

/-- The row that a claim leaves. -/
def leased (self : DeliveryRow) (request : ClaimMessages) (now : UTCDateTime) : DeliveryRow :=
  { self with
    leaseOwner := some request.workerId
    leaseUntil := some (now + request.leaseFor)
    leaseGeneration := self.leaseGeneration + 1
    leaseNonce := some (request.nonce self.outboxId)
    attempts := self.attempts + 1 }

def MatchesFence (self : DeliveryRow) (fence : OutboxFence) : Prop :=
  self.leaseOwner = some fence.workerId ∧ self.leaseGeneration = fence.leaseGeneration ∧
    self.leaseNonce = some fence.leaseNonce

instance (self : DeliveryRow) (fence : OutboxFence) : Decidable (self.MatchesFence fence) :=
  inferInstanceAs (Decidable (_ ∧ _))

def LeaseLive (self : DeliveryRow) (now : UTCDateTime) : Prop :=
  ∃ leaseUntil ∈ self.leaseUntil, now < leaseUntil

instance (self : DeliveryRow) (now : UTCDateTime) : Decidable (self.LeaseLive now) :=
  inferInstanceAs (Decidable (∃ _ ∈ _, _))

/-- The messages that a claim selects. -/
def Deliverable (now : UTCDateTime) (self : DeliveryRow) : Prop :=
  self.publishedAt = none ∧ self.notBefore ≤ now ∧ self.attempts < self.maxAttempts ∧
    ∀ leaseUntil ∈ self.leaseUntil, leaseUntil ≤ now

instance (now : UTCDateTime) (self : DeliveryRow) : Decidable (self.Deliverable now) :=
  inferInstanceAs (Decidable (_ ∧ _))

end DeliveryRow

/-- The fence of a lease. -/
def OutboxLease.fence (self : OutboxLease) : OutboxFence where
  outboxId := self.outboxId
  workerId := self.leaseOwner
  leaseGeneration := self.leaseGeneration
  leaseNonce := self.leaseNonce

/-- The fence that a receipt repeats. -/
def OutboxAckReceipt.fence (self : OutboxAckReceipt) : OutboxFence where
  outboxId := self.outboxId
  workerId := self.workerId
  leaseGeneration := self.leaseGeneration
  leaseNonce := self.leaseNonce

/-- A message as it is inserted by the operation that records it. -/
def OutboxRow.posted (self : OutboxRow) (maxAttempts : ℕ) : DeliveryRow :=
  { self with
    publishedAt := none
    attempts := 0
    maxAttempts := maxAttempts
    leaseOwner := none
    leaseUntil := none
    leaseGeneration := 0
    leaseNonce := none
    lastError := none }

abbrev Outbox := List DeliveryRow

namespace Outbox

variable (s : Outbox)

def message (outboxId : UUID) : Option DeliveryRow := Table.get (·.outboxId) s outboxId

def post (row : OutboxRow) (maxAttempts : ℕ) : QueueCall Outbox := do
  .constraint (Table.Fresh (·.outboxId) row.outboxId s ∧
    Table.Fresh (·.idempotencyKey) row.idempotencyKey s ∧
    Table.Fresh (fun o : DeliveryRow => (o.aggregateType, o.aggregateId, o.sequence))
      (row.aggregateType, row.aggregateId, row.sequence) s ∧ 0 < maxAttempts) "outbox constraints"
  return s ++ [row.posted maxAttempts]

def deliverable (locked : List UUID) (limit : ℕ) (now : UTCDateTime) : List DeliveryRow :=
  (sorted (fun row : DeliveryRow => toLex (row.notBefore, toLex (row.createdAt, row.outboxId)))
    (s.filter fun row => row.Deliverable now ∧ row.outboxId ∉ locked)).take limit

def claim (request : ClaimMessages) (locked : List UUID) (now : UTCDateTime) :
    QueueCall (List OutboxLease × Outbox) := do
  .accepted (validWorker request.workerId) .invalidInput "Outbox claim input is invalid"
  .accepted (0 < request.leaseFor ∧ 1 ≤ request.limit ∧ request.limit ≤ 100) .invalidInput
    "Outbox lease parameters are invalid"
  let rows := s.deliverable locked request.limit.toNat now
  let leases ← rows.mapM fun row => (row.leased request now).lease
  return (leases, Table.update (·.outboxId ∈ rows.map (·.outboxId)) (·.leased request now) s)

/-- The receipt of `_ack_locked`. -/
def receipt (fence : OutboxFence) (publishedAt : UTCDateTime) : OutboxAckReceipt where
  outboxId := fence.outboxId
  workerId := fence.workerId
  leaseGeneration := fence.leaseGeneration
  leaseNonce := fence.leaseNonce
  publishedAt := publishedAt

/-- `_ack_locked`: an acknowledged message keeps its fence, so that it can be acknowledged again. -/
def ackLocked (row : DeliveryRow) (fence : OutboxFence) (now : UTCDateTime) :
    QueueCall (OutboxAckReceipt × Outbox) :=
  match row.publishedAt with
  | some publishedAt => do
      .accepted (row.MatchesFence fence) .conflict "Outbox fence mismatch"
      return (receipt fence publishedAt, s)
  | none => do
      .accepted (row.LeaseLive now ∧ row.MatchesFence fence) .conflict
        "Outbox lease is stale or invalid"
      return (receipt fence now, Table.update (·.outboxId = row.outboxId)
        (fun r => { r with publishedAt := some now, leaseUntil := none }) s)

/-- What `ack` and `nack` ask of the fence. -/
def ValidFence (fence : OutboxFence) : Prop :=
  validWorker fence.workerId ∧ 1 ≤ fence.leaseGeneration

instance (fence : OutboxFence) : Decidable (ValidFence fence) := inferInstanceAs (Decidable (_ ∧ _))

def ack (fence : OutboxFence) (now : UTCDateTime) : QueueCall (OutboxAckReceipt × Outbox) := do
  .accepted (ValidFence fence) .invalidInput "Outbox acknowledgement is invalid"
  let row ← .orRefused .notFound "Outbox message was not found" (s.message fence.outboxId)
  s.ackLocked row fence now

/-- `{"code": error_code[:128]}`. -/
def retryError (errorCode : String) : Payload :=
  .record "error" [dump (String.ofList (errorCode.toList.take 128))]

variable [JsonColumn]

def nackLocked (row : DeliveryRow) (request : NackMessage) (now : UTCDateTime) :
    QueueCall (Bool × Outbox) := do
  .accepted (row.publishedAt = none ∧ row.MatchesFence request.fence ∧ row.LeaseLive now) .conflict
    "Outbox lease is stale or invalid"
  Queue.scanned (retryError request.errorCode)
  return (true, Table.update (·.outboxId = row.outboxId)
    (fun r => { r with
      notBefore := request.retryAt
      leaseOwner := none
      leaseUntil := none
      leaseNonce := none
      lastError := some (stored (retryError request.errorCode)) }) s)

def nack (request : NackMessage) (now : UTCDateTime) : QueueCall (Bool × Outbox) := do
  .accepted (ValidFence request.fence ∧ isBlank request.errorCode = false) .invalidInput
    "Outbox retry input is invalid"
  let row ← .orRefused .notFound "Outbox message was not found" (s.message request.fence.outboxId)
  .accepted (now < request.retryAt) .invalidInput "Outbox retry input is invalid"
  s.nackLocked row request now

end Outbox

/-! ## Runs of the outbox -/

inductive OutboxOperation where
  | post (row : OutboxRow) (maxAttempts : ℕ)
  | claim (request : ClaimMessages) (locked : List UUID)
  | ack (fence : OutboxFence)
  | nack (request : NackMessage)

/-- What a worker is told. -/
inductive DeliveryEvent where
  | leased (lease : OutboxLease)
  | acknowledged (receipt : OutboxAckReceipt)
  | returned (fence : OutboxFence)
deriving DecidableEq

/-- The outbox, what the workers were told so far, and the last reading of the clock. -/
structure Delivery where
  outbox : Outbox
  history : List DeliveryEvent
  clock : UTCDateTime

def Delivery.opened (clock : UTCDateTime) : Delivery := ⟨[], [], clock⟩

variable [JsonColumn]

/-- The events of an operation, and the outbox that it leaves. -/
def OutboxOperation.outcome (s : Outbox) (now : UTCDateTime) :
    OutboxOperation → QueueCall (List DeliveryEvent × Outbox)
  | .post row maxAttempts => do
      let s ← s.post row maxAttempts
      return ([], s)
  | .claim request locked => do
      let (leases, s) ← s.claim request locked now
      return (leases.map .leased, s)
  | .ack fence => do
      let (receipt, s) ← s.ack fence now
      return ([.acknowledged receipt], s)
  | .nack request => do
      let (_, s) ← s.nack request now
      return ([.returned request.fence], s)

abbrev TimedOutboxOperation := OutboxOperation × UTCDateTime

/-- An operation that does not succeed tells nothing and changes nothing. -/
def Delivery.step (d : Delivery) (op : TimedOutboxOperation) : Delivery :=
  match op.1.outcome d.outbox op.2 with
  | .success (events, s) => ⟨s, d.history ++ events, op.2⟩
  | _ => { d with clock := op.2 }

def Delivery.Monotone (d : Delivery) (op : TimedOutboxOperation) : Prop := d.clock ≤ op.2

instance (d : Delivery) (op : TimedOutboxOperation) : Decidable (d.Monotone op) :=
  inferInstanceAs (Decidable (_ ≤ _))

def Delivery.reached (clock : UTCDateTime) (ops : List TimedOutboxOperation) : Delivery :=
  Run.run Delivery.step (Delivery.opened clock) ops

end StonksPaper
