import StonksPaper.Base.Table
import StonksPaper.Domain.Common

/-!
# The job tables

`domain/job.py`, `domain/workflow.py` and the tables that the job queue writes: artifacts, runs,
their events, jobs and the outbox. A statement on them is refused by a constraint, or by the scan
that keeps credentials out of stored payloads.
-/

namespace StonksPaper

open Chain

/-! ## Calls -/

/-- What leaves a transaction of the queue. -/
inductive QueueException where
  | valueError (message : String)
  /-- A constraint of the database refused a row. -/
  | integrityError (message : String)
  /-- Any other refusal of the storage. -/
  | storageError (message : String)
deriving DecidableEq

abbrev QueueCall (α : Type) := Attempt Failure QueueException α

namespace QueueCall

/-- `raise ValueError(message)`, unless the condition holds. -/
def valid (c : Prop) [Decidable c] (message : String) : QueueCall Unit :=
  Attempt.require c (.valueError message)

def constraint (c : Prop) [Decidable c] (message : String) : QueueCall Unit :=
  Attempt.require c (.integrityError message)

/-- `return _failure(code, message)`, unless the condition holds. -/
def accepted (c : Prop) [Decidable c] (code : ErrorCode) (message : String) : QueueCall Unit :=
  Attempt.demand c { code := code, message := message }

def refused {α : Type} (code : ErrorCode) (message : String) : QueueCall α :=
  .failure { code := code, message := message }

def orRefused {α : Type} (code : ErrorCode) (message : String) : Option α → QueueCall α
  | some a => .success a
  | none => refused code message

def orRaised {α : Type} (message : String) : Option α → QueueCall α
  | some a => .success a
  | none => .raised (.valueError message)

variable {c : Prop} [Decidable c] {m : String} {code : ErrorCode} {u : Unit} {α : Type}

@[simp] theorem valid_eq_success : valid c m = .success u ↔ c := Attempt.require_eq_success

@[simp] theorem constraint_eq_success : constraint c m = .success u ↔ c :=
  Attempt.require_eq_success

@[simp] theorem accepted_eq_success : accepted c code m = .success u ↔ c :=
  Attempt.demand_eq_success

@[simp] theorem orRefused_eq_success {x : Option α} {a : α} :
    orRefused code m x = .success a ↔ x = some a := by
  cases x <;> simp [orRefused, refused]

@[simp] theorem orRaised_eq_success {x : Option α} {a : α} :
    orRaised m x = .success a ↔ x = some a := by
  cases x <;> simp [orRaised]

theorem valid_of (h : c) (m : String) : valid c m = .success () := Attempt.require_of h _

/-- The handlers of a transaction: `except (IntegrityError, ValueError)` and
`except SQLAlchemyError`. -/
def handled (conflictMessage internalMessage : String) : QueueCall α → QueueCall α :=
  Attempt.absorb fun
    | .valueError _ => some { code := .conflict, message := conflictMessage }
    | .integrityError _ => some { code := .conflict, message := conflictMessage }
    | .storageError _ => some { code := .internalError, message := internalMessage }

@[simp] theorem handled_eq_success {conflict internal : String} {x : QueueCall α} {a : α} :
    handled conflict internal x = .success a ↔ x = .success a := Attempt.absorb_eq_success

end QueueCall

/-! ## JSON columns -/

/-- Nothing in the value is a number with a fraction or an exponent. -/
def Payload.Plain : Payload → Prop
  | .decimal _ => False
  | .cons head tail => head.Plain ∧ tail.Plain
  | _ => True

namespace Payload

@[simp] theorem plain_list {xs : List Payload} : (list xs).Plain ↔ ∀ x ∈ xs, x.Plain := by
  induction xs with
  | nil => simp [list, Plain]
  | cons x xs ih => simp [list, Plain, ih]

@[simp] theorem plain_record {model : String} {fields : List Payload} :
    (record model fields).Plain ↔ ∀ x ∈ fields, x.Plain := by simp [record, Plain]

@[simp] theorem plain_null : null.Plain := trivial

@[simp] theorem plain_nat (n : ℕ) : (dump n).Plain := trivial

@[simp] theorem plain_string (text : String) : (dump text).Plain := trivial

@[simp] theorem plain_nats (xs : List ℕ) : (dump xs).Plain := by
  rw [show dump xs = list (xs.map dump) from rfl, plain_list]
  intro x hx
  obtain ⟨n, -, rfl⟩ := List.mem_map.mp hx
  exact plain_nat n

end Payload

/-- A column of type `SecretFreeJSONB`: `ensure_secret_free` of a value that is written, and the
value that is read later. -/
class JsonColumn where
  secretFree : Payload → Bool
  stored : Payload → Payload

export JsonColumn (secretFree stored)

def JsonColumn.KeepsPlain [JsonColumn] : Prop :=
  ∀ payload : Payload, payload.Plain → stored payload = payload

namespace PlainColumns

/-- Columns that store every value as it is, and a scan that finds nothing. -/
scoped instance columns : JsonColumn := ⟨fun _ => true, id⟩

theorem keepsPlain : JsonColumn.KeepsPlain := fun _ _ => rfl

end PlainColumns

/-! ## Statuses and requests -/

inductive JobStatus where
  | queued
  | leased
  | succeeded
  | deadLetter
  | cancelled
deriving DecidableEq, Repr

def JobStatus.value : JobStatus → String
  | queued => "queued"
  | leased => "leased"
  | succeeded => "succeeded"
  | deadLetter => "dead_letter"
  | cancelled => "cancelled"

def JobStatus.Active (status : JobStatus) : Prop := status = .queued ∨ status = .leased

instance (status : JobStatus) : Decidable status.Active := inferInstanceAs (Decidable (_ ∨ _))

inductive WorkflowStatus where
  | pending
  | running
  | degraded
  | succeeded
  | failed
  | cancelled
deriving DecidableEq, Repr

/-- `secrets.token_urlsafe(32)`. -/
abbrev Nonce := ℕ

structure CreateWorkflowRun where
  runId : UUID
  runType : String
  asOf : UTCDateTime
  policyId : String
  idempotencyKey : String
  inputHash : Sha256
  ownerSubject : String
  createdAt : UTCDateTime
deriving DecidableEq

structure EnqueueJob where
  jobId : UUID
  runId : UUID
  jobType : String
  payload : Payload
  idempotencyKey : String
  notBefore : UTCDateTime
  deadlineAt : UTCDateTime
  maxAttempts : ℕ
  createdAt : UTCDateTime
deriving DecidableEq

def EnqueueJob.payloadHash [Hashing] (self : EnqueueJob) : Sha256 := stablePayloadHash self.payload

def EnqueueJob.validate (self : EnqueueJob) : QueueCall Unit := do
  .valid (self.jobType ≠ "") "String should have at least 1 character"
  .valid (self.idempotencyKey ≠ "") "String should have at least 1 character"
  .valid (1 ≤ self.maxAttempts ∧ self.maxAttempts ≤ 100) "value must be between 1 and 100"
  .valid (self.notBefore < self.deadlineAt) "deadline_at must be later than not_before"

structure CompleteJob where
  jobId : UUID
  workerId : String
  attemptGeneration : ℕ
  attemptNonce : Nonce
  resultArtifactHash : Sha256
deriving DecidableEq

structure FailJob where
  jobId : UUID
  workerId : String
  attemptGeneration : ℕ
  attemptNonce : Nonce
  errorCode : ErrorCode
  reasonCode : String
deriving DecidableEq

/-! ## Rows -/

structure ArtifactManifestRow where
  contentHash : Sha256
  sizeBytes : ℕ
  mediaType : String
  licenseTag : String
  sensitivity : String
  source : String
  finalizedAt : UTCDateTime
  storageUri : String
  metadata : Payload
deriving DecidableEq

structure ArtifactManifest where
  contentHash : Sha256
  sizeBytes : ℕ
  mediaType : String
  licenseTag : String
  sensitivity : String
  source : String
  attributes : List (String × String)
  finalizedAt : UTCDateTime
  storageUri : String
deriving DecidableEq

/-- `metadata.model_dump(mode="json")`. -/
def ArtifactManifest.metadata (self : ArtifactManifest) : Payload :=
  .record "ArtifactMetadata" [dump self.mediaType, dump self.licenseTag, dump self.sensitivity,
    dump self.source, .list (self.attributes.map fun a => .list [dump a.1, dump a.2])]

/-- The row that registers the artifact. -/
def ArtifactManifest.row (self : ArtifactManifest) : ArtifactManifestRow where
  contentHash := self.contentHash
  sizeBytes := self.sizeBytes
  mediaType := self.mediaType
  licenseTag := self.licenseTag
  sensitivity := self.sensitivity
  source := self.source
  finalizedAt := self.finalizedAt
  storageUri := self.storageUri
  metadata := self.metadata

structure WorkflowRunRow where
  runId : UUID
  runType : String
  status : WorkflowStatus
  asOf : UTCDateTime
  policyId : String
  idempotencyKey : String
  inputHash : Sha256
  ownerSubject : String
  version : ℕ
  createdAt : UTCDateTime
  updatedAt : UTCDateTime
deriving DecidableEq

structure RunEventRow where
  eventId : UUID
  runId : UUID
  sequence : ℕ
  eventType : String
  payload : Payload
  occurredAt : UTCDateTime
  previousHash : Option Sha256
  eventHash : Sha256
deriving DecidableEq

def RunEventRow.link : Link RunEventRow Sha256 where
  sequence := (·.sequence)
  previous := (·.previousHash)
  hash := (·.eventHash)

structure JobRow where
  jobId : UUID
  runId : UUID
  jobType : String
  payload : Payload
  payloadHash : Sha256
  status : JobStatus
  idempotencyKey : String
  notBefore : UTCDateTime
  deadlineAt : UTCDateTime
  attempts : ℕ
  maxAttempts : ℕ
  attemptGeneration : ℕ
  attemptNonce : Option Nonce
  leaseOwner : Option String
  leaseUntil : Option UTCDateTime
  resultArtifactHash : Option Sha256
  lastError : Option Payload
  createdAt : UTCDateTime
  updatedAt : UTCDateTime
deriving DecidableEq

inductive AuditKind where
  | complete
  | deadLetter
  | failure
  /-- `f"paper-cycle:{job_id}:{label}:{number}"`, the key of an entry of a paper cycle. -/
  | paperCycle (label : String)
deriving DecidableEq, Repr

/-- `f"job:{job_id}:{kind}:{generation}"`. -/
structure AuditKey where
  jobId : UUID
  kind : AuditKind
  generation : ℕ
deriving DecidableEq

structure OutboxRow where
  outboxId : UUID
  aggregateType : String
  aggregateId : UUID
  sequence : ℕ
  topic : String
  payload : Payload
  idempotencyKey : AuditKey
  createdAt : UTCDateTime
  notBefore : UTCDateTime
  attempts : ℕ
deriving DecidableEq

structure Queue where
  artifacts : List ArtifactManifestRow
  runs : List WorkflowRunRow
  events : List RunEventRow
  jobs : List JobRow
  outbox : List OutboxRow
deriving DecidableEq

def Queue.migrated : Queue := ⟨[], [], [], [], []⟩

/-! ## Statements -/

namespace Queue

variable (s : Queue)

def job (jobId : UUID) : Option JobRow := Table.get (·.jobId) s.jobs jobId

def run (runId : UUID) : Option WorkflowRunRow := Table.get (·.runId) s.runs runId

def artifact (contentHash : Sha256) : Option ArtifactManifestRow :=
  Table.get (·.contentHash) s.artifacts contentHash

def eventsOf (runId : UUID) : List RunEventRow :=
  sorted (·.sequence) (s.events.filter (·.runId = runId))

/-- `SecretFreeJSONB.process_bind_param`. -/
def scanned [JsonColumn] (payload : Payload) : QueueCall Unit :=
  Attempt.require (secretFree payload = true)
    (.storageError "Durable payload contains prohibited credential material")

@[simp] theorem scanned_eq_success [JsonColumn] {payload : Payload} {u : Unit} :
    scanned payload = .success u ↔ secretFree payload = true := Attempt.require_eq_success

def insertArtifact (row : ArtifactManifestRow) : QueueCall Queue := do
  .constraint (Table.Fresh (·.contentHash) row.contentHash s.artifacts) "artifact is not unique"
  return { s with artifacts := s.artifacts ++ [row] }

def insertRun (row : WorkflowRunRow) : QueueCall Queue := do
  .constraint (Table.Fresh (·.runId) row.runId s.runs ∧
    Table.Fresh (·.idempotencyKey) row.idempotencyKey s.runs ∧ 0 < row.version) "run constraints"
  return { s with runs := s.runs ++ [row] }

/-- The checks of a job row. -/
def JobChecks (row : JobRow) : Prop :=
  0 < row.maxAttempts ∧ row.attempts ≤ row.maxAttempts ∧ row.notBefore < row.deadlineAt ∧
    ∀ hash ∈ row.resultArtifactHash, s.artifact hash ≠ none

instance (row : JobRow) : Decidable (s.JobChecks row) := inferInstanceAs (Decidable (_ ∧ _))

def insertJob [JsonColumn] (row : JobRow) : QueueCall Queue := do
  scanned row.payload
  .constraint (Table.Fresh (·.jobId) row.jobId s.jobs ∧
    Table.Fresh (·.idempotencyKey) row.idempotencyKey s.jobs ∧ s.run row.runId ≠ none ∧
    s.JobChecks row) "job constraints"
  return { s with jobs := s.jobs ++ [{ row with payload := stored row.payload }] }

/-- The `UPDATE` that flushes a changed job. Of its JSON columns only a new `last_error` is
written. -/
def updateJob [JsonColumn] (row : JobRow) (lastError : Option Payload) : QueueCall Queue := do
  lastError.toList.forM scanned
  .constraint (s.JobChecks row) "job constraints"
  return { s with
    jobs := Table.update (·.jobId = row.jobId)
      (fun _ => { row with lastError := (lastError.map stored).or row.lastError }) s.jobs }

/-- The `UPDATE` that flushes a changed run. -/
def updateRun (row : WorkflowRunRow) : QueueCall Queue := do
  .constraint (0 < row.version) "run_version_positive"
  return { s with runs := Table.update (·.runId = row.runId) (fun _ => row) s.runs }

def insertRunEvent [JsonColumn] (row : RunEventRow) : QueueCall Queue := do
  scanned row.payload
  .constraint (Table.Fresh (·.eventId) row.eventId s.events ∧
    Table.Fresh (fun e : RunEventRow => (e.runId, e.sequence)) (row.runId, row.sequence) s.events ∧
    Table.Fresh (·.eventHash) row.eventHash s.events ∧ s.run row.runId ≠ none)
    "run_event constraints"
  return { s with events := s.events ++ [{ row with payload := stored row.payload }] }

def insertOutbox [JsonColumn] (row : OutboxRow) : QueueCall Queue := do
  scanned row.payload
  .constraint (Table.Fresh (·.outboxId) row.outboxId s.outbox ∧
    Table.Fresh (·.idempotencyKey) row.idempotencyKey s.outbox ∧
    Table.Fresh (fun o : OutboxRow => (o.aggregateType, o.aggregateId, o.sequence))
      (row.aggregateType, row.aggregateId, row.sequence) s.outbox) "outbox constraints"
  return { s with outbox := s.outbox ++ [{ row with payload := stored row.payload }] }

end Queue

end StonksPaper
