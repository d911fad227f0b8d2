import Mathlib.Data.Prod.Lex
import StonksPaper.Jobs.Tables

/-!
# Audit transitions of jobs

`job_queue_audit.py`. A transition of a job appends one event to its run and one row to the
outbox. Their identifiers are derived from the job and the attempt generation alone, so a
generation can be recorded once.
-/

namespace StonksPaper

open Chain

/-! ## Receipts -/

structure JobCompletionReceipt where
  jobId : UUID
  runId : UUID
  eventId : UUID
  outboxId : UUID
  sequence : ℕ
  resultArtifactHash : Sha256
  completedAt : UTCDateTime
deriving DecidableEq

structure JobFailureReceipt where
  jobId : UUID
  runId : UUID
  eventId : UUID
  outboxId : UUID
  sequence : ℕ
  errorCode : ErrorCode
  reasonCode : String
  failedAt : UTCDateTime
deriving DecidableEq

section

variable [Hashing]

/-! ## Identifiers and payloads -/

/-- `f"stonks:job:{job_id}:{part}:{generation}"`. -/
def auditName (jobId : UUID) (part : String) (generation : ℕ) : Payload :=
  .record "stonks:job" [dump jobId, dump part, dump generation]

/-- The event of `_audit_ids`. -/
def auditEventId (jobId : UUID) (generation : ℕ) : UUID :=
  uuid5 (auditName jobId "event" generation)

/-- The outbox row of `_audit_ids`. -/
def auditOutboxId (jobId : UUID) (generation : ℕ) : UUID :=
  uuid5 (auditName jobId "outbox" generation)

def eventHash (eventId : UUID) (sequence : ℕ) (previousHash : Option Sha256) (payload : Payload) :
    Sha256 :=
  stablePayloadHash (.record "event" [dump eventId, dump sequence, dump previousHash, payload])

def JobRow.identityHash (self : JobRow) : Sha256 :=
  stablePayloadHash (.record "job" [dump self.jobId, dump self.runId, dump self.jobType,
    self.payload, dump self.payloadHash, dump self.idempotencyKey, dump self.notBefore,
    dump self.deadlineAt, dump self.maxAttempts, dump self.createdAt])

def WorkflowRunRow.identityHash (self : WorkflowRunRow) : Sha256 :=
  stablePayloadHash (.record "run" [dump self.runId, dump self.runType, dump self.asOf,
    dump self.policyId, dump self.idempotencyKey, dump self.inputHash, dump self.ownerSubject,
    dump self.createdAt])

def ArtifactManifestRow.identityHash (self : ArtifactManifestRow) : Sha256 :=
  stablePayloadHash (.record "artifact" [dump self.contentHash, dump self.sizeBytes,
    dump self.mediaType, dump self.licenseTag, dump self.sensitivity, dump self.source,
    dump self.finalizedAt, dump self.storageUri, self.metadata])

def completionPayload (job : JobRow) (run : WorkflowRunRow) (artifact : ArtifactManifestRow)
    (request : CompleteJob) : Payload :=
  .record "job.completed" [dump job.jobId, dump job.jobType, dump request.resultArtifactHash,
    dump request.attemptGeneration, dump job.identityHash, dump run.identityHash,
    dump artifact.identityHash]

def failurePayload (job : JobRow) (run : WorkflowRunRow) (request : FailJob) : Payload :=
  .record "job.failed" [dump job.jobId, dump job.jobType, dump request.attemptGeneration,
    dump request.workerId,
    dump (stablePayloadHash (.record "attempt_nonce" [dump request.attemptNonce])),
    dump request.errorCode.value, dump request.reasonCode, dump JobStatus.deadLetter.value,
    dump job.identityHash, dump run.identityHash]

def failureError (request : FailJob) : Payload :=
  .record "failure" [dump request.errorCode.value, dump request.reasonCode,
    dump request.attemptGeneration]

def deadLetterPayload (job : JobRow) (reason : String) : Payload :=
  .record "job.dead_lettered" [dump job.jobId, dump job.jobType, dump job.attemptGeneration,
    dump reason, dump JobStatus.deadLetter.value]

def deadLetterError (job : JobRow) (reason : String) : Payload :=
  .record "dead_letter" [dump reason, dump job.attemptGeneration]

/-! ## The event chain of a run -/

namespace Queue

variable (s : Queue)

def previousHash (runId : UUID) : Option Sha256 := (s.eventsOf runId).getLast?.map (·.eventHash)

def EventChainIsValid (run : WorkflowRunRow) (requiredEventId : UUID) : Prop :=
  let events := s.eventsOf run.runId
  Linked RunEventRow.link 1 none events ∧
    (∀ event ∈ events, event.eventHash =
      eventHash event.eventId event.sequence event.previousHash event.payload) ∧
    (∃ event ∈ events, event.eventId = requiredEventId) ∧
    ∃ last ∈ events.getLast?, last.sequence = run.version ∧ last.occurredAt = run.updatedAt

instance (run : WorkflowRunRow) (requiredEventId : UUID) :
    Decidable (s.EventChainIsValid run requiredEventId) := inferInstanceAs (Decidable (_ ∧ _))

def requireValidAuditHead (run : WorkflowRunRow) : QueueCall Unit :=
  match (s.eventsOf run.runId).getLast? with
  | none => .valid (run.version = 1) "run audit head is invalid"
  | some last => do
      .valid (run.version = last.sequence) "run audit head is invalid"
      .valid (s.EventChainIsValid run last.eventId) "run audit chain is invalid"

/-! ## Transitions -/

/-- What one transition records, and the job and the status of the run that it leaves. -/
structure Transition where
  eventType : String
  payload : Payload
  kind : AuditKind
  generation : ℕ
  marked : JobRow
  lastError : Option Payload
  runStatus : WorkflowStatus

/-- The event of `_add_audit_rows`. -/
def auditEvent (run : WorkflowRunRow) (t : Transition) (now : UTCDateTime) : RunEventRow where
  eventId := auditEventId t.marked.jobId t.generation
  runId := run.runId
  sequence := run.version + 1
  eventType := t.eventType
  payload := t.payload
  occurredAt := now
  previousHash := s.previousHash run.runId
  eventHash := eventHash (auditEventId t.marked.jobId t.generation) (run.version + 1)
    (s.previousHash run.runId) t.payload

/-- The outbox row of `_add_audit_rows`. -/
def auditOutbox (run : WorkflowRunRow) (t : Transition) (now : UTCDateTime) : OutboxRow where
  outboxId := auditOutboxId t.marked.jobId t.generation
  aggregateType := "run"
  aggregateId := run.runId
  sequence := run.version + 1
  topic := t.eventType
  payload := t.payload
  idempotencyKey := ⟨t.marked.jobId, t.kind, t.generation⟩
  createdAt := now
  notBefore := now
  attempts := 0

def auditedRun (run : WorkflowRunRow) (t : Transition) (now : UTCDateTime) : WorkflowRunRow :=
  { run with status := t.runStatus, version := run.version + 1, updatedAt := now }

/-- `_add_audit_rows`, and the flush of the job and the run after they are marked. -/
def commitTransition [JsonColumn] (run : WorkflowRunRow) (t : Transition) (now : UTCDateTime) :
    QueueCall Queue := do
  let posted ← s.insertRunEvent (s.auditEvent run t now)
  let posted ← posted.insertOutbox (auditOutbox run t now)
  let posted ← posted.updateJob t.marked t.lastError
  posted.updateRun (auditedRun run t now)

/-! ## Unclaimable jobs -/

/-- The jobs that `dead_letter_unclaimable` selects. -/
def Unclaimable (now : UTCDateTime) (job : JobRow) : Prop :=
  job.status.Active ∧ (job.deadlineAt ≤ now ∨
    job.status = .leased ∧ (∃ leaseUntil ∈ job.leaseUntil, leaseUntil ≤ now) ∧
      job.maxAttempts ≤ job.attempts)

instance (now : UTCDateTime) (job : JobRow) : Decidable (Unclaimable now job) :=
  inferInstanceAs (Decidable (_ ∧ _))

def unclaimable (locked : List UUID) (now : UTCDateTime) : List JobRow :=
  (sorted (fun job : JobRow => toLex (job.runId, job.jobId))
    (s.jobs.filter fun job => Unclaimable now job ∧ job.jobId ∉ locked)).take 100

def deadLetterReason (job : JobRow) (now : UTCDateTime) : QueueCall String :=
  if job.deadlineAt ≤ now then return "deadline_exceeded"
  else if job.status = .leased ∧ (∃ leaseUntil ∈ job.leaseUntil, leaseUntil ≤ now) ∧
    job.maxAttempts ≤ job.attempts then return "attempts_exhausted"
  else .raised (.valueError "job is still claimable")

/-- What `_dead_letter_job` records and `_mark_dead_letter` leaves. -/
def deadLettered (job : JobRow) (reason : String) (now : UTCDateTime) : Transition where
  eventType := "job.dead_lettered"
  payload := deadLetterPayload job reason
  kind := .deadLetter
  generation := job.attemptGeneration
  marked := { job with
    status := .deadLetter
    attemptNonce := none
    leaseOwner := none
    leaseUntil := none
    updatedAt := now }
  lastError := some (deadLetterError job reason)
  runStatus := .failed

variable [JsonColumn]

def deadLetterJob (now : UTCDateTime) (job : JobRow) : QueueCall Queue := do
  .valid (stablePayloadHash job.payload = job.payloadHash)
    "unclaimable job payload is not canonical"
  .valid (job.resultArtifactHash = none) "unclaimable job already has a result"
  let run ← .orRaised "unclaimable job has no owning run" (s.run job.runId)
  s.requireValidAuditHead run
  let reason ← deadLetterReason job now
  s.commitTransition run (deadLettered job reason now) now

def deadLetterUnclaimable (locked : List UUID) (now : UTCDateTime) : QueueCall Queue :=
  (s.unclaimable locked now).foldlM (fun s job => s.deadLetterJob now job) s

/-! ## Results -/

def endsRun (jobType : String) : Prop :=
  jobType = "research_pipeline" ∨ jobType = "tradingagents_research"

instance (jobType : String) : Decidable (endsRun jobType) := inferInstanceAs (Decidable (_ ∨ _))

/-- What `commit_job_result` records and `_mark_completed` leaves. -/
def completed (job : JobRow) (run : WorkflowRunRow) (artifact : ArtifactManifestRow)
    (request : CompleteJob) (now : UTCDateTime) : Transition where
  eventType := "job.completed"
  payload := completionPayload job run artifact request
  kind := .complete
  generation := request.attemptGeneration
  marked := { job with
    status := .succeeded
    resultArtifactHash := some request.resultArtifactHash
    updatedAt := now }
  lastError := none
  runStatus := if endsRun job.jobType then .succeeded else run.status

def commitJobResult (job : JobRow) (run : WorkflowRunRow) (artifact : ArtifactManifestRow)
    (request : CompleteJob) (now : UTCDateTime) : QueueCall (JobCompletionReceipt × Queue) := do
  s.requireValidAuditHead run
  let s ← s.commitTransition run (completed job run artifact request now) now
  return (
    { jobId := job.jobId
      runId := run.runId
      eventId := auditEventId job.jobId request.attemptGeneration
      outboxId := auditOutboxId job.jobId request.attemptGeneration
      sequence := run.version + 1
      resultArtifactHash := request.resultArtifactHash
      completedAt := now }, s)

/-- What `commit_job_failure` records and `_mark_explicit_failure` leaves. -/
def explicitlyFailed (job : JobRow) (run : WorkflowRunRow) (request : FailJob)
    (now : UTCDateTime) : Transition where
  eventType := "job.dead_lettered"
  payload := failurePayload job run request
  kind := .deadLetter
  generation := request.attemptGeneration
  marked := { job with
    status := .deadLetter
    attemptNonce := none
    leaseOwner := none
    leaseUntil := none
    updatedAt := now }
  lastError := some (failureError request)
  runStatus := .failed

def commitJobFailure (job : JobRow) (run : WorkflowRunRow) (request : FailJob)
    (now : UTCDateTime) : QueueCall (JobFailureReceipt × Queue) := do
  .valid (stablePayloadHash job.payload = job.payloadHash) "failed job payload is not canonical"
  .valid (job.resultArtifactHash = none) "failed job already has a result"
  s.requireValidAuditHead run
  let s ← s.commitTransition run (explicitlyFailed job run request now) now
  return (
    { jobId := job.jobId
      runId := run.runId
      eventId := auditEventId job.jobId request.attemptGeneration
      outboxId := auditOutboxId job.jobId request.attemptGeneration
      sequence := run.version + 1
      errorCode := request.errorCode
      reasonCode := request.reasonCode
      failedAt := now }, s)

/-! ## Repeated results -/

def event (eventId : UUID) : Option RunEventRow := Table.get (·.eventId) s.events eventId

def outboxRow (outboxId : UUID) : Option OutboxRow := Table.get (·.outboxId) s.outbox outboxId

/-- The outbox row of a stored event. -/
def OutboxMatches (run : WorkflowRunRow) (event : RunEventRow) (outbox : OutboxRow)
    (payload : Payload) (topic : String) (key : AuditKey) : Prop :=
  event.eventType = topic ∧ event.payload = payload ∧ outbox.aggregateType = "run" ∧
    outbox.aggregateId = run.runId ∧ outbox.sequence = event.sequence ∧ outbox.topic = topic ∧
    outbox.payload = payload ∧ outbox.idempotencyKey = key ∧
    outbox.createdAt = event.occurredAt ∧ outbox.notBefore = event.occurredAt

instance (run : WorkflowRunRow) (event : RunEventRow) (outbox : OutboxRow) (payload : Payload)
    (topic : String) (key : AuditKey) :
    Decidable (OutboxMatches run event outbox payload topic key) :=
  inferInstanceAs (Decidable (_ ∧ _))

def CompletedJobIsValid (job : JobRow) (event : RunEventRow) (request : CompleteJob) : Prop :=
  job.status = .succeeded ∧ job.leaseOwner = some request.workerId ∧
    job.attemptGeneration = request.attemptGeneration ∧
    job.attempts = request.attemptGeneration ∧ job.attemptNonce = some request.attemptNonce ∧
    job.resultArtifactHash = some request.resultArtifactHash ∧
    stablePayloadHash job.payload = job.payloadHash ∧ job.updatedAt = event.occurredAt ∧
    job.lastError = none

instance (job : JobRow) (event : RunEventRow) (request : CompleteJob) :
    Decidable (CompletedJobIsValid job event request) := inferInstanceAs (Decidable (_ ∧ _))

def CompletedGraphIsValid (job : JobRow) (run : WorkflowRunRow) (event : RunEventRow)
    (outbox : OutboxRow) (payload : Payload) (request : CompleteJob) : Prop :=
  event.sequence ≤ run.version ∧ (endsRun job.jobType → run.status = .succeeded) ∧
    s.EventChainIsValid run event.eventId ∧
    OutboxMatches run event outbox payload "job.completed"
      ⟨job.jobId, .complete, request.attemptGeneration⟩

instance (job : JobRow) (run : WorkflowRunRow) (event : RunEventRow) (outbox : OutboxRow)
    (payload : Payload) (request : CompleteJob) :
    Decidable (s.CompletedGraphIsValid job run event outbox payload request) :=
  inferInstanceAs (Decidable (_ ∧ _))

def completedJobReceipt (job : JobRow) (request : CompleteJob) : QueueCall JobCompletionReceipt :=
  match s.run job.runId, s.event (auditEventId job.jobId request.attemptGeneration),
    s.outboxRow (auditOutboxId job.jobId request.attemptGeneration),
    s.artifact request.resultArtifactHash with
  | some run, some event, some outbox, some artifact => do
      .accepted (CompletedJobIsValid job event request) .conflict "Completed job result conflicts"
      .accepted (s.CompletedGraphIsValid job run event outbox
        (completionPayload job run artifact request) request) .conflict
        "Completed job canonical graph is invalid"
      return {
        jobId := job.jobId
        runId := job.runId
        eventId := event.eventId
        outboxId := outbox.outboxId
        sequence := event.sequence
        resultArtifactHash := request.resultArtifactHash
        completedAt := event.occurredAt }
  | _, _, _, _ => .refused .conflict "Completed job canonical graph is incomplete"

def FailedJobIsValid (job : JobRow) (event : RunEventRow) (request : FailJob) : Prop :=
  job.status = .deadLetter ∧ job.leaseOwner = none ∧ job.attemptNonce = none ∧
    job.leaseUntil = none ∧ job.attemptGeneration = request.attemptGeneration ∧
    job.attempts = request.attemptGeneration ∧ job.resultArtifactHash = none ∧
    stablePayloadHash job.payload = job.payloadHash ∧ job.updatedAt = event.occurredAt ∧
    job.lastError = some (failureError request)

instance (job : JobRow) (event : RunEventRow) (request : FailJob) :
    Decidable (FailedJobIsValid job event request) := inferInstanceAs (Decidable (_ ∧ _))

def FailedGraphIsValid (job : JobRow) (run : WorkflowRunRow) (event : RunEventRow)
    (outbox : OutboxRow) (payload : Payload) (request : FailJob) : Prop :=
  run.status = .failed ∧ event.sequence ≤ run.version ∧
    s.EventChainIsValid run event.eventId ∧
    OutboxMatches run event outbox payload "job.dead_lettered"
      ⟨job.jobId, .deadLetter, request.attemptGeneration⟩

instance (job : JobRow) (run : WorkflowRunRow) (event : RunEventRow) (outbox : OutboxRow)
    (payload : Payload) (request : FailJob) :
    Decidable (s.FailedGraphIsValid job run event outbox payload request) :=
  inferInstanceAs (Decidable (_ ∧ _))

def failedJobReceipt (job : JobRow) (request : FailJob) : QueueCall JobFailureReceipt :=
  match s.run job.runId, s.event (auditEventId job.jobId request.attemptGeneration),
    s.outboxRow (auditOutboxId job.jobId request.attemptGeneration) with
  | some run, some event, some outbox => do
      .accepted (FailedJobIsValid job event request) .conflict "Failed job command conflicts"
      .accepted (s.FailedGraphIsValid job run event outbox (failurePayload job run request)
        request) .conflict "Failed job canonical graph is invalid"
      return {
        jobId := job.jobId
        runId := job.runId
        eventId := event.eventId
        outboxId := outbox.outboxId
        sequence := event.sequence
        errorCode := request.errorCode
        reasonCode := request.reasonCode
        failedAt := event.occurredAt }
  | _, _, _ => .refused .conflict "Failed job canonical graph is incomplete"

end Queue

end

end StonksPaper
