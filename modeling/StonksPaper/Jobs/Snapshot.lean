import StonksPaper.Jobs.Audit

/-!
# Snapshot jobs

`snapshot_lifecycle.py` and `snapshot_completion.py`: the failure of a snapshot attempt, which puts
the job back or ends it, and the completion of a snapshot job. What the request in the payload, the
provider policy and the tables of evidence say is an input of an operation.
-/

namespace StonksPaper

open Chain

/-- A value without fractional numbers, such as the dump of a `ReconciliationTrace`. -/
structure PlainPayload where
  value : Payload
  plain : value.Plain

inductive SnapshotFailureStage where
  | provider
  | materialization
deriving DecidableEq, Repr

def SnapshotFailureStage.value : SnapshotFailureStage → String
  | provider => "provider"
  | materialization => "materialization"

structure FailSnapshotJob where
  jobId : UUID
  runId : UUID
  workerId : String
  attemptGeneration : ℕ
  attemptNonce : Nonce
  payloadHash : Sha256
  leaseUntil : UTCDateTime
  deadlineAt : UTCDateTime
  stage : SnapshotFailureStage
  errorCode : ErrorCode
  /-- Its validator has compared the trace's hash with `reconciliation_trace_hash`. -/
  reconciliationTrace : Option PlainPayload

structure CreateSnapshotRequest where
  asOf : UTCDateTime
  providerPolicyId : String
  inputHash : Sha256
deriving DecidableEq

/-- The request in a job's payload, unless that is malformed, and what the provider policy says. -/
structure SnapshotContext where
  request : Option CreateSnapshotRequest
  requestAuthorized : Bool
  traceAuthorized : Bool

structure SnapshotAttemptFailureReceipt where
  jobId : UUID
  runId : UUID
  eventId : UUID
  outboxId : UUID
  sequence : ℕ
  status : JobStatus
  recordedAt : UTCDateTime
deriving DecidableEq

structure CompleteSnapshotJob where
  jobId : UUID
  workerId : String
  attemptGeneration : ℕ
  attemptNonce : Nonce
  snapshotId : UUID
  evidenceRefs : List UUID
  manifestArtifactHash : Sha256
deriving DecidableEq

structure SnapshotCompletionReceipt extends JobCompletionReceipt where
  snapshotId : UUID
  evidenceRefs : List UUID
deriving DecidableEq

/-- The rest of what a completion is checked against. -/
structure SnapshotContent where
  request : Option CreateSnapshotRequest
  /-- The manifest is authorised, and it is that of the request and the run. -/
  manifestMatches : Bool
  artifactsValid : Bool
  rawArtifact : ArtifactManifest
  manifestArtifact : ArtifactManifest
  /-- The evidence, the snapshot and the links agree with the rows that are stored. -/
  evidenceAgrees : Bool
  /-- What `completed_snapshot_receipt` reads for a job that is complete. -/
  completedReceipt : QueueCall SnapshotCompletionReceipt

section

variable [Hashing]

def FailSnapshotJob.traceFields (self : FailSnapshotJob) : List Payload :=
  match self.reconciliationTrace with
  | none => []
  | some trace => [trace.value, dump (stablePayloadHash trace.value)]

def snapshotFailurePayload (job : JobRow) (request : FailSnapshotJob) (status : JobStatus) :
    Payload :=
  .record "snapshot.failure" ([dump job.jobId, dump job.jobType, dump request.attemptGeneration,
    dump request.stage.value, dump request.errorCode.value, dump status.value] ++
    request.traceFields)

def snapshotFailureError (request : FailSnapshotJob) : Payload :=
  .record "snapshot_failure" ([dump request.errorCode.value, dump request.stage.value,
    dump request.attemptGeneration] ++ request.traceFields.drop 1)

def snapshotCompletionPayload (job : JobRow) (request : CompleteSnapshotJob) : Payload :=
  .record "snapshot.completed" [dump job.jobId, dump job.jobType,
    dump request.manifestArtifactHash, dump request.attemptGeneration, dump request.snapshotId,
    dump request.evidenceRefs]

namespace Queue

variable (s : Queue)

/-! ## Failed attempts -/

/-- What `_validate_failure_fence` lets through. -/
def FailureFenced (job : JobRow) (request : FailSnapshotJob) (now : UTCDateTime) : Prop :=
  job.status = .leased ∧ job.jobType = "create_snapshot" ∧ job.runId = request.runId ∧
    stablePayloadHash job.payload = job.payloadHash ∧ job.payloadHash = request.payloadHash ∧
    job.leaseOwner = some request.workerId ∧
    job.attemptGeneration = request.attemptGeneration ∧
    job.attemptNonce = some request.attemptNonce ∧ job.leaseUntil = some request.leaseUntil ∧
    now < request.leaseUntil ∧ job.deadlineAt = request.deadlineAt ∧ now < job.deadlineAt ∧
    job.resultArtifactHash = none

instance (job : JobRow) (request : FailSnapshotJob) (now : UTCDateTime) :
    Decidable (FailureFenced job request now) := inferInstanceAs (Decidable (_ ∧ _))

/-- The run is the data snapshot that the request asks for, and not over. -/
def RunAwaits (run : WorkflowRunRow) (request : CreateSnapshotRequest) : Prop :=
  run.runType = "data_snapshot" ∧ (run.status = .pending ∨ run.status = .running) ∧
    run.inputHash = request.inputHash ∧ run.asOf = request.asOf ∧
    run.policyId = request.providerPolicyId

instance (run : WorkflowRunRow) (request : CreateSnapshotRequest) :
    Decidable (RunAwaits run request) := inferInstanceAs (Decidable (_ ∧ _))

def activeRequestContext (run : WorkflowRunRow) (context : SnapshotContext) :
    QueueCall CreateSnapshotRequest := do
  let request ← .orRefused .conflict "Snapshot job payload is invalid" context.request
  .accepted (context.requestAuthorized = true ∧ RunAwaits run request) .conflict
    "Snapshot run authority is invalid"
  return request

/-- The status that `_append_failure` leaves the job in: the last attempt is terminal. -/
def statusAfterFailure (job : JobRow) : JobStatus :=
  if job.attempts < job.maxAttempts then .queued else .deadLetter

/-- What `_append_failure` records and `_transition_failed_attempt` leaves. -/
def attemptFailed (job : JobRow) (request : FailSnapshotJob) (now : UTCDateTime) : Transition where
  eventType := if job.attempts < job.maxAttempts then "snapshot.retry_scheduled"
    else "snapshot.failed"
  payload := snapshotFailurePayload job request (statusAfterFailure job)
  kind := .failure
  generation := request.attemptGeneration
  marked := { job with
    status := statusAfterFailure job
    notBefore := now
    attemptNonce := none
    leaseOwner := none
    leaseUntil := none
    updatedAt := now }
  lastError := some (snapshotFailureError request)
  runStatus := if job.attempts < job.maxAttempts then .running else .failed

variable [JsonColumn]

def recordSnapshotFailure (request : FailSnapshotJob) (context : SnapshotContext)
    (now : UTCDateTime) : QueueCall (SnapshotAttemptFailureReceipt × Queue) :=
  .handled "Snapshot failure audit conflicts" "Snapshot failure audit failed" do
    let job ← .orRefused .notFound "Job was not found" (s.job request.jobId)
    .accepted (FailureFenced job request now) .conflict "Job lease is stale or invalid"
    let run ← .orRefused .conflict "Owning run was not found" (s.run job.runId)
    let _ ← activeRequestContext run context
    .accepted (request.reconciliationTrace.isSome → context.traceAuthorized = true) .conflict
      "Snapshot failure reconciliation trace is unauthorized"
    let s ← s.commitTransition run (attemptFailed job request now) now
    return (
      { jobId := job.jobId
        runId := run.runId
        eventId := auditEventId job.jobId request.attemptGeneration
        outboxId := auditOutboxId job.jobId request.attemptGeneration
        sequence := run.version + 1
        status := statusAfterFailure job
        recordedAt := now }, s)

/-! ## Completion -/

/-- What `_validate_active_lease` lets through, but for the result. -/
def CompletionFenced (job : JobRow) (request : CompleteSnapshotJob) (now : UTCDateTime) : Prop :=
  job.status = .leased ∧ job.jobType = "create_snapshot" ∧
    job.leaseOwner = some request.workerId ∧
    job.attemptGeneration = request.attemptGeneration ∧
    job.attemptNonce = some request.attemptNonce ∧
    (∃ leaseUntil ∈ job.leaseUntil, now < leaseUntil) ∧ now < job.deadlineAt

instance (job : JobRow) (request : CompleteSnapshotJob) (now : UTCDateTime) :
    Decidable (CompletionFenced job request now) := inferInstanceAs (Decidable (_ ∧ _))

def validateCompletionContext (job : JobRow) (run : WorkflowRunRow) (content : SnapshotContent) :
    QueueCall Unit := do
  let request ← .orRefused .conflict "Snapshot job payload is invalid" content.request
  .accepted (stablePayloadHash job.payload = job.payloadHash) .conflict
    "Snapshot job payload hash is invalid"
  .accepted (RunAwaits run request ∧ content.manifestMatches = true) .conflict
    "Snapshot does not match its owning run"
  .accepted (content.artifactsValid = true) .conflict "Snapshot artifact metadata is invalid"

/-- `_prepare_artifact`: the row to insert, unless the same one is stored. -/
def prepareArtifact (artifact : ArtifactManifest) : QueueCall (Option ArtifactManifestRow) :=
  match s.artifact artifact.contentHash with
  | none => return artifact.row
  | some existing => do
      .valid (existing = artifact.row) "canonical conflict"
      return none

def addArtifacts (artifacts : List ArtifactManifest) : QueueCall Queue := do
  let rows ← artifacts.mapM s.prepareArtifact
  rows.reduceOption.foldlM insertArtifact s

/-- What `_finish_job` records and `_mark_completed` leaves. -/
def snapshotCompleted (job : JobRow) (request : CompleteSnapshotJob) (now : UTCDateTime) :
    Transition where
  eventType := "snapshot.completed"
  payload := snapshotCompletionPayload job request
  kind := .complete
  generation := request.attemptGeneration
  marked := { job with
    status := .succeeded
    resultArtifactHash := some request.manifestArtifactHash
    updatedAt := now }
  lastError := none
  runStatus := .succeeded

/-- `_complete_in_session` of a job that is not complete yet. -/
def completeActiveSnapshot (job : JobRow) (request : CompleteSnapshotJob)
    (content : SnapshotContent) (now : UTCDateTime) :
    QueueCall (SnapshotCompletionReceipt × Queue) := do
  .accepted (CompletionFenced job request now) .conflict "Job lease is stale or invalid"
  .accepted (job.resultArtifactHash = none) .conflict "Snapshot job state is invalid"
  let run ← .orRefused .conflict "Owning run was not found" (s.run job.runId)
  validateCompletionContext job run content
  .valid (content.evidenceAgrees = true) "canonical conflict"
  .valid (s.event (auditEventId request.jobId request.attemptGeneration) = none ∧
    s.outboxRow (auditOutboxId request.jobId request.attemptGeneration) = none)
    "canonical conflict"
  let s ← s.addArtifacts [content.rawArtifact, content.manifestArtifact]
  let s ← s.commitTransition run (snapshotCompleted job request now) now
  return (
    { jobId := job.jobId
      runId := run.runId
      eventId := auditEventId request.jobId request.attemptGeneration
      outboxId := auditOutboxId request.jobId request.attemptGeneration
      sequence := run.version + 1
      resultArtifactHash := request.manifestArtifactHash
      completedAt := now
      snapshotId := request.snapshotId
      evidenceRefs := request.evidenceRefs }, s)

def completeSnapshot (request : CompleteSnapshotJob) (content : SnapshotContent)
    (now : UTCDateTime) : QueueCall (SnapshotCompletionReceipt × Queue) :=
  .handled "Snapshot completion conflicts with canonical state"
    "Snapshot completion storage failed" do
    let job ← .orRefused .notFound "Job was not found" (s.job request.jobId)
    if job.status = .succeeded then
      let receipt ← content.completedReceipt
      return (receipt, s)
    else s.completeActiveSnapshot job request content now

end Queue

end

end StonksPaper
