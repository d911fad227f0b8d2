import StonksPaper.Cycles.State
import StonksPaper.Jobs.Workflow

/-!
# The store of paper cycles

`paper_cycle_store.py`. The state of a cycle is nowhere stored: every call rebuilds it from the
events of the run. A checkpoint, a failure and a completion are refused without the active lease of
the job, a cancellation without the version of the run. Every call is one transaction, at one
reading of the database clock.
-/

namespace StonksPaper

/-! ## Commands and results -/

/-- The lease, and the input of the cycle as it is dumped; the store reads only its digest. -/
structure RunPaperCycle where
  lease : JobLease
  cycleInput : Payload
deriving DecidableEq

def RunPaperCycle.cycleInputHash [Hashing] (self : RunPaperCycle) : Sha256 :=
  stablePayloadHash self.cycleInput

inductive PaperCycleRunStatus where
  | retryScheduled
  | succeeded
  | deadLettered
  | cancelled
deriving DecidableEq, Repr

def PaperCycleRunStatus.value : PaperCycleRunStatus → String
  | retryScheduled => "retry_scheduled"
  | succeeded => "succeeded"
  | deadLettered => "dead_lettered"
  | cancelled => "cancelled"

structure PaperCycleRunResult where
  runId : UUID
  status : PaperCycleRunStatus
  state : PaperCycleState
  resultArtifactHash : Option Sha256
  errorCode : Option String
deriving DecidableEq

/-- The result, once its validators have run. -/
def PaperCycleRunResult.validated (self : PaperCycleRunResult) : QueueCall PaperCycleRunResult := do
  .valid (∀ code ∈ self.errorCode, code ≠ "") "String should have at least 1 character"
  .valid (self.runId = self.state.runId) "cycle result run identity changed"
  .valid (self.status = .succeeded ↔ self.resultArtifactHash ≠ none)
    "only a successful cycle has a result artifact"
  .valid (self.status = .succeeded → self.state.Complete ∧ self.errorCode = none)
    "successful cycle result is incomplete"
  .valid (self.status ≠ .succeeded → self.errorCode ≠ none)
    "non-successful cycle result requires an error code"
  return self

/-- `_RETRYABLE`. -/
def retryableCodes : List ErrorCode := [.dataUnavailable, .rateLimited, .toolFailed, .internalError]

def terminalEvents : List String :=
  ["paper_cycle.completed", "paper_cycle.dead_lettered", "paper_cycle.cancelled"]

/-- What `_append_audit` records; the identity is `f"{label}:{number}"`. -/
structure CycleAudit where
  eventType : String
  payload : Payload
  label : String
  number : ℕ
  runStatus : WorkflowStatus

section

variable [Hashing]

/-- `f"stonks:paper-cycle:{job_id}:{part}:{identity}"`. -/
def cycleName (jobId : UUID) (part label : String) (number : ℕ) : Payload :=
  .record "stonks:paper-cycle" [dump jobId, dump part, dump label, dump number]

def cycleEventId (jobId : UUID) (label : String) (number : ℕ) : UUID :=
  uuid5 (cycleName jobId "event" label number)

def cycleOutboxId (jobId : UUID) (label : String) (number : ℕ) : UUID :=
  uuid5 (cycleName jobId "outbox" label number)

namespace Queue

variable (s : Queue)

/-! ## Authority -/

/-- The conditions of `_require_active`. -/
def ActiveAuthority (job : JobRow) (run : WorkflowRunRow) (command : RunPaperCycle)
    (now : UTCDateTime) : Prop :=
  job.runId = command.lease.runId ∧ job.jobType = "paper_fund_cycle" ∧ job.status = .leased ∧
    job.attemptGeneration = command.lease.attemptGeneration ∧
    job.attemptNonce = some command.lease.attemptNonce ∧
    job.leaseOwner = some command.lease.leaseOwner ∧ LeaseRuns job now ∧
    stablePayloadHash job.payload = job.payloadHash ∧
    job.payload.get "cycle_input_hash" = some (dump command.cycleInputHash) ∧
    run.runId = command.lease.runId ∧ run.runType = "paper_fund_cycle" ∧
    run.inputHash = command.cycleInputHash ∧ (run.status = .pending ∨ run.status = .running)

instance (job : JobRow) (run : WorkflowRunRow) (command : RunPaperCycle) (now : UTCDateTime) :
    Decidable (ActiveAuthority job run command now) := inferInstanceAs (Decidable (_ ∧ _))

/-- The conditions of `_require_completed_authority`. -/
def CompletedAuthority (job : JobRow) (run : WorkflowRunRow) (command : RunPaperCycle) : Prop :=
  job.runId = command.lease.runId ∧ job.jobType = "paper_fund_cycle" ∧
    job.attemptGeneration = command.lease.attemptGeneration ∧
    job.attemptNonce = some command.lease.attemptNonce ∧
    job.leaseOwner = some command.lease.leaseOwner ∧ job.resultArtifactHash ≠ none ∧
    stablePayloadHash job.payload = job.payloadHash ∧
    job.payload.get "cycle_input_hash" = some (dump command.cycleInputHash) ∧
    run.runId = command.lease.runId ∧ run.runType = "paper_fund_cycle" ∧
    run.inputHash = command.cycleInputHash ∧ run.status = .succeeded

instance (job : JobRow) (run : WorkflowRunRow) (command : RunPaperCycle) :
    Decidable (CompletedAuthority job run command) := inferInstanceAs (Decidable (_ ∧ _))

def requireActive (job : JobRow) (run : WorkflowRunRow) (command : RunPaperCycle)
    (now : UTCDateTime) : QueueCall Unit :=
  .accepted (ActiveAuthority job run command now) .conflict "Paper cycle lease is stale or invalid"

def requireCompletedAuthority (job : JobRow) (run : WorkflowRunRow) (command : RunPaperCycle) :
    QueueCall Unit :=
  .accepted (CompletedAuthority job run command) .conflict
    "Completed paper cycle authority is invalid"

/-- `_locked_job` and `_locked_run`. -/
def lockedRows (command : RunPaperCycle) : QueueCall (JobRow × WorkflowRunRow) := do
  let job ← .orRefused .notFound "Paper cycle job was not found" (s.job command.lease.jobId)
  let run ← .orRefused .notFound "Paper cycle run was not found" (s.run command.lease.runId)
  return (job, run)

def activeAuthority (command : RunPaperCycle) (now : UTCDateTime) :
    QueueCall (JobRow × WorkflowRunRow) := do
  let rows ← s.lockedRows command
  requireActive rows.1 rows.2 command now
  return rows

/-! ## The state of a cycle -/

/-- The conditions of `_require_next_state`. -/
def NextState (current candidate : PaperCycleState) (expectedStateHash : Sha256) : Prop :=
  current.stateHash = expectedStateHash ∧ candidate.runId = current.runId ∧
    candidate.cycleInputHash = current.cycleInputHash ∧
    candidate.outputs.length = current.outputs.length + 1 ∧
    candidate.outputs.dropLast = current.outputs ∧
    candidate.outputs.getLast?.map (·.stage) = current.nextStage

instance (current candidate : PaperCycleState) (expectedStateHash : Sha256) :
    Decidable (NextState current candidate expectedStateHash) :=
  inferInstanceAs (Decidable (_ ∧ _))

def requireNextState (current candidate : PaperCycleState) (expectedStateHash : Sha256) :
    QueueCall Unit :=
  .accepted (NextState current candidate expectedStateHash) .conflict "Paper cycle state CAS failed"

def outboxOf (runId : UUID) (sequence : ℕ) : Option OutboxRow :=
  s.outbox.find? fun outbox => outbox.aggregateType = "run" ∧ outbox.aggregateId = runId ∧
    outbox.sequence = sequence

def validateEvent (run : WorkflowRunRow) (event : RunEventRow) (sequence : ℕ)
    (previousHash : Option Sha256) : QueueCall Unit := do
  .accepted (event.sequence = sequence ∧ event.previousHash = previousHash ∧
    event.eventHash = eventHash event.eventId sequence previousHash event.payload) .conflict
    "Paper cycle event chain is invalid"
  .accepted (∃ outbox ∈ s.outboxOf run.runId sequence, outbox.topic = event.eventType ∧
    outbox.payload = event.payload ∧ outbox.createdAt = event.occurredAt) .conflict
    "Paper cycle outbox graph is invalid"

/-- `_checkpoint_state`. The state of an event has an output. -/
def checkpointState (event : RunEventRow) (job : JobRow) (cycleInputHash : Sha256) :
    QueueCall PaperCycleState := do
  .accepted (event.payload.get "schema" = some (dump "paper-cycle-checkpoint/1.0.0") ∧
    event.payload.get "job_id" = some (dump job.jobId) ∧
    event.payload.get "cycle_input_hash" = some (dump cycleInputHash) ∧
    (event.payload.get "state_hash").getD .null ≠ .null ∧
    (event.payload.get "stage").getD .null ≠ .null ∧
    ((event.payload.get "state").bind (·.entries?)).isSome = true) .conflict
    "Paper cycle checkpoint payload is invalid"
  let state ← .orRaised "state is not valid"
    ((event.payload.get "state").bind PaperCycleState.parse)
  .accepted (event.payload.get "state_hash" = some (dump state.stateHash) ∧
    ∃ output ∈ state.outputs.getLast?,
      event.payload.get "stage" = some (dump output.stage.value)) .conflict
    "Paper cycle checkpoint binding changed"
  return state

/-- The variables of the loop of `_load_state`. -/
structure Replay where
  state : PaperCycleState
  previousHash : Option Sha256
  expectedSequence : ℕ

/-- A round of the loop of `_load_state`. -/
def replayEvent (run : WorkflowRunRow) (job : JobRow) (cycleInputHash : Sha256) (replay : Replay)
    (event : RunEventRow) : QueueCall Replay := do
  s.validateEvent run event replay.expectedSequence replay.previousHash
  if event.eventType = "paper_cycle.stage_completed" then
    let candidate ← checkpointState event job cycleInputHash
    requireNextState replay.state candidate replay.state.stateHash
    return ⟨candidate, some event.eventHash, replay.expectedSequence + 1⟩
  else
    .accepted (event.eventType = "paper_cycle.retry_scheduled" ∨ event.eventType ∈ terminalEvents)
      .conflict "Paper cycle event type is invalid"
    return { replay with
      previousHash := some event.eventHash
      expectedSequence := replay.expectedSequence + 1 }

def loadState (job : JobRow) (run : WorkflowRunRow) (cycleInputHash : Sha256) :
    QueueCall PaperCycleState := do
  let replay ← (s.eventsOf run.runId).foldlM (s.replayEvent run job cycleInputHash)
    ⟨.genesis run.runId cycleInputHash, none, 2⟩
  .accepted (run.version = replay.expectedSequence - 1) .conflict
    "Paper cycle run/event sequence diverged"
  .accepted (∀ last ∈ (s.eventsOf run.runId).getLast?, run.updatedAt = last.occurredAt) .conflict
    "Paper cycle run/event time diverged"
  return replay.state

/-- `PostgresPaperCycleStore.load`. -/
def loadCycle (command : RunPaperCycle) (now : UTCDateTime) : QueueCall PaperCycleState :=
  .handled "Paper cycle checkpoint is invalid" "Paper cycle checkpoint is invalid" do
    let rows ← s.lockedRows command
    if rows.1.status = .succeeded then requireCompletedAuthority rows.1 rows.2 command
    else requireActive rows.1 rows.2 command now
    s.loadState rows.1 rows.2 command.cycleInputHash

/-! ## Audit entries -/

/-- The event of `_append_audit`. -/
def cycleEvent (run : WorkflowRunRow) (job : JobRow) (audit : CycleAudit) (now : UTCDateTime) :
    RunEventRow where
  eventId := cycleEventId job.jobId audit.label audit.number
  runId := run.runId
  sequence := run.version + 1
  eventType := audit.eventType
  payload := audit.payload
  occurredAt := now
  previousHash := s.previousHash run.runId
  eventHash := eventHash (cycleEventId job.jobId audit.label audit.number) (run.version + 1)
    (s.previousHash run.runId) audit.payload

/-- The outbox row of `_append_audit`. -/
def cycleOutbox (run : WorkflowRunRow) (job : JobRow) (audit : CycleAudit) (now : UTCDateTime) :
    OutboxRow where
  outboxId := cycleOutboxId job.jobId audit.label audit.number
  aggregateType := "run"
  aggregateId := run.runId
  sequence := run.version + 1
  topic := audit.eventType
  payload := audit.payload
  idempotencyKey := ⟨job.jobId, .paperCycle audit.label, audit.number⟩
  createdAt := now
  notBefore := now
  attempts := 0

/-- The run as `_append_audit` marks it. -/
def cycleRun (run : WorkflowRunRow) (audit : CycleAudit) (now : UTCDateTime) : WorkflowRunRow :=
  { run with status := audit.runStatus, version := run.version + 1, updatedAt := now }

variable [JsonColumn]

/-- `_append_audit`, and its flush. -/
def appendAudit (run : WorkflowRunRow) (job : JobRow) (audit : CycleAudit) (now : UTCDateTime) :
    QueueCall Queue := do
  let posted ← s.insertRunEvent (s.cycleEvent run job audit now)
  let posted ← posted.insertOutbox (cycleOutbox run job audit now)
  posted.updateRun (cycleRun run audit now)

/-! ## Checkpoints -/

/-- What a checkpoint records. -/
def checkpointAudit (job : JobRow) (command : RunPaperCycle) (state : PaperCycleState)
    (stage : PaperCycleStage) : CycleAudit where
  eventType := "paper_cycle.stage_completed"
  payload := .dict [
    ("schema", dump "paper-cycle-checkpoint/1.0.0"),
    ("job_id", dump job.jobId),
    ("cycle_input_hash", dump command.cycleInputHash),
    ("stage", dump stage.value),
    ("state", dump state),
    ("state_hash", dump state.stateHash),
    ("attempt_generation", dump command.lease.attemptGeneration)]
  label := "stage:" ++ stage.value
  number := state.stateHash
  runStatus := .running

/-- `PostgresPaperCycleStore.checkpoint`. A state that may follow has a last stage. -/
def checkpointCycle (command : RunPaperCycle) (state : PaperCycleState)
    (expectedStateHash : Sha256) (now : UTCDateTime) : QueueCall (PaperCycleState × Queue) :=
  .handled "Paper cycle checkpoint conflicted" "Paper cycle checkpoint failed" do
    let rows ← s.activeAuthority command now
    let current ← s.loadState rows.1 rows.2 command.cycleInputHash
    requireNextState current state expectedStateHash
    let last ← .orRaised "tuple index out of range" state.outputs.getLast?
    let s ← s.appendAudit rows.2 rows.1 (checkpointAudit rows.1 command state last.stage) now
    return (state, s)

/-! ## Failures -/

def retryDelay (baseRetryDelay : ℤ) (attempts : ℕ) : ℤ :=
  baseRetryDelay * (min (2 ^ (attempts - 1)) 300 : ℕ)

def MayRetry (job : JobRow) (error : Failure) (retryAt : UTCDateTime) : Prop :=
  error.code ∈ retryableCodes ∧ job.attempts < job.maxAttempts ∧ retryAt < job.deadlineAt

instance (job : JobRow) (error : Failure) (retryAt : UTCDateTime) :
    Decidable (MayRetry job error retryAt) := inferInstanceAs (Decidable (_ ∧ _))

/-- The time of the next attempt, if there is one. -/
def retryTime (job : JobRow) (error : Failure) (baseRetryDelay : ℤ) (now : UTCDateTime) :
    Option UTCDateTime :=
  if MayRetry job error (now + retryDelay baseRetryDelay job.attempts) then
    some (now + retryDelay baseRetryDelay job.attempts)
  else none

/-- What a failure records. -/
def failureAudit (job : JobRow) (command : RunPaperCycle) (state : PaperCycleState)
    (error : Failure) (retryAt : Option UTCDateTime) : CycleAudit where
  eventType := if retryAt.isSome then "paper_cycle.retry_scheduled"
    else "paper_cycle.dead_lettered"
  payload := .dict [
    ("schema", dump "paper-cycle-checkpoint/1.0.0"),
    ("job_id", dump job.jobId),
    ("cycle_input_hash", dump command.cycleInputHash),
    ("state_hash", dump state.stateHash),
    ("error_code", dump error.code.value),
    ("attempt_generation", dump command.lease.attemptGeneration),
    ("retry_at", dump retryAt)]
  label := if retryAt.isSome then "retry_scheduled" else "dead_lettered"
  number := command.lease.attemptGeneration
  runStatus := if retryAt.isSome then .running else .failed

/-- `_mark_failed_attempt`, but for the error. -/
def failedAttempt (job : JobRow) (retryAt : Option UTCDateTime) (now : UTCDateTime) : JobRow :=
  { job with
    status := if retryAt.isSome then .queued else .deadLetter
    notBefore := retryAt.getD job.notBefore
    attemptNonce := none
    leaseOwner := none
    leaseUntil := none
    updatedAt := now }

def failedAttemptError (job : JobRow) (error : Failure) : Payload :=
  .dict [("code", dump error.code.value), ("attempt_generation", dump job.attemptGeneration)]

/-- `PostgresPaperCycleStore.fail`. -/
def failCycle (baseRetryDelay : ℤ) (command : RunPaperCycle) (error : Failure)
    (now : UTCDateTime) : QueueCall (PaperCycleRunResult × Queue) :=
  .handled "Paper cycle failure audit conflicted" "Paper cycle failure audit failed" do
    let rows ← s.activeAuthority command now
    let state ← s.loadState rows.1 rows.2 command.cycleInputHash
    let retryAt := retryTime rows.1 error baseRetryDelay now
    let s ← s.appendAudit rows.2 rows.1 (failureAudit rows.1 command state error retryAt) now
    let s ← s.updateJob (failedAttempt rows.1 retryAt now) (some (failedAttemptError rows.1 error))
    let result ← PaperCycleRunResult.validated
      { runId := rows.2.runId
        status := if retryAt.isSome then .retryScheduled else .deadLettered
        state := state
        resultArtifactHash := none
        errorCode := some error.code.value }
    return (result, s)

/-! ## Completion -/

/-- The conditions of `_register_artifact`. -/
def CycleArtifactValid (manifest : ArtifactManifest) (state : PaperCycleState)
    (now : UTCDateTime) : Prop :=
  (1 ≤ manifest.sizeBytes ∧ manifest.sizeBytes ≤ 1048576) ∧ manifest.finalizedAt ≤ now ∧
    manifest.mediaType = "application/json" ∧ manifest.licenseTag = "Apache-2.0" ∧
    manifest.sensitivity = "internal" ∧ manifest.source = "stonks-agent-paper-cycle" ∧
    manifest.attributes.Perm [("run_id", toString state.runId),
      ("schema", "paper-fund-cycle-result/1.0.0"), ("state_hash", toString state.stateHash)]

instance (manifest : ArtifactManifest) (state : PaperCycleState) (now : UTCDateTime) :
    Decidable (CycleArtifactValid manifest state now) := inferInstanceAs (Decidable (_ ∧ _))

omit [JsonColumn] in
/-- `_register_artifact`. -/
def registerCycleArtifact (manifest : ArtifactManifest) (state : PaperCycleState)
    (now : UTCDateTime) : QueueCall (ArtifactManifestRow × Queue) := do
  .accepted (CycleArtifactValid manifest state now) .conflict
    "Paper cycle artifact metadata is invalid"
  match s.artifact manifest.contentHash with
  | none => do
      let s ← s.insertArtifact manifest.row
      return (manifest.row, s)
  | some existing => do
      .accepted (existing = manifest.row) .conflict "Paper cycle artifact identity changed"
      return (existing, s)

/-- `_completion_payload`. -/
def cycleCompletionPayload (job : JobRow) (command : RunPaperCycle) (state : PaperCycleState)
    (artifact : ArtifactManifestRow) : Payload :=
  .dict [
    ("schema", dump "paper-cycle-checkpoint/1.0.0"),
    ("job_id", dump job.jobId),
    ("cycle_input_hash", dump command.cycleInputHash),
    ("state_hash", dump state.stateHash),
    ("result_artifact_hash", dump artifact.contentHash),
    ("result_artifact_identity_hash", dump (stablePayloadHash (.dict [
      ("content_hash", dump artifact.contentHash),
      ("size_bytes", dump artifact.sizeBytes),
      ("metadata", artifact.metadata),
      ("storage_uri", dump artifact.storageUri)]))),
    ("attempt_generation", dump command.lease.attemptGeneration)]

/-- What a completion records. -/
def completionAudit (job : JobRow) (command : RunPaperCycle) (state : PaperCycleState)
    (artifact : ArtifactManifestRow) : CycleAudit where
  eventType := "paper_cycle.completed"
  payload := cycleCompletionPayload job command state artifact
  label := "completed"
  number := command.lease.attemptGeneration
  runStatus := .succeeded

/-- The job of a completed cycle; it keeps its lease. -/
def completedJob (job : JobRow) (artifact : ArtifactManifest) (now : UTCDateTime) : JobRow :=
  { job with
    status := .succeeded
    resultArtifactHash := some artifact.contentHash
    lastError := none
    updatedAt := now }

def latestEvent (runId : UUID) (eventType : String) : Option RunEventRow :=
  ((s.eventsOf runId).filter (·.eventType = eventType)).getLast?

/-- The conditions of `_completed_result`. -/
def CompletedCycleValid (command : RunPaperCycle) (job : JobRow) (run : WorkflowRunRow)
    (state : PaperCycleState) (artifact : ArtifactManifest) (current : PaperCycleState) : Prop :=
  current = state ∧ state.Complete ∧ run.status = .succeeded ∧
    job.resultArtifactHash = some artifact.contentHash ∧
    job.attemptGeneration = command.lease.attemptGeneration ∧
    job.attemptNonce = some command.lease.attemptNonce ∧
    job.leaseOwner = some command.lease.leaseOwner ∧
    ∃ event ∈ s.latestEvent run.runId "paper_cycle.completed",
      ∃ row ∈ s.artifact artifact.contentHash,
        event.payload = cycleCompletionPayload job command state row

instance (command : RunPaperCycle) (job : JobRow) (run : WorkflowRunRow) (state : PaperCycleState)
    (artifact : ArtifactManifest) (current : PaperCycleState) :
    Decidable (s.CompletedCycleValid command job run state artifact current) :=
  inferInstanceAs (Decidable (_ ∧ _))

/-- The result of a completed cycle. -/
def completedCycle (run : WorkflowRunRow) (state : PaperCycleState) (artifact : ArtifactManifest) :
    QueueCall PaperCycleRunResult :=
  PaperCycleRunResult.validated
    { runId := run.runId
      status := .succeeded
      state := state
      resultArtifactHash := some artifact.contentHash
      errorCode := none }

omit [JsonColumn] in
def completedResult (command : RunPaperCycle) (job : JobRow) (run : WorkflowRunRow)
    (state : PaperCycleState) (artifact : ArtifactManifest) : QueueCall PaperCycleRunResult := do
  let current ← s.loadState job run command.cycleInputHash
  .accepted (s.CompletedCycleValid command job run state artifact current) .conflict
    "Completed paper cycle graph is invalid"
  completedCycle run state artifact

/-- The transaction of `complete` for a job that is still active. -/
def completeActiveCycle (command : RunPaperCycle) (job : JobRow) (run : WorkflowRunRow)
    (state : PaperCycleState) (artifact : ArtifactManifest) (now : UTCDateTime) :
    QueueCall (PaperCycleRunResult × Queue) := do
  requireActive job run command now
  let current ← s.loadState job run command.cycleInputHash
  .accepted (current = state ∧ state.Complete) .conflict "Paper cycle is not ready to complete"
  let registered ← s.registerCycleArtifact artifact state now
  let s ← registered.2.appendAudit run job (completionAudit job command state registered.1) now
  let s ← s.updateJob (completedJob job artifact now) none
  let result ← completedCycle run state artifact
  return (result, s)

/-- `PostgresPaperCycleStore.complete`. -/
def completeCycle (command : RunPaperCycle) (state : PaperCycleState) (artifact : ArtifactManifest)
    (now : UTCDateTime) : QueueCall (PaperCycleRunResult × Queue) :=
  .handled "Paper cycle completion conflicted" "Paper cycle completion failed" do
    let rows ← s.lockedRows command
    if rows.1.status = .succeeded then
      let result ← s.completedResult command rows.1 rows.2 state artifact
      return (result, s)
    else s.completeActiveCycle command rows.1 rows.2 state artifact now

/-! ## Cancellation -/

/-- What a cancellation records. -/
def cancellationAudit (job : JobRow) (run : WorkflowRunRow) (command : CancelPaperCycle)
    (state : PaperCycleState) : CycleAudit where
  eventType := "paper_cycle.cancelled"
  payload := .dict [
    ("schema", dump "paper-cycle-checkpoint/1.0.0"),
    ("job_id", dump job.jobId),
    ("cycle_input_hash", dump run.inputHash),
    ("state_hash", dump state.stateHash),
    ("actor", dump command.actor),
    ("reason_code", dump command.reasonCode)]
  label := "cancelled"
  number := command.expectedVersion + 1
  runStatus := .cancelled

/-- The job of a cancelled cycle, but for its error. -/
def cancelledJob (job : JobRow) (now : UTCDateTime) : JobRow :=
  { job with
    status := .cancelled
    attemptNonce := none
    leaseOwner := none
    leaseUntil := none
    updatedAt := now }

omit [JsonColumn] in
def CancelledIsExact (run : WorkflowRunRow) (job : JobRow) (command : CancelPaperCycle) : Prop :=
  ∃ event ∈ s.latestEvent run.runId "paper_cycle.cancelled",
    run.version = command.expectedVersion + 1 ∧ job.status = .cancelled ∧
      event.payload.get "actor" = some (dump command.actor) ∧
      event.payload.get "reason_code" = some (dump command.reasonCode)

instance (run : WorkflowRunRow) (job : JobRow) (command : CancelPaperCycle) :
    Decidable (s.CancelledIsExact run job command) := inferInstanceAs (Decidable (∃ _ ∈ _, _))

def cancelledResult (run : WorkflowRunRow) (state : PaperCycleState) (reasonCode : String) :
    QueueCall PaperCycleRunResult :=
  PaperCycleRunResult.validated
    { runId := run.runId
      status := .cancelled
      state := state
      resultArtifactHash := none
      errorCode := some reasonCode }

def cycleJobs (runId : UUID) : List JobRow :=
  s.jobs.filter fun job => job.runId = runId ∧ job.jobType = "paper_fund_cycle"

/-- `PostgresPaperCycleStore.cancel`. -/
def cancelCycle (command : CancelPaperCycle) (now : UTCDateTime) :
    QueueCall (PaperCycleRunResult × Queue) :=
  .handled "Paper cycle cancellation conflicted" "Paper cycle cancellation failed" do
    let run ← .orRefused .notFound "Paper cycle run was not found" (s.run command.runId)
    match s.cycleJobs command.runId with
    | [job] =>
        let state ← s.loadState job run run.inputHash
        if run.status = .cancelled then
          .accepted (s.CancelledIsExact run job command) .conflict
            "Cancelled paper cycle command conflicts"
          let result ← cancelledResult run state command.reasonCode
          return (result, s)
        else
          .accepted (run.version = command.expectedVersion ∧
            (run.status = .pending ∨ run.status = .running ∨ run.status = .degraded) ∧
            job.status.Active) .conflict "Paper cycle cannot be cancelled"
          let s ← s.appendAudit run job (cancellationAudit job run command state) now
          let s ← s.updateJob (cancelledJob job now)
            (some (.dict [("code", dump command.reasonCode)]))
          let result ← cancelledResult run state command.reasonCode
          return (result, s)
    | _ => .refused .conflict "Paper cycle job is invalid"

end Queue

/-! ## Runs of the store -/

/-- What writes runs: the queue, the workflow store and the store of paper cycles. -/
inductive CycleCommand where
  | workflow (command : WorkflowCommand)
  | checkpoint (command : RunPaperCycle) (state : PaperCycleState) (expectedStateHash : Sha256)
      (now : UTCDateTime)
  | fail (baseRetryDelay : ℤ) (command : RunPaperCycle) (error : Failure) (now : UTCDateTime)
  | complete (command : RunPaperCycle) (state : PaperCycleState) (artifact : ArtifactManifest)
      (now : UTCDateTime)
  | cancel (command : CancelPaperCycle) (now : UTCDateTime)

namespace Cycle

variable [JsonColumn]

def step (s : Queue) : CycleCommand → Queue
  | .workflow command => Workflow.step s command
  | .checkpoint command state expectedStateHash now =>
      s.kept (s.checkpointCycle command state expectedStateHash now)
  | .fail baseRetryDelay command error now => s.kept (s.failCycle baseRetryDelay command error now)
  | .complete command state artifact now => s.kept (s.completeCycle command state artifact now)
  | .cancel command now => s.kept (s.cancelCycle command now)

def reached (commands : List CycleCommand) : Queue := Run.run step Queue.migrated commands

theorem reached_append (commands more : List CycleCommand) :
    reached (commands ++ more) = Run.run step (reached commands) more := Run.run_append ..

end Cycle

end

end StonksPaper
