import StonksPaper.Base.Run
import StonksPaper.Jobs.Snapshot

/-!
# The job queue

`job_queue.py` and the creation of runs. Every operation is one transaction, at one reading of the
database clock. Rows that another transaction has locked are skipped by a claim; which ones these
are is an input of it.
-/

namespace StonksPaper

open Chain

structure JobRecord where
  jobId : UUID
  runId : UUID
  jobType : String
  payload : Payload
  payloadHash : Sha256
  status : JobStatus
  idempotencyKey : String
  notBefore : UTCDateTime
  deadlineAt : UTCDateTime
  attempts : ℕ
  maxAttempts : ℕ
  attemptGeneration : ℕ
  createdAt : UTCDateTime
  updatedAt : UTCDateTime
deriving DecidableEq

structure JobLease where
  jobId : UUID
  runId : UUID
  jobType : String
  payload : Payload
  attemptGeneration : ℕ
  attemptNonce : Nonce
  leaseOwner : String
  leaseUntil : UTCDateTime
  attempts : ℕ
  deadlineAt : UTCDateTime
deriving DecidableEq

/-- The arguments of a claim, and the nonce that it draws. -/
structure ClaimJob where
  workerId : String
  leaseFor : ℤ
  nonce : Nonce
deriving DecidableEq

namespace JobRow

def record (self : JobRow) : JobRecord where
  jobId := self.jobId
  runId := self.runId
  jobType := self.jobType
  payload := self.payload
  payloadHash := self.payloadHash
  status := self.status
  idempotencyKey := self.idempotencyKey
  notBefore := self.notBefore
  deadlineAt := self.deadlineAt
  attempts := self.attempts
  maxAttempts := self.maxAttempts
  attemptGeneration := self.attemptGeneration
  createdAt := self.createdAt
  updatedAt := self.updatedAt

/-- `_job_lease`. -/
def lease (self : JobRow) : QueueCall JobLease :=
  match self.attemptNonce, self.leaseOwner, self.leaseUntil with
  | some attemptNonce, some leaseOwner, some leaseUntil =>
      return {
        jobId := self.jobId
        runId := self.runId
        jobType := self.jobType
        payload := self.payload
        attemptGeneration := self.attemptGeneration
        attemptNonce := attemptNonce
        leaseOwner := leaseOwner
        leaseUntil := leaseUntil
        attempts := self.attempts
        deadlineAt := self.deadlineAt }
  | _, _, _ => .raised (.valueError "claimed job is missing lease fields")

/-- `_mark_leased`. -/
def leased (self : JobRow) (request : ClaimJob) (now : UTCDateTime) : JobRow :=
  { self with
    status := .leased
    attempts := self.attempts + 1
    attemptGeneration := self.attemptGeneration + 1
    attemptNonce := some request.nonce
    leaseOwner := some request.workerId
    leaseUntil := some (now + request.leaseFor)
    updatedAt := now }

end JobRow

/-- `len(worker_id) <= 128` and not blank. -/
def ClaimJob.WorkerIsValid (self : ClaimJob) : Prop :=
  isBlank self.workerId = false ∧ self.workerId.length ≤ 128

instance (self : ClaimJob) : Decidable self.WorkerIsValid := inferInstanceAs (Decidable (_ ∧ _))

section

variable [Hashing]

/-- The row that a request enqueues. -/
def EnqueueJob.row (self : EnqueueJob) : JobRow where
  jobId := self.jobId
  runId := self.runId
  jobType := self.jobType
  payload := self.payload
  payloadHash := self.payloadHash
  status := .queued
  idempotencyKey := self.idempotencyKey
  notBefore := self.notBefore
  deadlineAt := self.deadlineAt
  attempts := 0
  maxAttempts := self.maxAttempts
  attemptGeneration := 0
  attemptNonce := none
  leaseOwner := none
  leaseUntil := none
  resultArtifactHash := none
  lastError := none
  createdAt := self.createdAt
  updatedAt := self.createdAt

def EnqueueJob.SameCommand (self : EnqueueJob) (row : JobRow) : Prop :=
  row.jobId = self.jobId ∧ row.runId = self.runId ∧ row.jobType = self.jobType ∧
    row.payload = self.payload ∧ row.payloadHash = stablePayloadHash row.payload ∧
    row.payloadHash = self.payloadHash ∧ row.idempotencyKey = self.idempotencyKey ∧
    row.notBefore = self.notBefore ∧ row.deadlineAt = self.deadlineAt ∧
    row.maxAttempts = self.maxAttempts ∧ row.createdAt = self.createdAt

instance (self : EnqueueJob) (row : JobRow) : Decidable (self.SameCommand row) :=
  inferInstanceAs (Decidable (_ ∧ _))

/-- The row of a run that is created. -/
def CreateWorkflowRun.row (self : CreateWorkflowRun) : WorkflowRunRow where
  runId := self.runId
  runType := self.runType
  status := .pending
  asOf := self.asOf
  policyId := self.policyId
  idempotencyKey := self.idempotencyKey
  inputHash := self.inputHash
  ownerSubject := self.ownerSubject
  version := 1
  createdAt := self.createdAt
  updatedAt := self.createdAt

namespace Queue

variable (s : Queue)

/-! ## Runs and jobs -/

def create (request : CreateWorkflowRun) : QueueCall (WorkflowRunRow × Queue) :=
  match s.runs.find? (·.idempotencyKey = request.idempotencyKey) with
  | some existing => do
      .accepted (existing.inputHash = request.inputHash ∧
        existing.ownerSubject = request.ownerSubject) .conflict "Run idempotency payload mismatch"
      return (existing, s)
  | none => .handled "Run already exists" "Run already exists" do
      let s ← s.insertRun request.row
      return (request.row, s)

variable [JsonColumn]

def enqueue (request : EnqueueJob) : QueueCall (JobRecord × Queue) := do
  request.validate
  match s.jobs.find? (·.idempotencyKey = request.idempotencyKey) with
  | some existing =>
      .accepted (request.SameCommand existing) .conflict "Job idempotency command mismatch"
      return (existing.record, s)
  | none => .handled "Job already exists" "Job enqueue failed" do
      let s ← s.insertJob request.row
      return (request.row.record, s)

/-! ## Claims -/

/-- The jobs that `_next_claimable_job` selects. -/
def Claimable (now : UTCDateTime) (job : JobRow) : Prop :=
  (job.status = .queued ∨
    job.status = .leased ∧ ∃ leaseUntil ∈ job.leaseUntil, leaseUntil ≤ now) ∧
    job.notBefore ≤ now ∧ now < job.deadlineAt ∧ job.attempts < job.maxAttempts

instance (now : UTCDateTime) (job : JobRow) : Decidable (Claimable now job) :=
  inferInstanceAs (Decidable (_ ∧ _))

def nextClaimableJob (locked : List UUID) (now : UTCDateTime) : Option JobRow :=
  (sorted (fun job : JobRow => toLex (job.notBefore, toLex (job.createdAt, job.jobId)))
    (s.jobs.filter fun job => Claimable now job ∧ job.jobId ∉ locked)).head?

/-- The transaction of a claim: a lease, if there is a claimable job. -/
def claimTransaction (request : ClaimJob) (locked : List UUID) (now : UTCDateTime) :
    QueueCall (Option JobLease × Queue) := do
  let s ← s.deadLetterUnclaimable locked now
  match s.nextClaimableJob locked now with
  | none => return (none, s)
  | some job =>
      let s ← s.updateJob (job.leased request now) none
      let lease ← (job.leased request now).lease
      return (some lease, s)

/-- A claim without a claimable job fails, and commits the jobs that it has dead-lettered. -/
def claim (request : ClaimJob) (locked : List UUID) (now : UTCDateTime) :
    QueueCall JobLease × Queue :=
  if ¬ request.WorkerIsValid then (.refused .invalidInput "Worker ID is invalid", s)
  else if request.leaseFor ≤ 0 then (.refused .invalidInput "Lease timing is invalid", s)
  else
    match QueueCall.handled "Job queue audit conflicts" "Job claim failed"
      (s.claimTransaction request locked now) with
    | .success (some lease, s') => (.success lease, s')
    | .success (none, s') => (.refused .notFound "No claimable job", s')
    | .failure error => (.failure error, s)
    | .raised error => (.raised error, s)

/-! ## Completion -/

def workerArtifactPolicy (row : JobRow) : QueueCall (String × List (String × String)) :=
  if row.jobType = "tradingagents_research" then
    return ("tradingagents-isolated-worker", [("schema", "tradingagents-worker-result/1.0.0")])
  else if row.jobType = "research_pipeline" then
    return ("stonks-agent-research-worker",
      [("schema", "research-worker-result/1.0.0"), ("run_id", toString row.runId)])
  else .raised (.valueError "job type may not register worker artifacts")

def registerResultArtifact (row : JobRow) (request : CompleteJob) (manifest : ArtifactManifest)
    (now : UTCDateTime) : QueueCall Queue := do
  let policy ← workerArtifactPolicy row
  .accepted (manifest.contentHash = request.resultArtifactHash ∧
    (1 ≤ manifest.sizeBytes ∧ manifest.sizeBytes ≤ 2097152) ∧ manifest.finalizedAt ≤ now ∧
    manifest.source = policy.1 ∧ manifest.mediaType = "application/json" ∧
    manifest.licenseTag = "Apache-2.0" ∧ manifest.sensitivity = "internal" ∧
    manifest.attributes.Perm policy.2) .conflict "Result artifact metadata is invalid"
  match s.artifact manifest.contentHash with
  | none => s.insertArtifact manifest.row
  | some existing =>
      .accepted (existing = manifest.row) .conflict "Result artifact metadata conflicts"
      return s

/-- The fence that `complete` and `fail` share, before the clock is read. -/
def LeaseHeld (row : JobRow) (workerId : String) (attemptGeneration : ℕ) (attemptNonce : Nonce) :
    Prop :=
  row.leaseUntil ≠ none ∧ row.status = .leased ∧ row.leaseOwner = some workerId ∧
    row.attemptGeneration = attemptGeneration ∧ row.attemptNonce = some attemptNonce

instance (row : JobRow) (workerId : String) (attemptGeneration : ℕ) (attemptNonce : Nonce) :
    Decidable (LeaseHeld row workerId attemptGeneration attemptNonce) :=
  inferInstanceAs (Decidable (_ ∧ _))

def LeaseRuns (row : JobRow) (now : UTCDateTime) : Prop :=
  (∃ leaseUntil ∈ row.leaseUntil, now < leaseUntil) ∧ now < row.deadlineAt

instance (row : JobRow) (now : UTCDateTime) : Decidable (LeaseRuns row now) :=
  inferInstanceAs (Decidable (_ ∧ _))

def completeActiveJob (row : JobRow) (request : CompleteJob) (manifest : Option ArtifactManifest)
    (now : UTCDateTime) : QueueCall (JobCompletionReceipt × Queue) := do
  .accepted (LeaseHeld row request.workerId request.attemptGeneration request.attemptNonce)
    .conflict "Job lease is stale or invalid"
  .accepted (manifest = none ∨ endsRun row.jobType) .capabilityDenied
    "This job type may not register worker artifacts"
  let run ← .orRefused .conflict "Owning run was not found" (s.run row.runId)
  .accepted (LeaseRuns row now) .conflict "Job lease is stale or invalid"
  let s ← manifest.elim (return s) fun manifest => s.registerResultArtifact row request manifest now
  let artifact ← .orRefused .notFound "Result artifact was not finalized"
    (s.artifact request.resultArtifactHash)
  s.commitJobResult row run artifact request now

def complete (request : CompleteJob) (artifact : Option ArtifactManifest) (now : UTCDateTime) :
    QueueCall (JobCompletionReceipt × Queue) :=
  .handled "Job completion audit conflicts" "Job completion failed" do
    let row ← .orRefused .notFound "Job was not found" (s.job request.jobId)
    .accepted (row.jobType ≠ "create_snapshot") .capabilityDenied
      "Snapshot jobs require canonical snapshot completion"
    if row.status = .succeeded then
      let receipt ← s.completedJobReceipt row request
      return (receipt, s)
    else s.completeActiveJob row request artifact now

/-! ## Failure -/

def failActiveJob (row : JobRow) (request : FailJob) (now : UTCDateTime) :
    QueueCall (JobFailureReceipt × Queue) := do
  .accepted (LeaseHeld row request.workerId request.attemptGeneration request.attemptNonce ∧
    row.resultArtifactHash = none ∧ stablePayloadHash row.payload = row.payloadHash)
    .conflict "Job lease is stale or invalid"
  let run ← .orRefused .conflict "Owning run was not found" (s.run row.runId)
  .accepted (LeaseRuns row now) .conflict "Job lease is stale or invalid"
  s.commitJobFailure row run request now

def fail (request : FailJob) (now : UTCDateTime) : QueueCall (JobFailureReceipt × Queue) :=
  .handled "Job failure audit conflicts" "Job failure failed" do
    let row ← .orRefused .notFound "Job was not found" (s.job request.jobId)
    .accepted (row.jobType ≠ "create_snapshot") .capabilityDenied
      "Snapshot jobs require canonical snapshot failure"
    if row.status = .deadLetter then
      let receipt ← s.failedJobReceipt row request
      return (receipt, s)
    else s.failActiveJob row request now

end Queue

/-! ## Runs of the queue -/

inductive QueueOperation where
  | create (request : CreateWorkflowRun)
  | enqueue (request : EnqueueJob)
  | claim (request : ClaimJob) (locked : List UUID)
  | complete (request : CompleteJob) (artifact : Option ArtifactManifest)
  | fail (request : FailJob)
  | recordSnapshotFailure (request : FailSnapshotJob) (context : SnapshotContext)
  | completeSnapshot (request : CompleteSnapshotJob) (content : SnapshotContent)

def Queue.kept {α : Type} (s : Queue) : QueueCall (α × Queue) → Queue
  | .success (_, s') => s'
  | _ => s

variable [JsonColumn]

def QueueOperation.after (s : Queue) (now : UTCDateTime) : QueueOperation → Queue
  | .create request => s.kept (s.create request)
  | .enqueue request => s.kept (s.enqueue request)
  | .claim request locked => (s.claim request locked now).2
  | .complete request artifact => s.kept (s.complete request artifact now)
  | .fail request => s.kept (s.fail request now)
  | .recordSnapshotFailure request context => s.kept (s.recordSnapshotFailure request context now)
  | .completeSnapshot request content => s.kept (s.completeSnapshot request content now)

abbrev TimedQueueOperation := QueueOperation × UTCDateTime

def Queue.step (s : Queue) (op : TimedQueueOperation) : Queue := op.1.after s op.2

def Queue.reached (ops : List TimedQueueOperation) : Queue := Run.run Queue.step Queue.migrated ops

end

/-! ## A concrete run -/

namespace QueueScenario

def request : CreateWorkflowRun := ⟨1, "data_snapshot", 0, "policy", "run", 7, "owner", 0⟩

def job : EnqueueJob := ⟨11, 1, "create_snapshot", .record "request" [], "job", 0, 100, 3, 1⟩

def opened : List TimedQueueOperation := [(.create request, 0), (.enqueue job, 1)]

def claim (nonce : Nonce) : ClaimJob := ⟨"worker", 30, nonce⟩

variable [Hashing]

def failure : FailSnapshotJob :=
  ⟨11, 1, "worker", 1, 5, job.payloadHash, 40, 100, .provider, .dataUnavailable, none⟩

def context : SnapshotContext := ⟨some ⟨0, "policy", 7⟩, true, true⟩

def putBack : List TimedQueueOperation :=
  opened ++ [(.claim (claim 5) [], 10), (.recordSnapshotFailure failure context, 20)]

end QueueScenario

namespace ResearchScenario

def request : CreateWorkflowRun := ⟨2, "research", 0, "policy", "research", 8, "owner", 0⟩

def firstJob : EnqueueJob :=
  ⟨21, 2, "research_pipeline", .record "request" [], "first", 0, 100, 3, 1⟩

def secondJob : EnqueueJob :=
  ⟨22, 2, "research_pipeline", .record "request" [], "second", 0, 100, 3, 1⟩

def artifact : ArtifactManifest where
  contentHash := 900
  sizeBytes := 10
  mediaType := "application/json"
  licenseTag := "Apache-2.0"
  sensitivity := "internal"
  source := "stonks-agent-research-worker"
  attributes := [("schema", "research-worker-result/1.0.0"), ("run_id", "2")]
  finalizedAt := 5
  storageUri := "artifact"

def completion : CompleteJob := ⟨21, "worker", 1, 5, 900⟩

def failure : FailJob := ⟨22, "worker", 1, 6, .internalError, "worker_failed"⟩

variable [Hashing]

def claimed : List TimedQueueOperation :=
  [(.create request, 0), (.enqueue firstJob, 1), (.enqueue secondJob, 1),
    (.claim ⟨"worker", 30, 5⟩ [], 10)]

def complete : TimedQueueOperation := (.complete completion (some artifact), 20)

def failed : List TimedQueueOperation :=
  [(.claim ⟨"worker", 30, 6⟩ [], 21), (.fail failure, 25)]

end ResearchScenario

end StonksPaper
