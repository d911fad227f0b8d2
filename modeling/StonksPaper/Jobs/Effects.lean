import Mathlib.Logic.Relation
import StonksPaper.Jobs.Queue

/-!
# What the operations of the queue change

Each statement and each transition has one lemma that says when it succeeds and what it leaves;
every operation is a sequence of these.
-/

namespace StonksPaper

open Chain

section

variable [Hashing] [JsonColumn] {s s' : Queue} {run : WorkflowRunRow} {job : JobRow}
  {t : Queue.Transition} {now : UTCDateTime}

namespace Queue

/-! ## Statements -/

omit [Hashing] [JsonColumn] in
theorem insertRun_eq_success {row : WorkflowRunRow} :
    s.insertRun row = .success s' ↔ (Table.Fresh (·.runId) row.runId s.runs ∧
      Table.Fresh (·.idempotencyKey) row.idempotencyKey s.runs ∧ 0 < row.version) ∧
      { s with runs := s.runs ++ [row] } = s' := by
  simp [insertRun, Attempt.bind_eq_success]

omit [Hashing] [JsonColumn] in
theorem insertArtifact_eq_success {row : ArtifactManifestRow} :
    s.insertArtifact row = .success s' ↔ Table.Fresh (·.contentHash) row.contentHash s.artifacts ∧
      { s with artifacts := s.artifacts ++ [row] } = s' := by
  simp [insertArtifact, Attempt.bind_eq_success]

omit [Hashing] in
theorem insertJob_eq_success {row : JobRow} :
    s.insertJob row = .success s' ↔ secretFree row.payload = true ∧
      (Table.Fresh (·.jobId) row.jobId s.jobs ∧
        Table.Fresh (·.idempotencyKey) row.idempotencyKey s.jobs ∧ s.run row.runId ≠ none ∧
        s.JobChecks row) ∧
      { s with jobs := s.jobs ++ [{ row with payload := stored row.payload }] } = s' := by
  simp [insertJob, Attempt.bind_eq_success]

/-- The row that the `UPDATE` of a job leaves. -/
def updatedJob (row : JobRow) (lastError : Option Payload) : JobRow :=
  { row with lastError := (lastError.map stored).or row.lastError }

omit [Hashing] in
theorem updateJob_eq_success {row : JobRow} {lastError : Option Payload} :
    s.updateJob row lastError = .success s' ↔ (∀ error ∈ lastError, secretFree error = true) ∧
      s.JobChecks row ∧
      { s with jobs := Table.update (·.jobId = row.jobId) (fun _ => updatedJob row lastError)
                s.jobs } = s' := by
  simp only [updateJob, updatedJob, Attempt.bind_eq_success, Attempt.forM_eq_success,
    scanned_eq_success, Option.mem_toList, Option.mem_def, QueueCall.constraint_eq_success,
      Attempt.pure_eq,
    Attempt.success.injEq, exists_const]

omit [Hashing] [JsonColumn] in
theorem updateRun_eq_success {row : WorkflowRunRow} :
    s.updateRun row = .success s' ↔ 0 < row.version ∧
      { s with runs := Table.update (·.runId = row.runId) (fun _ => row) s.runs } = s' := by
  simp [updateRun, Attempt.bind_eq_success]

/-! ## Transitions -/

def storedEvent (s : Queue) (run : WorkflowRunRow) (t : Transition) (now : UTCDateTime) :
    RunEventRow :=
  { s.auditEvent run t now with payload := stored t.payload }

def storedOutbox (run : WorkflowRunRow) (t : Transition) (now : UTCDateTime) : OutboxRow :=
  { auditOutbox run t now with payload := stored t.payload }

/-- The queue after a transition. -/
def committed (s : Queue) (run : WorkflowRunRow) (t : Transition) (now : UTCDateTime) : Queue where
  artifacts := s.artifacts
  runs := Table.update (·.runId = run.runId) (fun _ => auditedRun run t now) s.runs
  events := s.events ++ [s.storedEvent run t now]
  jobs := Table.update (·.jobId = t.marked.jobId) (fun _ => updatedJob t.marked t.lastError) s.jobs
  outbox := s.outbox ++ [storedOutbox run t now]

/-- What the tables and the scan ask of a transition. -/
structure CanCommit (s : Queue) (run : WorkflowRunRow) (t : Transition) : Prop where
  payload_clean : secretFree t.payload = true
  error_clean : ∀ error ∈ t.lastError, secretFree error = true
  event_fresh : Table.Fresh (·.eventId) (auditEventId t.marked.jobId t.generation) s.events
  sequence_fresh : Table.Fresh (fun e : RunEventRow => (e.runId, e.sequence))
    (run.runId, run.version + 1) s.events
  hash_fresh : Table.Fresh (·.eventHash) (eventHash (auditEventId t.marked.jobId t.generation)
    (run.version + 1) (s.previousHash run.runId) t.payload) s.events
  run_stored : s.run run.runId ≠ none
  outbox_fresh : Table.Fresh (·.outboxId) (auditOutboxId t.marked.jobId t.generation) s.outbox
  key_fresh : Table.Fresh (·.idempotencyKey) ⟨t.marked.jobId, t.kind, t.generation⟩ s.outbox
  outbox_sequence_fresh : Table.Fresh
    (fun o : OutboxRow => (o.aggregateType, o.aggregateId, o.sequence))
    ("run", run.runId, run.version + 1) s.outbox
  checks : s.JobChecks t.marked

theorem commitTransition_eq_success :
    s.commitTransition run t now = .success s' ↔ s.CanCommit run t ∧
    s.committed run t now = s' := by
  simp only [commitTransition, insertRunEvent, insertOutbox, updateJob_eq_success,
    updateRun_eq_success, Attempt.bind_eq_success, scanned_eq_success,
    QueueCall.constraint_eq_success, Attempt.pure_eq, Attempt.success.injEq]
  constructor
  · rintro ⟨_, ⟨_, hpayload, _, ⟨hid, hsequence, hhash, hrun⟩, rfl⟩, _,
      ⟨_, _, _, ⟨houtbox, hkey, houtboxSequence⟩, rfl⟩, _, ⟨herror, hchecks, rfl⟩, -, rfl⟩
    exact ⟨⟨hpayload, herror, hid, hsequence, hhash, hrun, houtbox, hkey, houtboxSequence,
      hchecks⟩, rfl⟩
  · rintro ⟨h, rfl⟩
    exact ⟨_, ⟨(), h.payload_clean, (), ⟨h.event_fresh, h.sequence_fresh, h.hash_fresh,
      h.run_stored⟩, rfl⟩, _, ⟨(), h.payload_clean, (), ⟨h.outbox_fresh, h.key_fresh,
      h.outbox_sequence_fresh⟩, rfl⟩, _, ⟨h.error_clean, h.checks, rfl⟩,
      Nat.succ_pos _, rfl⟩

/-! ## Dead letters -/

omit [Hashing] [JsonColumn] in
theorem deadLetterReason_of_unclaimable (h : Unclaimable now job) :
    ∃ reason, deadLetterReason job now = .success reason := by
  unfold deadLetterReason
  by_cases hdeadline : job.deadlineAt ≤ now
  · exact ⟨_, if_pos hdeadline⟩
  · rw [if_neg hdeadline, if_pos (h.2.resolve_left hdeadline)]
    exact ⟨_, rfl⟩

theorem deadLetterJob_eq_success :
    s.deadLetterJob now job = .success s' ↔ stablePayloadHash job.payload = job.payloadHash ∧
      job.resultArtifactHash = none ∧ ∃ run, s.run job.runId = some run ∧
      s.requireValidAuditHead run = .success () ∧ ∃ reason,
      deadLetterReason job now = .success reason ∧
      s.CanCommit run (deadLettered job reason now) ∧
      s.committed run (deadLettered job reason now) now = s' := by
  simp only [deadLetterJob, Attempt.bind_eq_success, commitTransition_eq_success,
    QueueCall.valid_eq_success, QueueCall.orRaised_eq_success, exists_const]
  constructor
  · rintro ⟨hcanonical, hresult, run, hrun, _, hhead, reason, hreason, hcommit⟩
    exact ⟨hcanonical, hresult, run, hrun, hhead, reason, hreason, hcommit⟩
  · rintro ⟨hcanonical, hresult, run, hrun, hhead, reason, hreason, hcommit⟩
    exact ⟨hcanonical, hresult, run, hrun, (), hhead, reason, hreason, hcommit⟩

/-! ## Operations

An operation that succeeds either leaves the queue as it was or makes the changes below. -/

omit [Hashing] [JsonColumn] in
theorem create_eq_success {request : CreateWorkflowRun} {record : WorkflowRunRow}
    (h : s.create request = .success (record, s')) :
    s' = s ∨ s.insertRun request.row = .success s' := by
  unfold create at h
  split at h
  · simp only [Attempt.bind_eq_success, Attempt.pure_eq, Attempt.success.injEq,
      Prod.mk.injEq] at h
    obtain ⟨_, -, -, rfl⟩ := h
    exact .inl rfl
  · simp only [QueueCall.handled_eq_success, Attempt.bind_eq_success, Attempt.pure_eq,
      Attempt.success.injEq, Prod.mk.injEq] at h
    obtain ⟨_, hinsert, -, rfl⟩ := h
    exact .inr hinsert

theorem enqueue_eq_success {request : EnqueueJob} {record : JobRecord}
    (h : s.enqueue request = .success (record, s')) :
    s' = s ∨ s.insertJob request.row = .success s' := by
  unfold enqueue at h
  obtain ⟨_, -, h⟩ := Attempt.bind_eq_success.mp h
  split at h
  · simp only [Attempt.bind_eq_success, Attempt.pure_eq, Attempt.success.injEq,
      Prod.mk.injEq] at h
    obtain ⟨_, -, -, rfl⟩ := h
    exact .inl rfl
  · simp only [QueueCall.handled_eq_success, Attempt.bind_eq_success, Attempt.pure_eq,
      Attempt.success.injEq, Prod.mk.injEq] at h
    obtain ⟨_, hinsert, -, rfl⟩ := h
    exact .inr hinsert

/-- The transaction of a claim: the dead letters, and then the lease of the next job. -/
theorem claimTransaction_eq_success {request : ClaimJob} {locked : List UUID}
    {lease : Option JobLease} :
    s.claimTransaction request locked now = .success (lease, s') ↔
      ∃ retired, s.deadLetterUnclaimable locked now = .success retired ∧
        ((retired.nextClaimableJob locked now = none ∧ lease = none ∧ s' = retired) ∨
          ∃ job, retired.nextClaimableJob locked now = some job ∧
            retired.updateJob (job.leased request now) none = .success s' ∧
            ∃ granted, (job.leased request now).lease = .success granted ∧
              lease = some granted) := by
  unfold claimTransaction
  rw [Attempt.bind_eq_success]
  refine exists_congr fun retired => and_congr_right fun _ => ?_
  cases hnext : retired.nextClaimableJob locked now with
  | none => simp [eq_comm]
  | some job =>
      simp only [Attempt.bind_eq_success, Attempt.pure_eq, Attempt.success.injEq, Prod.mk.injEq,
        reduceCtorEq, false_and, false_or, Option.some.injEq, exists_eq_left']
      constructor
      · rintro ⟨_, hupdate, granted, hgranted, rfl, rfl⟩
        exact ⟨hupdate, granted, hgranted, rfl⟩
      · rintro ⟨hupdate, granted, hgranted, rfl⟩
        exact ⟨_, hupdate, granted, hgranted, rfl, rfl⟩

/-- A claim is answered from its transaction, or it changes nothing and grants nothing. -/
theorem claim_cases (s : Queue) (request : ClaimJob) (locked : List UUID) (now : UTCDateTime) :
    ((s.claim request locked now).2 = s ∧ (s.claim request locked now).1.toOption = none) ∨
      ∃ lease, s.claimTransaction request locked now =
          .success (lease, (s.claim request locked now).2) ∧
        (s.claim request locked now).1 =
          lease.elim (.refused .notFound "No claimable job") .success := by
  unfold claim
  split
  · exact .inl ⟨rfl, rfl⟩
  split
  · exact .inl ⟨rfl, rfl⟩
  split
  · rename_i lease s' h
    exact .inr ⟨some lease, QueueCall.handled_eq_success.mp h, rfl⟩
  · rename_i s' h
    exact .inr ⟨none, QueueCall.handled_eq_success.mp h, rfl⟩
  · exact .inl ⟨rfl, rfl⟩
  · exact .inl ⟨rfl, rfl⟩

omit [Hashing] [JsonColumn] in
theorem registerResultArtifact_eq_success {request : CompleteJob} {manifest : ArtifactManifest}
    (h : s.registerResultArtifact job request manifest now = .success s') :
    s' = s ∨ s.insertArtifact manifest.row = .success s' := by
  unfold registerResultArtifact at h
  obtain ⟨_, -, h⟩ := Attempt.bind_eq_success.mp h
  obtain ⟨_, -, h⟩ := Attempt.bind_eq_success.mp h
  split at h
  · exact .inr h
  · simp only [Attempt.bind_eq_success, Attempt.pure_eq, Attempt.success.injEq] at h
    obtain ⟨_, -, rfl⟩ := h
    exact .inl rfl

/-! ## Changes -/

def EndsJob (eventType : String) : Prop :=
  eventType = "job.completed" ∨ eventType = "job.dead_lettered"

instance (eventType : String) : Decidable (EndsJob eventType) := inferInstanceAs (Decidable (_ ∨ _))

/-- A transition of the job: it ends the job, or puts a leased snapshot job back. -/
structure Transition.Marks (t : Transition) (job : JobRow) : Prop where
  active : job.status.Active
  generation : t.generation = job.attemptGeneration
  same : t.marked = { job with
    status := t.marked.status
    notBefore := t.marked.notBefore
    attemptNonce := t.marked.attemptNonce
    leaseOwner := t.marked.leaseOwner
    leaseUntil := t.marked.leaseUntil
    resultArtifactHash := t.marked.resultArtifactHash
    updatedAt := t.marked.updatedAt }
  released : t.marked.status ≠ .leased
  putBack : t.marked.status = .queued →
    job.status = .leased ∧ job.jobType = "create_snapshot" ∧ t.marked.resultArtifactHash = none
  kept : t.marked.status = .succeeded → job.status = .leased ∧ t.marked.lease = job.lease
  ends : EndsJob t.eventType → ¬ t.marked.status.Active
  /-- An explicit failure is recorded for the holder of the lease. -/
  failed : (∃ run request, t.payload = failurePayload job run request ∧
      LeaseHeld job request.workerId request.attemptGeneration request.attemptNonce) ∨
    ∀ row run request, t.payload ≠ failurePayload row run request
  plain : t.payload.Plain

namespace Transition.Marks

variable (h : t.Marks job)
include h

omit [JsonColumn] in
theorem jobId : t.marked.jobId = job.jobId := by rw [h.same]

omit [JsonColumn] in
theorem runId : t.marked.runId = job.runId := by rw [h.same]

omit [JsonColumn] in
theorem jobType : t.marked.jobType = job.jobType := by rw [h.same]

omit [JsonColumn] in
theorem attempts : t.marked.attempts = job.attempts := by rw [h.same]

omit [JsonColumn] in
theorem attemptGeneration : t.marked.attemptGeneration = job.attemptGeneration := by rw [h.same]

end Transition.Marks

/-- The changes that the operations are made of, but for the lease of a claim. -/
inductive Quiet (s : Queue) : Queue → Prop where
  | run {s' : Queue} (request : CreateWorkflowRun) (h : s.insertRun request.row = .success s') :
      Quiet s s'
  | job {s' : Queue} (request : EnqueueJob) (h : s.insertJob request.row = .success s') :
      Quiet s s'
  | artifact {s' : Queue} (row : ArtifactManifestRow) (h : s.insertArtifact row = .success s') :
      Quiet s s'
  | transition {job : JobRow} {run : WorkflowRunRow} {t : Transition} (now : UTCDateTime)
      (hjob : job ∈ s.jobs) (hrun : run ∈ s.runs) (howner : run.runId = job.runId)
      (hmarks : t.Marks job) (hcan : s.CanCommit run t) : Quiet s (s.committed run t now)

inductive Change (s : Queue) : Queue → Prop where
  | quiet {s' : Queue} (h : Quiet s s') : Change s s'
  | lease {s' : Queue} {job : JobRow} {now : UTCDateTime} (request : ClaimJob)
      (hjob : job ∈ s.jobs) (hclaimable : Claimable now job)
      (h : s.updateJob (job.leased request now) none = .success s') : Change s s'

abbrev Quiets : Queue → Queue → Prop := Relation.ReflTransGen Quiet

abbrev Changes : Queue → Queue → Prop := Relation.ReflTransGen Change

theorem Quiets.changes (h : Quiets s s') : Changes s s' :=
  Relation.ReflTransGen.mono (fun _ _ hquiet => Change.quiet hquiet) _ _ h

abbrev Files : Queue → Queue → Prop :=
  Relation.ReflTransGen fun s s' => ∃ row, s.insertArtifact row = .success s'

theorem Files.quiets (h : Files s s') : Quiets s s' :=
  Relation.ReflTransGen.mono (fun _ _ ⟨row, hinsert⟩ => Quiet.artifact row hinsert) _ _ h

omit [Hashing] [JsonColumn] in
theorem Files.others (h : Files s s') :
    s'.runs = s.runs ∧ s'.events = s.events ∧ s'.jobs = s.jobs ∧ s'.outbox = s.outbox := by
  induction h with
  | refl => exact ⟨rfl, rfl, rfl, rfl⟩
  | tail _ hinsert ih =>
      obtain ⟨row, hinsert⟩ := hinsert
      obtain ⟨-, rfl⟩ := insertArtifact_eq_success.mp hinsert
      exact ih

omit [Hashing] [JsonColumn] in
theorem Files.artifact (h : Files s s') {contentHash : Sha256} {row : ArtifactManifestRow}
    (hrow : s.artifact contentHash = some row) : s'.artifact contentHash = some row := by
  induction h with
  | refl => exact hrow
  | tail _ hinsert ih =>
      obtain ⟨added, hinsert⟩ := hinsert
      obtain ⟨-, rfl⟩ := insertArtifact_eq_success.mp hinsert
      exact Table.get_concat_of_some ih

/-- What a result of a job leaves: artifacts are registered and one transition of the job is
committed, or the result is repeated. -/
inductive Settles (s : Queue) (jobId : UUID) : Queue → Prop where
  | repeated : Settles s jobId s
  | transition {registered : Queue} {job : JobRow} {run : WorkflowRunRow} {t : Transition}
      (now : UTCDateTime) (hfiles : Files s registered) (hjob : job ∈ registered.jobs)
      (hid : job.jobId = jobId) (hrun : run ∈ registered.runs) (howner : run.runId = job.runId)
      (hmarks : t.Marks job) (hcan : registered.CanCommit run t) :
      Settles s jobId (registered.committed run t now)

theorem Settles.quiets {jobId : UUID} (h : Settles s jobId s') : Quiets s s' := by
  cases h with
  | repeated => exact .refl
  | transition now hfiles hjob hid hrun howner hmarks hcan =>
      exact hfiles.quiets.tail (.transition now hjob hrun howner hmarks hcan)

omit [JsonColumn] in
theorem deadLettered_marks (hunclaimable : Unclaimable now job) (reason : String) :
    (deadLettered job reason now).Marks job where
  active := hunclaimable.1
  generation := rfl
  same := rfl
  released := by simp [deadLettered]
  putBack := by simp [deadLettered]
  kept := by simp [deadLettered]
  ends := by simp [deadLettered, JobStatus.Active]
  failed := .inr fun row run request => by
    simp [deadLettered, deadLetterPayload, failurePayload, Payload.record_inj]
  plain := by simp [deadLettered, deadLetterPayload]

omit [JsonColumn] in
theorem completed_marks (run : WorkflowRunRow) (artifact : ArtifactManifestRow)
    (now : UTCDateTime) {request : CompleteJob}
    (hheld : LeaseHeld job request.workerId request.attemptGeneration request.attemptNonce) :
    (completed job run artifact request now).Marks job where
  active := .inr hheld.2.1
  generation := hheld.2.2.2.1.symm
  same := rfl
  released := by simp [completed]
  putBack := by simp [completed]
  kept := fun _ => ⟨hheld.2.1, rfl⟩
  ends := by simp [completed, JobStatus.Active]
  failed := .inr fun row run request => by
    simp [completed, completionPayload, failurePayload, Payload.record_inj]
  plain := by simp [completed, completionPayload]

omit [JsonColumn] in
theorem explicitlyFailed_marks (run : WorkflowRunRow) (now : UTCDateTime) {request : FailJob}
    (hheld : LeaseHeld job request.workerId request.attemptGeneration request.attemptNonce) :
    (explicitlyFailed job run request now).Marks job where
  active := .inr hheld.2.1
  generation := hheld.2.2.2.1.symm
  same := rfl
  released := by simp [explicitlyFailed]
  putBack := by simp [explicitlyFailed]
  kept := by simp [explicitlyFailed]
  ends := by simp [explicitlyFailed, JobStatus.Active]
  failed := .inl ⟨run, request, rfl, hheld⟩
  plain := by simp [explicitlyFailed, failurePayload]

omit [JsonColumn] in
theorem attemptFailed_marks {request : FailSnapshotJob} (h : FailureFenced job request now) :
    (attemptFailed job request now).Marks job where
  active := .inr h.1
  generation := h.2.2.2.2.2.2.1.symm
  same := rfl
  released := by
    simp only [attemptFailed, statusAfterFailure]
    split <;> simp
  putBack := fun _ => ⟨h.1, h.2.1, h.2.2.2.2.2.2.2.2.2.2.2.2⟩
  kept := by
    simp only [attemptFailed, statusAfterFailure]
    split <;> simp
  ends := by
    simp only [attemptFailed, EndsJob]
    split <;> simp
  failed := .inr fun row run request => by
    simp [attemptFailed, snapshotFailurePayload, failurePayload, Payload.record_inj]
  plain := by
    simp only [attemptFailed, snapshotFailurePayload, FailSnapshotJob.traceFields]
    cases htrace : request.reconciliationTrace with
    | none => simp
    | some trace => simp [trace.plain]

omit [JsonColumn] in
theorem snapshotCompleted_marks {request : CompleteSnapshotJob}
    (h : CompletionFenced job request now) :
    (snapshotCompleted job request now).Marks job where
  active := .inr h.1
  generation := h.2.2.2.1.symm
  same := rfl
  released := by simp [snapshotCompleted]
  putBack := by simp [snapshotCompleted]
  kept := fun _ => ⟨h.1, rfl⟩
  ends := by simp [snapshotCompleted, EndsJob]
  failed := .inr fun row run request => by
    simp [snapshotCompleted, snapshotCompletionPayload, failurePayload, Payload.record_inj]
  plain := by simp [snapshotCompleted, snapshotCompletionPayload]

omit [Hashing] [JsonColumn] in
theorem job_of_eq_some {jobId : UUID} (h : s.job jobId = some job) :
    job ∈ s.jobs ∧ job.jobId = jobId := ⟨Table.mem_of_get h, Table.key_of_get h⟩

omit [Hashing] [JsonColumn] in
theorem run_of_eq_some {runId : UUID} (h : s.run runId = some run) :
    run ∈ s.runs ∧ run.runId = runId := ⟨Table.mem_of_get h, Table.key_of_get h⟩

theorem quiet_of_deadLetterJob (hjob : job ∈ s.jobs) (hunclaimable : Unclaimable now job)
    (h : s.deadLetterJob now job = .success s') : Quiet s s' := by
  obtain ⟨-, -, run, hrun, -, reason, -, hcan, rfl⟩ := deadLetterJob_eq_success.mp h
  obtain ⟨hmem, howner⟩ := run_of_eq_some hrun
  exact .transition now hjob hmem howner (deadLettered_marks hunclaimable reason) hcan

/-! ## The loop of dead letters -/

theorem mem_jobs_committed (hjob : job ∈ s.jobs) (hother : job.jobId ≠ t.marked.jobId) :
    job ∈ (s.committed run t now).jobs :=
  Table.mem_update.mpr ⟨job, hjob, (if_neg hother).symm⟩

theorem marked_mem_committed (hjob : job ∈ s.jobs) (hmarked : t.marked.jobId = job.jobId) :
    updatedJob t.marked t.lastError ∈ (s.committed run t now).jobs :=
  Table.mem_update.mpr ⟨job, hjob, (if_pos hmarked.symm).symm⟩

/-- A relation that every dead letter respects is respected by the loop. -/
theorem related_of_deadLetterJobs {R : Queue → Queue → Prop}
    (hR : ∀ s s' job, job ∈ s.jobs → Unclaimable now job → s.deadLetterJob now job = .success s' →
      R s s')
    {jobs : List JobRow} (hnodup : (jobs.map (·.jobId)).Nodup)
    (hjobs : ∀ job ∈ jobs, job ∈ s.jobs ∧ Unclaimable now job)
    (h : jobs.foldlM (fun s job => s.deadLetterJob now job) s = .success s') :
    Relation.ReflTransGen R s s' := by
  induction jobs generalizing s with
  | nil =>
      obtain rfl : s = s' := by simpa using h
      exact .refl
  | cons job jobs ih =>
      rw [List.foldlM_cons] at h
      obtain ⟨next, hnext, hrest⟩ := Attempt.bind_eq_success.mp h
      obtain ⟨hother, hnodup⟩ := List.nodup_cons.mp hnodup
      obtain ⟨hjob, hunclaimable⟩ := hjobs job (List.mem_cons_self ..)
      refine .head (hR s next job hjob hunclaimable hnext)
        (ih hnodup (fun other hmem => ?_) hrest)
      obtain ⟨hstored, hover⟩ := hjobs other (List.mem_cons_of_mem _ hmem)
      obtain ⟨-, -, run, -, -, reason, -, -, rfl⟩ := deadLetterJob_eq_success.mp hnext
      refine ⟨mem_jobs_committed hstored fun heq => hother ?_, hover⟩
      rw [List.mem_map]
      exact ⟨other, hmem, heq⟩

omit [Hashing] [JsonColumn] in
theorem mem_unclaimable {locked : List UUID} (h : job ∈ s.unclaimable locked now) :
    job ∈ s.jobs ∧ Unclaimable now job ∧ job.jobId ∉ locked := by
  have hsorted := mem_sorted.mp (List.mem_of_mem_take h)
  rw [List.mem_filter] at hsorted
  exact ⟨hsorted.1, of_decide_eq_true hsorted.2⟩

omit [Hashing] [JsonColumn] in
theorem nodup_unclaimable (hunique : Table.Unique (·.jobId) s.jobs) (locked : List UUID)
    (now : UTCDateTime) : ((s.unclaimable locked now).map (·.jobId)).Nodup := by
  have hfiltered := hunique.filter fun job => decide (Unclaimable now job ∧ job.jobId ∉ locked)
  have hsorted := (sorted_perm (fun job : JobRow => toLex (job.runId, job.jobId))
    (s.jobs.filter fun job => Unclaimable now job ∧ job.jobId ∉ locked)).map (·.jobId)
  exact (hsorted.nodup_iff.mpr hfiltered).sublist ((List.take_sublist _ _).map _)

theorem related_of_deadLetterUnclaimable {R : Queue → Queue → Prop}
    (hR : ∀ s s' job, job ∈ s.jobs → Unclaimable now job → s.deadLetterJob now job = .success s' →
      R s s')
    (hunique : Table.Unique (·.jobId) s.jobs) {locked : List UUID}
    (h : s.deadLetterUnclaimable locked now = .success s') : Relation.ReflTransGen R s s' :=
  related_of_deadLetterJobs hR (nodup_unclaimable hunique locked now)
    (fun _ hjob => ⟨(mem_unclaimable hjob).1, (mem_unclaimable hjob).2.1⟩) h

omit [Hashing] [JsonColumn] in
theorem mem_of_nextClaimableJob {locked : List UUID}
    (h : s.nextClaimableJob locked now = some job) :
    job ∈ s.jobs ∧ Claimable now job ∧ job.jobId ∉ locked := by
  have hsorted := mem_sorted.mp (List.mem_of_mem_head? h)
  rw [List.mem_filter] at hsorted
  exact ⟨hsorted.1, of_decide_eq_true hsorted.2⟩

/-- A lease that a claim grants: the row of a claimable job before it, and the queue after it. -/
structure Grants (s : Queue) (request : ClaimJob) (now : UTCDateTime) (lease : JobLease)
    (s' : Queue) (job : JobRow) : Prop where
  stored : job ∈ s.jobs
  claimable : Claimable now job
  updated : s.updateJob (job.leased request now) none = .success s'
  granted : (job.leased request now).lease = .success lease

theorem Grants.change {request : ClaimJob} {lease : JobLease}
    (h : s.Grants request now lease s' job) : Change s s' :=
  .lease request h.stored h.claimable h.updated

/-- A claim retires jobs, and then it may grant a lease. -/
theorem quiets_of_claimTransaction (hunique : Table.Unique (·.jobId) s.jobs) {request : ClaimJob}
    {locked : List UUID} {lease : Option JobLease}
    (h : s.claimTransaction request locked now = .success (lease, s')) :
    ∃ retired, s.deadLetterUnclaimable locked now = .success retired ∧ Quiets s retired ∧
      ((lease = none ∧ s' = retired) ∨
        ∃ granted job, retired.Grants request now granted s' job ∧ lease = some granted) := by
  obtain ⟨retired, hretired, hlease⟩ := claimTransaction_eq_success.mp h
  have hquiets := related_of_deadLetterUnclaimable
    (fun _ _ _ => quiet_of_deadLetterJob) hunique hretired
  refine ⟨retired, hretired, hquiets, ?_⟩
  rcases hlease with ⟨-, hnone, hsame⟩ | ⟨job, hnext, hupdate, granted, hgranted, hsome⟩
  · exact .inl ⟨hnone, hsame⟩
  · obtain ⟨hjob, hclaimable, -⟩ := mem_of_nextClaimableJob hnext
    exact .inr ⟨granted, job, ⟨hjob, hclaimable, hupdate, hgranted⟩, hsome⟩

/-! ## Results -/

omit [Hashing] [JsonColumn] in
theorem jobs_of_insertArtifact {row : ArtifactManifestRow}
    (h : s.insertArtifact row = .success s') : s'.jobs = s.jobs ∧ s'.runs = s.runs := by
  obtain ⟨-, rfl⟩ := insertArtifact_eq_success.mp h
  exact ⟨rfl, rfl⟩

/-- A completion of a leased job registers the artifact, if it is new, and records one
transition. -/
theorem completeActiveJob_eq_success {request : CompleteJob} {manifest : Option ArtifactManifest}
    {receipt : JobCompletionReceipt}
    (h : s.completeActiveJob job request manifest now = .success (receipt, s')) :
    LeaseHeld job request.workerId request.attemptGeneration request.attemptNonce ∧
      LeaseRuns job now ∧ ∃ registered run artifact,
        (registered = s ∨ ∃ row, s.insertArtifact row = .success registered) ∧
        registered.run job.runId = some run ∧
        registered.artifact request.resultArtifactHash = some artifact ∧
        registered.CanCommit run (completed job run artifact request now) ∧
        registered.committed run (completed job run artifact request now) now = s' ∧
        receipt = {
          jobId := job.jobId
          runId := run.runId
          eventId := auditEventId job.jobId request.attemptGeneration
          outboxId := auditOutboxId job.jobId request.attemptGeneration
          sequence := run.version + 1
          resultArtifactHash := request.resultArtifactHash
          completedAt := now } := by
  unfold completeActiveJob at h
  simp only [Attempt.bind_eq_success, QueueCall.accepted_eq_success,
    QueueCall.orRefused_eq_success, commitJobResult, commitTransition_eq_success,
    Attempt.pure_eq, Attempt.success.injEq, Prod.mk.injEq] at h
  obtain ⟨_, hheld, _, -, run, hrun, _, hruns, registered, hregistered, artifact, hartifact, _, -,
    _, ⟨hcan, rfl⟩, hreceipt, rfl⟩ := h
  have hregister : registered = s ∨ ∃ row, s.insertArtifact row = .success registered := by
    cases manifest with
    | none => exact .inl (by simpa [eq_comm] using hregistered)
    | some manifest =>
        rcases registerResultArtifact_eq_success hregistered with heq | hinsert
        · exact .inl heq
        · exact .inr ⟨_, hinsert⟩
  have hsame : registered.run job.runId = s.run job.runId := by
    rcases hregister with rfl | ⟨row, hinsert⟩
    · rfl
    · unfold Queue.run
      rw [(jobs_of_insertArtifact hinsert).2]
  exact ⟨hheld, hruns, registered, run, artifact, hregister, hsame.trans hrun, hartifact, hcan, rfl,
    hreceipt.symm⟩

theorem settles_of_completeActiveJob {request : CompleteJob} {manifest : Option ArtifactManifest}
    {receipt : JobCompletionReceipt} (hjob : job ∈ s.jobs)
    (h : s.completeActiveJob job request manifest now = .success (receipt, s')) :
    Settles s job.jobId s' := by
  obtain ⟨hheld, -, registered, run, artifact, hregister, hrun, -, hcan, rfl, -⟩ :=
    completeActiveJob_eq_success h
  obtain ⟨hmem, howner⟩ := run_of_eq_some hrun
  have hfiles : Files s registered := by
    rcases hregister with rfl | hinsert
    · exact .refl
    · exact .single hinsert
  rw [← hfiles.others.2.2.1] at hjob
  exact .transition now hfiles hjob rfl hmem howner (completed_marks run artifact now hheld) hcan

/-- A completion that succeeds repeats the recorded result, or it completes a leased job. -/
theorem complete_eq_success {request : CompleteJob} {manifest : Option ArtifactManifest}
    {receipt : JobCompletionReceipt} :
    s.complete request manifest now = .success (receipt, s') ↔ ∃ job,
      s.job request.jobId = some job ∧ job.jobType ≠ "create_snapshot" ∧
      ((job.status = .succeeded ∧ s.completedJobReceipt job request = .success receipt ∧ s' = s) ∨
        (job.status ≠ .succeeded ∧
          s.completeActiveJob job request manifest now = .success (receipt, s'))) := by
  unfold complete
  simp only [QueueCall.handled_eq_success, Attempt.bind_eq_success,
    QueueCall.orRefused_eq_success, QueueCall.accepted_eq_success, exists_const]
  refine exists_congr fun job => and_congr_right fun _ => and_congr_right fun _ => ?_
  by_cases hsucceeded : job.status = .succeeded
  · simp [hsucceeded, Attempt.bind_eq_success, eq_comm (a := s)]
  · simp [hsucceeded]

theorem fail_eq_success {request : FailJob} {receipt : JobFailureReceipt} :
    s.fail request now = .success (receipt, s') ↔ ∃ job,
      s.job request.jobId = some job ∧ job.jobType ≠ "create_snapshot" ∧
      ((job.status = .deadLetter ∧ s.failedJobReceipt job request = .success receipt ∧ s' = s) ∨
        (job.status ≠ .deadLetter ∧
          s.failActiveJob job request now = .success (receipt, s'))) := by
  unfold fail
  simp only [QueueCall.handled_eq_success, Attempt.bind_eq_success,
    QueueCall.orRefused_eq_success, QueueCall.accepted_eq_success, exists_const]
  refine exists_congr fun job => and_congr_right fun _ => and_congr_right fun _ => ?_
  by_cases hdead : job.status = .deadLetter
  · simp [hdead, Attempt.bind_eq_success, eq_comm (a := s)]
  · simp [hdead]

/-- A failure that is reported for a leased job is recorded as one transition. -/
theorem failActiveJob_eq_success {request : FailJob} {receipt : JobFailureReceipt}
    (h : s.failActiveJob job request now = .success (receipt, s')) :
    LeaseHeld job request.workerId request.attemptGeneration request.attemptNonce ∧
      LeaseRuns job now ∧ stablePayloadHash job.payload = job.payloadHash ∧
      ∃ run, s.run job.runId = some run ∧ s.CanCommit run (explicitlyFailed job run request now) ∧
        s.committed run (explicitlyFailed job run request now) now = s' ∧
        receipt = {
          jobId := job.jobId
          runId := run.runId
          eventId := auditEventId job.jobId request.attemptGeneration
          outboxId := auditOutboxId job.jobId request.attemptGeneration
          sequence := run.version + 1
          errorCode := request.errorCode
          reasonCode := request.reasonCode
          failedAt := now } := by
  simp only [failActiveJob, Attempt.bind_eq_success, QueueCall.accepted_eq_success,
    QueueCall.orRefused_eq_success, commitJobFailure, commitTransition_eq_success,
    Attempt.pure_eq, Attempt.success.injEq, Prod.mk.injEq] at h
  obtain ⟨_, ⟨hheld, -, hcanonical⟩, run, hrun, _, hruns, _, -, _, -, _, -, _, ⟨hcan, rfl⟩,
    hreceipt, rfl⟩ := h
  exact ⟨hheld, hruns, hcanonical, run, hrun, hcan, rfl, hreceipt.symm⟩

theorem settles_of_complete {request : CompleteJob} {manifest : Option ArtifactManifest}
    {receipt : JobCompletionReceipt}
    (h : s.complete request manifest now = .success (receipt, s')) :
    Settles s request.jobId s' := by
  obtain ⟨job, hjob, -, ⟨-, -, rfl⟩ | ⟨-, hactive⟩⟩ := complete_eq_success.mp h
  · exact .repeated
  · obtain ⟨hmem, hid⟩ := job_of_eq_some hjob
    exact hid ▸ settles_of_completeActiveJob hmem hactive

theorem settles_of_fail {request : FailJob} {receipt : JobFailureReceipt}
    (h : s.fail request now = .success (receipt, s')) : Settles s request.jobId s' := by
  obtain ⟨job, hjob, -, ⟨-, -, rfl⟩ | ⟨-, hactive⟩⟩ := fail_eq_success.mp h
  · exact .repeated
  · obtain ⟨hheld, -, -, run, hrun, hcan, rfl, -⟩ := failActiveJob_eq_success hactive
    obtain ⟨hmem, howner⟩ := run_of_eq_some hrun
    obtain ⟨hstored, hid⟩ := job_of_eq_some hjob
    exact .transition now .refl hstored hid hmem howner (explicitlyFailed_marks run now hheld) hcan

/-! ## Repeated results -/

omit [JsonColumn] in
/-- A completion is repeated from the rows that record it. -/
theorem completedJobReceipt_eq_success {request : CompleteJob} {receipt : JobCompletionReceipt} :
    s.completedJobReceipt job request = .success receipt ↔ ∃ run event outbox artifact,
      s.run job.runId = some run ∧
      s.event (auditEventId job.jobId request.attemptGeneration) = some event ∧
      s.outboxRow (auditOutboxId job.jobId request.attemptGeneration) = some outbox ∧
      s.artifact request.resultArtifactHash = some artifact ∧
      CompletedJobIsValid job event request ∧
      s.CompletedGraphIsValid job run event outbox (completionPayload job run artifact request)
        request ∧
      receipt = {
        jobId := job.jobId
        runId := job.runId
        eventId := event.eventId
        outboxId := outbox.outboxId
        sequence := event.sequence
        resultArtifactHash := request.resultArtifactHash
        completedAt := event.occurredAt } := by
  unfold completedJobReceipt
  split
  · rename_i run event outbox artifact hrun hevent houtbox hartifact
    simp only [Attempt.bind_eq_success, QueueCall.accepted_eq_success, Attempt.pure_eq,
      Attempt.success.injEq, hrun, hevent, houtbox, hartifact, Option.some.injEq, exists_const,
      exists_and_left, exists_eq_left', eq_comm (b := receipt)]
  · rename_i hmissing
    simp only [QueueCall.refused, reduceCtorEq, false_iff, not_exists, not_and]
    intro run event outbox artifact hrun hevent houtbox hartifact
    exact absurd hartifact (hmissing run event outbox artifact hrun hevent houtbox)

omit [JsonColumn] in
theorem failedJobReceipt_eq_success {request : FailJob} {receipt : JobFailureReceipt} :
    s.failedJobReceipt job request = .success receipt ↔ ∃ run event outbox,
      s.run job.runId = some run ∧
      s.event (auditEventId job.jobId request.attemptGeneration) = some event ∧
      s.outboxRow (auditOutboxId job.jobId request.attemptGeneration) = some outbox ∧
      FailedJobIsValid job event request ∧
      s.FailedGraphIsValid job run event outbox (failurePayload job run request) request ∧
      receipt = {
        jobId := job.jobId
        runId := job.runId
        eventId := event.eventId
        outboxId := outbox.outboxId
        sequence := event.sequence
        errorCode := request.errorCode
        reasonCode := request.reasonCode
        failedAt := event.occurredAt } := by
  unfold failedJobReceipt
  split
  · rename_i run event outbox hrun hevent houtbox
    simp only [Attempt.bind_eq_success, QueueCall.accepted_eq_success, Attempt.pure_eq,
      Attempt.success.injEq, hrun, hevent, houtbox, Option.some.injEq, exists_const,
      exists_and_left, exists_eq_left', eq_comm (b := receipt)]
  · rename_i hmissing
    simp only [QueueCall.refused, reduceCtorEq, false_iff, not_exists, not_and]
    intro run event outbox hrun hevent houtbox
    exact absurd houtbox (hmissing run event outbox hrun hevent)

theorem settles_of_recordSnapshotFailure {request : FailSnapshotJob} {context : SnapshotContext}
    {receipt : SnapshotAttemptFailureReceipt}
    (h : s.recordSnapshotFailure request context now = .success (receipt, s')) :
    Settles s request.jobId s' := by
  unfold recordSnapshotFailure at h
  simp only [QueueCall.handled_eq_success, Attempt.bind_eq_success,
    QueueCall.accepted_eq_success, QueueCall.orRefused_eq_success, commitTransition_eq_success,
    Attempt.pure_eq, Attempt.success.injEq, Prod.mk.injEq] at h
  obtain ⟨job, hjob, _, hfenced, run, hrun, _, -, _, -, _, ⟨hcan, rfl⟩, -, rfl⟩ := h
  obtain ⟨hmem, howner⟩ := run_of_eq_some hrun
  obtain ⟨hstored, hid⟩ := job_of_eq_some hjob
  exact .transition now .refl hstored hid hmem howner (attemptFailed_marks hfenced) hcan

omit [Hashing] [JsonColumn] in
theorem files_of_addArtifacts {artifacts : List ArtifactManifest}
    (h : s.addArtifacts artifacts = .success s') : Files s s' := by
  unfold addArtifacts at h
  obtain ⟨rows, -, h⟩ := Attempt.bind_eq_success.mp h
  exact Attempt.foldlM_invariant (I := fun u => Files s u)
    (fun row _ u v huv hu => hu.tail ⟨row, huv⟩) h .refl

theorem settles_of_completeSnapshot {request : CompleteSnapshotJob} {content : SnapshotContent}
    {receipt : SnapshotCompletionReceipt}
    (h : s.completeSnapshot request content now = .success (receipt, s')) :
    Settles s request.jobId s' := by
  unfold completeSnapshot at h
  rw [QueueCall.handled_eq_success] at h
  simp only [Attempt.bind_eq_success, QueueCall.orRefused_eq_success] at h
  obtain ⟨job, hjob, h⟩ := h
  split at h
  · obtain ⟨_, -, h⟩ := Attempt.bind_eq_success.mp h
    obtain rfl : s = s' := by simpa using (Prod.mk.inj (Attempt.success.inj h)).2
    exact .repeated
  · simp only [completeActiveSnapshot, Attempt.bind_eq_success, QueueCall.accepted_eq_success,
      QueueCall.orRefused_eq_success, commitTransition_eq_success, Attempt.pure_eq,
      Attempt.success.injEq, Prod.mk.injEq] at h
    obtain ⟨_, hfenced, _, -, run, hrun, _, -, _, -, _, -, added, hadded, _, ⟨hcan, rfl⟩, -,
      rfl⟩ := h
    obtain ⟨hmem, howner⟩ := run_of_eq_some hrun
    obtain ⟨hstored, hid⟩ := job_of_eq_some hjob
    have hfiles := files_of_addArtifacts hadded
    obtain ⟨hruns, -, hjobs, -⟩ := hfiles.others
    rw [← hjobs] at hstored
    rw [← hruns] at hmem
    exact .transition now hfiles hstored hid hmem howner (snapshotCompleted_marks hfenced) hcan

omit [Hashing] [JsonColumn] in
theorem kept_of_success {α : Type} {P : Queue → Prop} {call : QueueCall (α × Queue)}
    (hs : P s) (h : ∀ a s', call = .success (a, s') → P s') : P (s.kept call) := by
  cases call with
  | success result => exact h result.1 result.2 rfl
  | failure error => exact hs
  | raised error => exact hs

/-- The lease that an operation grants. -/
def granted (s : Queue) (op : TimedQueueOperation) : Option JobLease :=
  match op.1 with
  | .claim request locked => (s.claim request locked op.2).1.toOption
  | _ => none

/-- A claim retires jobs and may grant a lease; another operation grants none. -/
theorem quiets_step (hunique : Table.Unique (·.jobId) s.jobs) (op : TimedQueueOperation) :
    (Quiets s (s.step op) ∧ s.granted op = none) ∨
      ∃ retired request lease job, Quiets s retired ∧
        retired.Grants request op.2 lease (s.step op) job ∧ s.granted op = some lease := by
  obtain ⟨op, now⟩ := op
  cases op with
  | create request =>
      refine .inl ⟨kept_of_success .refl fun record s' h => ?_, rfl⟩
      rcases create_eq_success h with rfl | hinsert
      · exact .refl
      · exact .single (.run request hinsert)
  | enqueue request =>
      refine .inl ⟨kept_of_success .refl fun record s' h => ?_, rfl⟩
      rcases enqueue_eq_success h with rfl | hinsert
      · exact .refl
      · exact .single (.job request hinsert)
  | claim request locked =>
      show (Quiets s (s.claim request locked now).2 ∧
          (s.claim request locked now).1.toOption = none) ∨
        ∃ retired request' lease job, Quiets s retired ∧
          retired.Grants request' now lease (s.claim request locked now).2 job ∧
          (s.claim request locked now).1.toOption = some lease
      rcases claim_cases s request locked now with ⟨hsame, hnone⟩ | ⟨lease, h, hanswer⟩
      · rw [hsame]
        exact .inl ⟨.refl, hnone⟩
      · rw [hanswer]
        obtain ⟨retired, -, hquiets, ⟨rfl, hsame⟩ | ⟨granted, job, hgrants, rfl⟩⟩ :=
          quiets_of_claimTransaction hunique h
        · exact .inl ⟨hsame ▸ hquiets, rfl⟩
        · exact .inr ⟨retired, request, granted, job, hquiets, hgrants, rfl⟩
  | complete request artifact =>
      exact .inl ⟨kept_of_success .refl fun _ _ h => (settles_of_complete h).quiets, rfl⟩
  | fail request => exact .inl ⟨kept_of_success .refl fun _ _ h => (settles_of_fail h).quiets, rfl⟩
  | recordSnapshotFailure request context =>
      exact .inl ⟨kept_of_success .refl fun _ _ h =>
        (settles_of_recordSnapshotFailure h).quiets, rfl⟩
  | completeSnapshot request content =>
      exact .inl ⟨kept_of_success .refl fun _ _ h => (settles_of_completeSnapshot h).quiets, rfl⟩

theorem changes_step (hunique : Table.Unique (·.jobId) s.jobs) (op : TimedQueueOperation) :
    Changes s (s.step op) := by
  rcases quiets_step hunique op with ⟨h, -⟩ | ⟨retired, request, lease, job, h, hgrants, -⟩
  · exact h.changes
  · exact h.changes.tail hgrants.change

end Queue

end

end StonksPaper
