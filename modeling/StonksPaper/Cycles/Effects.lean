import StonksPaper.Cycles.Store

/-!
# What the store of paper cycles changes

A call of the store that writes appends one entry to the run of the cycle and leaves one row of its
job; a completion registers its artifact before. Together with the changes of the queue and the
transitions of the workflow store, these are all changes of the tables.
-/

namespace StonksPaper

section

variable [Hashing] {s s' : Queue} {run : WorkflowRunRow} {job : JobRow} {now : UTCDateTime}
  {command : RunPaperCycle} {state current : PaperCycleState}

/-! ## Results -/

omit [Hashing] in
theorem PaperCycleRunResult.validated_eq_success {result returned : PaperCycleRunResult} :
    result.validated = .success returned ↔
      ((∀ code ∈ result.errorCode, code ≠ "") ∧ result.runId = result.state.runId ∧
        (result.status = .succeeded ↔ result.resultArtifactHash ≠ none) ∧
        (result.status = .succeeded → result.state.Complete ∧ result.errorCode = none) ∧
        (result.status ≠ .succeeded → result.errorCode ≠ none)) ∧ result = returned := by
  simp only [validated, Attempt.bind_eq_success, QueueCall.valid_eq_success, Attempt.pure_eq,
    Attempt.success.injEq, exists_const, and_assoc]

namespace Queue

/-! ## Authority -/

/-- The rows of a command that holds the active lease. -/
structure Holds (s : Queue) (command : RunPaperCycle) (now : UTCDateTime) (job : JobRow)
    (run : WorkflowRunRow) : Prop where
  job_stored : s.job command.lease.jobId = some job
  run_stored : s.run command.lease.runId = some run
  active : ActiveAuthority job run command now

omit [Hashing] in
theorem lockedRows_eq_success {rows : JobRow × WorkflowRunRow} :
    s.lockedRows command = .success rows ↔
      s.job command.lease.jobId = some rows.1 ∧ s.run command.lease.runId = some rows.2 := by
  simp only [lockedRows, Attempt.bind_eq_success, QueueCall.orRefused_eq_success, Attempt.pure_eq,
    Attempt.success.injEq]
  constructor
  · rintro ⟨job, hjob, run, hrun, rfl⟩
    exact ⟨hjob, hrun⟩
  · rintro ⟨hjob, hrun⟩
    exact ⟨rows.1, hjob, rows.2, hrun, rfl⟩

theorem activeAuthority_eq_success {rows : JobRow × WorkflowRunRow} :
    s.activeAuthority command now = .success rows ↔ s.Holds command now rows.1 rows.2 := by
  simp only [activeAuthority, requireActive, Attempt.bind_eq_success, lockedRows_eq_success,
    QueueCall.accepted_eq_success, Attempt.pure_eq, Attempt.success.injEq, exists_const]
  constructor
  · rintro ⟨_, ⟨hjob, hrun⟩, hactive, rfl⟩
    exact ⟨hjob, hrun, hactive⟩
  · intro h
    exact ⟨rows, ⟨h.job_stored, h.run_stored⟩, h.active, rfl⟩

/-! ## Entries -/

variable [JsonColumn] {audit : CycleAudit}

/-- What the tables and the scan ask of an entry. -/
structure CanAppend (s : Queue) (run : WorkflowRunRow) (job : JobRow) (audit : CycleAudit) :
    Prop where
  payload_clean : secretFree audit.payload = true
  event_fresh : Table.Fresh (·.eventId) (cycleEventId job.jobId audit.label audit.number) s.events
  sequence_fresh : Table.Fresh (fun e : RunEventRow => (e.runId, e.sequence))
    (run.runId, run.version + 1) s.events
  hash_fresh : Table.Fresh (·.eventHash)
    (eventHash (cycleEventId job.jobId audit.label audit.number) (run.version + 1)
      (s.previousHash run.runId) audit.payload) s.events
  run_stored : s.run run.runId ≠ none
  outbox_fresh : Table.Fresh (·.outboxId) (cycleOutboxId job.jobId audit.label audit.number)
    s.outbox
  key_fresh : Table.Fresh (·.idempotencyKey) ⟨job.jobId, .paperCycle audit.label, audit.number⟩
    s.outbox
  outbox_sequence_fresh : Table.Fresh
    (fun o : OutboxRow => (o.aggregateType, o.aggregateId, o.sequence))
    ("run", run.runId, run.version + 1) s.outbox

def storedCycleEvent (s : Queue) (run : WorkflowRunRow) (job : JobRow) (audit : CycleAudit)
    (now : UTCDateTime) : RunEventRow :=
  { s.cycleEvent run job audit now with payload := stored audit.payload }

def storedCycleOutbox (run : WorkflowRunRow) (job : JobRow) (audit : CycleAudit)
    (now : UTCDateTime) : OutboxRow :=
  { cycleOutbox run job audit now with payload := stored audit.payload }

/-- The queue after an entry. -/
def posted (s : Queue) (run : WorkflowRunRow) (job : JobRow) (audit : CycleAudit)
    (now : UTCDateTime) : Queue where
  artifacts := s.artifacts
  runs := Table.update (·.runId = run.runId) (fun _ => cycleRun run audit now) s.runs
  events := s.events ++ [s.storedCycleEvent run job audit now]
  jobs := s.jobs
  outbox := s.outbox ++ [storedCycleOutbox run job audit now]

/-- The queue after an entry that leaves a row of the job. -/
def written (s : Queue) (run : WorkflowRunRow) (job : JobRow) (audit : CycleAudit) (row : JobRow)
    (now : UTCDateTime) : Queue :=
  { s.posted run job audit now with
    jobs := Table.update (·.jobId = row.jobId) (fun _ => row) s.jobs }

theorem appendAudit_eq_success :
    s.appendAudit run job audit now = .success s' ↔
      s.CanAppend run job audit ∧ s.posted run job audit now = s' := by
  simp only [appendAudit, insertRunEvent, insertOutbox, updateRun_eq_success,
    Attempt.bind_eq_success, scanned_eq_success, QueueCall.constraint_eq_success, Attempt.pure_eq,
    Attempt.success.injEq]
  constructor
  · rintro ⟨_, ⟨_, hpayload, _, ⟨hid, hsequence, hhash, hrun⟩, rfl⟩, _,
      ⟨_, _, _, ⟨houtbox, hkey, houtboxSequence⟩, rfl⟩, -, rfl⟩
    exact ⟨⟨hpayload, hid, hsequence, hhash, hrun, houtbox, hkey, houtboxSequence⟩, rfl⟩
  · rintro ⟨h, rfl⟩
    exact ⟨_, ⟨(), h.payload_clean, (), ⟨h.event_fresh, h.sequence_fresh, h.hash_fresh,
      h.run_stored⟩, rfl⟩, _, ⟨(), h.payload_clean, (), ⟨h.outbox_fresh, h.key_fresh,
      h.outbox_sequence_fresh⟩, rfl⟩, Nat.succ_pos _, rfl⟩

theorem posted_eq_written (hunique : Table.Unique (·.jobId) s.jobs) (hjob : job ∈ s.jobs) :
    s.posted run job audit now = s.written run job audit job now := by
  have hsame : Table.update (·.jobId = job.jobId) (fun _ => job) s.jobs = s.jobs :=
    Table.update_of_fixed fun r hr hid => hunique.eq hjob hr hid.symm
  unfold written
  rw [hsame]
  rfl

/-! ## Calls -/

/-- A checkpoint that succeeds extends the loaded state. -/
theorem checkpointCycle_eq_success {expectedStateHash : Sha256} {returned : PaperCycleState} :
    s.checkpointCycle command state expectedStateHash now = .success (returned, s') ↔
      ∃ job run current last, s.Holds command now job run ∧
        s.loadState job run command.cycleInputHash = .success current ∧
        NextState current state expectedStateHash ∧ state.outputs.getLast? = some last ∧
        s.CanAppend run job (checkpointAudit job command state last.stage) ∧ returned = state ∧
        s' = s.posted run job (checkpointAudit job command state last.stage) now := by
  simp only [checkpointCycle, requireNextState, QueueCall.handled_eq_success,
    Attempt.bind_eq_success, activeAuthority_eq_success, QueueCall.accepted_eq_success,
    QueueCall.orRaised_eq_success, appendAudit_eq_success, Attempt.pure_eq, Attempt.success.injEq,
    Prod.mk.injEq, exists_const]
  constructor
  · rintro ⟨rows, hholds, current, hload, hnext, last, hlast, _, ⟨hcan, rfl⟩, rfl, rfl⟩
    exact ⟨rows.1, rows.2, current, last, hholds, hload, hnext, hlast, hcan, rfl, rfl⟩
  · rintro ⟨job, run, current, last, hholds, hload, hnext, hlast, hcan, rfl, rfl⟩
    exact ⟨(job, run), hholds, current, hload, hnext, last, hlast, _, ⟨hcan, rfl⟩, rfl, rfl⟩

def failedRow (job : JobRow) (error : Failure) (retryAt : Option UTCDateTime)
    (now : UTCDateTime) : JobRow :=
  updatedJob (failedAttempt job retryAt now) (some (failedAttemptError job error))

/-- A failure that succeeds is recorded for the loaded state, and releases the lease. -/
theorem failCycle_eq_success {baseRetryDelay : ℤ} {error : Failure} {result : PaperCycleRunResult}
    (h : s.failCycle baseRetryDelay command error now = .success (result, s')) :
    ∃ job run state, s.Holds command now job run ∧
      s.loadState job run command.cycleInputHash = .success state ∧
      s.CanAppend run job
        (failureAudit job command state error (retryTime job error baseRetryDelay now)) ∧
      s.JobChecks (failedAttempt job (retryTime job error baseRetryDelay now) now) ∧
      s' = s.written run job
        (failureAudit job command state error (retryTime job error baseRetryDelay now))
        (failedRow job error (retryTime job error baseRetryDelay now) now) now := by
  simp only [failCycle, QueueCall.handled_eq_success, Attempt.bind_eq_success,
    activeAuthority_eq_success, appendAudit_eq_success, updateJob_eq_success, Attempt.pure_eq,
    Attempt.success.injEq, Prod.mk.injEq] at h
  obtain ⟨rows, hholds, state, hload, _, ⟨hcan, rfl⟩, _, ⟨-, hchecks, rfl⟩, _, -, -, rfl⟩ := h
  exact ⟨rows.1, rows.2, state, hholds, hload, hcan, hchecks, rfl⟩

omit [JsonColumn] in
/-- The artifact of a completion: it is registered now, or was registered with the same data. -/
theorem registerCycleArtifact_eq_success {manifest : ArtifactManifest} {row : ArtifactManifestRow} :
    s.registerCycleArtifact manifest state now = .success (row, s') ↔
      CycleArtifactValid manifest state now ∧ row = manifest.row ∧
        ((s.artifact manifest.contentHash = none ∧
            s' = { s with artifacts := s.artifacts ++ [manifest.row] }) ∨
          s.artifact manifest.contentHash = some manifest.row ∧ s' = s) := by
  simp only [registerCycleArtifact, Attempt.bind_eq_success, QueueCall.accepted_eq_success,
    exists_const]
  refine and_congr_right fun _ => ?_
  cases hstored : s.artifact manifest.contentHash with
  | none =>
      have hfresh : Table.Fresh (·.contentHash) manifest.row.contentHash s.artifacts :=
        Table.get_eq_none.mp hstored
      simp only [Attempt.bind_eq_success, insertArtifact_eq_success, Attempt.pure_eq,
        Attempt.success.injEq, Prod.mk.injEq, reduceCtorEq, false_and, or_false, true_and]
      constructor
      · rintro ⟨_, ⟨-, rfl⟩, rfl, rfl⟩
        exact ⟨rfl, rfl⟩
      · rintro ⟨rfl, rfl⟩
        exact ⟨_, ⟨hfresh, rfl⟩, rfl, rfl⟩
  | some existing =>
      simp only [Attempt.bind_eq_success, QueueCall.accepted_eq_success, Attempt.pure_eq,
        Attempt.success.injEq, Prod.mk.injEq, reduceCtorEq, false_and, false_or,
        Option.some.injEq, exists_const]
      constructor
      · rintro ⟨rfl, rfl, rfl⟩
        exact ⟨rfl, rfl, rfl⟩
      · rintro ⟨rfl, rfl, rfl⟩
        exact ⟨rfl, rfl, rfl⟩

/-- The queue after the artifact of a completion is registered. -/
structure Registers (s : Queue) (manifest : ArtifactManifest) (registered : Queue) : Prop where
  others : registered.runs = s.runs ∧ registered.events = s.events ∧ registered.jobs = s.jobs ∧
    registered.outbox = s.outbox
  grows : registered = s ∨ s.insertArtifact manifest.row = .success registered
  stored : registered.artifact manifest.contentHash = some manifest.row

omit [Hashing] [JsonColumn] in
theorem registers_of_cases {manifest : ArtifactManifest}
    (h : (s.artifact manifest.contentHash = none ∧
        s' = { s with artifacts := s.artifacts ++ [manifest.row] }) ∨
      s.artifact manifest.contentHash = some manifest.row ∧ s' = s) :
    s.Registers manifest s' := by
  rcases h with ⟨hnone, rfl⟩ | ⟨hsome, rfl⟩
  · have hfresh : Table.Fresh (·.contentHash) manifest.row.contentHash s.artifacts :=
      Table.get_eq_none.mp hnone
    exact ⟨⟨rfl, rfl, rfl, rfl⟩, .inr (insertArtifact_eq_success.mpr ⟨hfresh, rfl⟩),
      Table.get_concat_self hfresh⟩
  · exact ⟨⟨rfl, rfl, rfl, rfl⟩, .inl rfl, hsome⟩

def completedRow (job : JobRow) (artifact : ArtifactManifest) (now : UTCDateTime) : JobRow :=
  updatedJob (completedJob job artifact now) none

/-- What a completion asks of the queue in which its artifact is registered. -/
structure CanComplete (registered : Queue) (command : RunPaperCycle) (job : JobRow)
    (run : WorkflowRunRow) (state : PaperCycleState) (artifact : ArtifactManifest)
    (now : UTCDateTime) : Prop where
  append : registered.CanAppend run job (completionAudit job command state artifact.row)
  checks : registered.JobChecks (completedJob job artifact now)

/-- The queue that a completion leaves. -/
def completedQueue (registered : Queue) (command : RunPaperCycle) (job : JobRow)
    (run : WorkflowRunRow) (state : PaperCycleState) (artifact : ArtifactManifest)
    (now : UTCDateTime) : Queue :=
  registered.written run job (completionAudit job command state artifact.row)
    (completedRow job artifact now) now

/-- The result of a completion. -/
def completedCycleResult (run : WorkflowRunRow) (state : PaperCycleState)
    (artifact : ArtifactManifest) : PaperCycleRunResult where
  runId := run.runId
  status := .succeeded
  state := state
  resultArtifactHash := some artifact.contentHash
  errorCode := none

omit [Hashing] [JsonColumn] in
theorem completedCycle_eq_success {artifact : ArtifactManifest} {result : PaperCycleRunResult} :
    completedCycle run state artifact = .success result ↔
      (run.runId = state.runId ∧ state.Complete) ∧ result = completedCycleResult run state artifact
        := by
  unfold completedCycle
  rw [PaperCycleRunResult.validated_eq_success]
  constructor
  · rintro ⟨⟨-, hid, -, hcomplete, -⟩, rfl⟩
    exact ⟨⟨hid, (hcomplete rfl).1⟩, rfl⟩
  · rintro ⟨⟨hid, hcomplete⟩, rfl⟩
    exact ⟨⟨by simp, hid, by simp, fun _ => ⟨hcomplete, rfl⟩, by simp⟩, rfl⟩

/-- A completion of an active cycle records the loaded state, once its artifact is registered. -/
theorem completeActiveCycle_eq_success {artifact : ArtifactManifest}
    {result : PaperCycleRunResult} :
    s.completeActiveCycle command job run state artifact now = .success (result, s') ↔
      ActiveAuthority job run command now ∧
        s.loadState job run command.cycleInputHash = .success state ∧ state.Complete ∧
        run.runId = state.runId ∧ CycleArtifactValid artifact state now ∧
        ∃ registered, ((s.artifact artifact.contentHash = none ∧
              registered = { s with artifacts := s.artifacts ++ [artifact.row] }) ∨
            s.artifact artifact.contentHash = some artifact.row ∧ registered = s) ∧
          registered.CanComplete command job run state artifact now ∧
          s' = registered.completedQueue command job run state artifact now ∧
          result = completedCycleResult run state artifact := by
  simp only [completeActiveCycle, requireActive, Attempt.bind_eq_success,
    QueueCall.accepted_eq_success, appendAudit_eq_success, updateJob_eq_success,
    completedCycle_eq_success, Attempt.pure_eq, Attempt.success.injEq, Prod.mk.injEq, Prod.exists,
    registerCycleArtifact_eq_success, exists_const]
  constructor
  · rintro ⟨hactive, _, hload, ⟨rfl, hcomplete⟩, _, registered, ⟨hvalid, rfl, hregistered⟩, _,
      ⟨happend, rfl⟩, _, ⟨-, hchecks, rfl⟩, _, ⟨⟨hid, -⟩, rfl⟩, rfl, rfl⟩
    exact ⟨hactive, hload, hcomplete, hid, hvalid, registered, hregistered, ⟨happend, hchecks⟩,
      rfl, rfl⟩
  · rintro ⟨hactive, hload, hcomplete, hid, hvalid, registered, hregistered, hcan, rfl, rfl⟩
    exact ⟨hactive, state, hload, ⟨rfl, hcomplete⟩, artifact.row, registered,
      ⟨hvalid, rfl, hregistered⟩, _, ⟨hcan.append, rfl⟩, _, ⟨by simp, hcan.checks, rfl⟩, _,
      ⟨⟨hid, hcomplete⟩, rfl⟩, rfl, rfl⟩

/-- A completion that succeeds repeats the recorded result, or it completes an active cycle. -/
theorem completeCycle_eq_success {artifact : ArtifactManifest} {result : PaperCycleRunResult} :
    s.completeCycle command state artifact now = .success (result, s') ↔
      ∃ job run, s.job command.lease.jobId = some job ∧ s.run command.lease.runId = some run ∧
        ((job.status = .succeeded ∧
            s.completedResult command job run state artifact = .success result ∧ s' = s) ∨
          (job.status ≠ .succeeded ∧
            s.completeActiveCycle command job run state artifact now = .success (result, s'))) := by
  simp only [completeCycle, QueueCall.handled_eq_success, Attempt.bind_eq_success,
    lockedRows_eq_success, Prod.exists]
  refine exists_congr fun job => exists_congr fun run => ?_
  rw [and_assoc]
  refine and_congr_right fun _ => and_congr_right fun _ => ?_
  by_cases hstatus : job.status = .succeeded
  · simp [hstatus, Attempt.bind_eq_success, eq_comm (a := s')]
  · simp [hstatus]

def cancelledRow (job : JobRow) (request : CancelPaperCycle) (now : UTCDateTime) : JobRow :=
  updatedJob (cancelledJob job now) (some (.dict [("code", dump request.reasonCode)]))

/-- The result of a cancellation. -/
def cancelledCycleResult (run : WorkflowRunRow) (state : PaperCycleState)
    (request : CancelPaperCycle) : PaperCycleRunResult where
  runId := run.runId
  status := .cancelled
  state := state
  resultArtifactHash := none
  errorCode := some request.reasonCode

omit [Hashing] [JsonColumn] in
theorem cancelledResult_eq_success {request : CancelPaperCycle} {result : PaperCycleRunResult} :
    cancelledResult run state request.reasonCode = .success result ↔
      run.runId = state.runId ∧ result = cancelledCycleResult run state request := by
  unfold cancelledResult
  rw [PaperCycleRunResult.validated_eq_success]
  constructor
  · rintro ⟨⟨-, hid, -⟩, rfl⟩
    exact ⟨hid, rfl⟩
  · rintro ⟨hid, rfl⟩
    refine ⟨⟨fun code hcode => ?_, hid, by simp, by simp, by simp⟩, rfl⟩
    rw [← Option.some.inj hcode]
    exact request.reason_ne

/-- What a cancellation of an active cycle asks for. -/
structure CanCancel (s : Queue) (request : CancelPaperCycle) (run : WorkflowRunRow) (job : JobRow)
    (state : PaperCycleState) (now : UTCDateTime) : Prop where
  version : run.version = request.expectedVersion
  status : run.status = .pending ∨ run.status = .running ∨ run.status = .degraded
  active : job.status.Active
  append : s.CanAppend run job (cancellationAudit job run request state)
  error_clean : secretFree (.dict [("code", dump request.reasonCode)]) = true
  checks : s.JobChecks (cancelledJob job now)

/-- A cancellation that succeeds repeats the recorded one, or it cancels an active cycle. -/
theorem cancelCycle_eq_success {request : CancelPaperCycle} {result : PaperCycleRunResult} :
    s.cancelCycle request now = .success (result, s') ↔
      ∃ run job state, s.run request.runId = some run ∧ s.cycleJobs request.runId = [job] ∧
        s.loadState job run run.inputHash = .success state ∧ run.runId = state.runId ∧
        result = cancelledCycleResult run state request ∧
        ((run.status = .cancelled ∧ s.CancelledIsExact run job request ∧ s' = s) ∨
          (s.CanCancel request run job state now ∧
            s' = s.written run job (cancellationAudit job run request state)
              (cancelledRow job request now) now)) := by
  simp only [cancelCycle, QueueCall.handled_eq_success, Attempt.bind_eq_success,
    QueueCall.orRefused_eq_success]
  refine exists_congr fun run => ?_
  cases hjobs : s.cycleJobs request.runId with
  | nil => simp [QueueCall.refused]
  | cons job others =>
      cases others with
      | cons second rest => simp [QueueCall.refused]
      | nil =>
          simp only [Attempt.bind_eq_success, List.cons.injEq, and_true]
          constructor
          · rintro ⟨hrun, state, hload, h⟩
            refine ⟨job, state, hrun, rfl, hload, ?_⟩
            split at h
            · rename_i hcancelled
              simp only [Attempt.bind_eq_success, QueueCall.accepted_eq_success, Attempt.pure_eq,
                cancelledResult_eq_success, Attempt.success.injEq, Prod.mk.injEq, exists_const] at h
              obtain ⟨hexact, _, ⟨hid, rfl⟩, rfl, rfl⟩ := h
              exact ⟨hid, rfl, .inl ⟨hcancelled, hexact, rfl⟩⟩
            · simp only [Attempt.bind_eq_success, QueueCall.accepted_eq_success, Attempt.pure_eq,
                cancelledResult_eq_success, appendAudit_eq_success, updateJob_eq_success,
                Attempt.success.injEq, Prod.mk.injEq, exists_const] at h
              obtain ⟨⟨hversion, hstatus, hactive⟩, _, ⟨happend, rfl⟩, _, ⟨hclean, hchecks, rfl⟩, _,
                ⟨hid, rfl⟩, rfl, rfl⟩ := h
              exact ⟨hid, rfl, .inr ⟨⟨hversion, hstatus, hactive, happend, hclean _ rfl, hchecks⟩,
                rfl⟩⟩
          · rintro ⟨other, state, hrun, rfl, hload, hid, rfl, h⟩
            refine ⟨hrun, state, hload, ?_⟩
            rcases h with ⟨hcancelled, hexact, rfl⟩ | ⟨hcan, rfl⟩
            · rw [if_pos hcancelled]
              simp only [Attempt.bind_eq_success, QueueCall.accepted_eq_success, Attempt.pure_eq,
                cancelledResult_eq_success, Attempt.success.injEq, Prod.mk.injEq, exists_const]
              exact ⟨hexact, _, ⟨hid, rfl⟩, rfl, trivial⟩
            · have hnot : run.status ≠ .cancelled := by
                rcases hcan.status with h | h | h <;> rw [h] <;> decide
              rw [if_neg hnot]
              simp only [Attempt.bind_eq_success, QueueCall.accepted_eq_success, Attempt.pure_eq,
                cancelledResult_eq_success, appendAudit_eq_success, updateJob_eq_success,
                Attempt.success.injEq, Prod.mk.injEq, exists_const]
              refine ⟨⟨hcan.version, hcan.status, hcan.active⟩, _, ⟨hcan.append, rfl⟩, _,
                ⟨fun error herror => ?_, hcan.checks, rfl⟩, _, ⟨hid, rfl⟩, rfl, rfl⟩
              rw [← Option.some.inj herror]
              exact hcan.error_clean

/-! ## Entries of the store -/

/-- The entries that the calls append, and the row of the job that each leaves. -/
inductive Entry (run : WorkflowRunRow) (job : JobRow) : CycleAudit → JobRow → Prop where
  | checkpoint (command : RunPaperCycle) (state : PaperCycleState) {last : PaperCycleStageOutput}
      (hleased : job.status = .leased) (hlast : state.outputs.getLast? = some last) :
      Entry run job (checkpointAudit job command state last.stage) job
  | failure (command : RunPaperCycle) (state : PaperCycleState) (error : Failure)
      (retryAt : Option UTCDateTime) (now : UTCDateTime) (hleased : job.status = .leased) :
      Entry run job (failureAudit job command state error retryAt)
        (failedRow job error retryAt now)
  | completion (command : RunPaperCycle) (state : PaperCycleState) (artifact : ArtifactManifest)
      (now : UTCDateTime) (hleased : job.status = .leased) :
      Entry run job (completionAudit job command state artifact.row) (completedRow job artifact now)
  | cancellation (request : CancelPaperCycle) (state : PaperCycleState) (now : UTCDateTime)
      (hactive : job.status.Active) :
      Entry run job (cancellationAudit job run request state) (cancelledRow job request now)

namespace Entry

variable {row : JobRow} (h : Entry run job audit row)
include h

theorem active : job.status.Active := by
  cases h with
  | checkpoint command state hleased hlast => exact .inr hleased
  | failure command state error retryAt now hleased => exact .inr hleased
  | completion command state artifact now hleased => exact .inr hleased
  | cancellation request state now hactive => exact hactive

theorem same : row.jobId = job.jobId ∧ row.runId = job.runId ∧ row.jobType = job.jobType ∧
    row.attempts = job.attempts ∧ row.attemptGeneration = job.attemptGeneration ∧
    row.payload = job.payload ∧ row.payloadHash = job.payloadHash ∧
    row.maxAttempts = job.maxAttempts ∧ row.deadlineAt = job.deadlineAt := by
  cases h with
  | checkpoint command state hleased hlast => exact ⟨rfl, rfl, rfl, rfl, rfl, rfl, rfl, rfl, rfl⟩
  | failure command state error retryAt now hleased =>
      exact ⟨rfl, rfl, rfl, rfl, rfl, rfl, rfl, rfl, rfl⟩
  | completion command state artifact now hleased =>
      exact ⟨rfl, rfl, rfl, rfl, rfl, rfl, rfl, rfl, rfl⟩
  | cancellation request state now hactive => exact ⟨rfl, rfl, rfl, rfl, rfl, rfl, rfl, rfl, rfl⟩

theorem jobId : row.jobId = job.jobId := h.same.1

theorem runId : row.runId = job.runId := h.same.2.1

theorem leased (hleased : row.status = .leased) : row = job := by
  cases h with
  | checkpoint command state _ hlast => rfl
  | failure command state error retryAt now _ =>
      have hstatus : (if retryAt.isSome then JobStatus.queued else .deadLetter) = .leased := hleased
      split at hstatus <;> cases hstatus
  | completion command state artifact now _ => cases hleased
  | cancellation request state now hactive => cases hleased

theorem putBack (hqueued : row.status = .queued) : job.status = .leased := by
  cases h with
  | checkpoint command state hleased hlast => exact hleased
  | failure command state error retryAt now hleased => exact hleased
  | completion command state artifact now hleased => exact hleased
  | cancellation request state now hactive => cases hqueued

/-- The terminal entries are those that end the job. -/
theorem terminal_iff : audit.eventType ∈ terminalEvents ↔ ¬ row.status.Active := by
  cases h with
  | checkpoint command state hleased hlast =>
      simp [checkpointAudit, terminalEvents, JobStatus.Active, hleased]
  | failure command state error retryAt now hleased =>
      show (if _ then _ else _) ∈ terminalEvents ↔ ¬ (if _ then _ else _ : JobStatus).Active
      split
      · decide
      · decide
  | completion command state artifact now hleased =>
      show "paper_cycle.completed" ∈ terminalEvents ↔ ¬ JobStatus.succeeded.Active
      decide
  | cancellation request state now hactive =>
      show "paper_cycle.cancelled" ∈ terminalEvents ↔ ¬ JobStatus.cancelled.Active
      decide

theorem plain : audit.payload.Plain := by
  cases h with
  | checkpoint command state hleased hlast => simp [checkpointAudit, state.plain_dump]
  | failure command state error retryAt now hleased =>
      cases retryAt <;> simp [failureAudit, dump, Payload.Plain]
  | completion command state artifact now hleased =>
      simp [completionAudit, cycleCompletionPayload]
  | cancellation request state now hactive => simp [cancellationAudit]

end Entry

end Queue

namespace Cycle

variable [JsonColumn]

/-! ## Changes -/

/-- The changes that all writers are made of, but for the transitions of the workflow store. -/
inductive Write (s : Queue) : Queue → Prop where
  | queue {s' : Queue} (h : Queue.Change s s') : Write s s'
  | entry {run : WorkflowRunRow} {job row : JobRow} {audit : CycleAudit} (now : UTCDateTime)
      (hjob : job ∈ s.jobs) (hrun : run ∈ s.runs) (howner : run.runId = job.runId)
      (hentry : Queue.Entry run job audit row) (hcan : s.CanAppend run job audit)
      (hchecks : s.JobChecks job → s.JobChecks row) : Write s (s.written run job audit row now)

abbrev Writes : Queue → Queue → Prop := Relation.ReflTransGen Write

def Moves (s : Queue) : CycleCommand → Prop
  | .workflow (.transition request) => (s.transition request).Succeeds
  | _ => False

instance (s : Queue) : (command : CycleCommand) → Decidable (Moves s command)
  | .workflow (.transition request) =>
      inferInstanceAs (Decidable (s.transition request).Succeeds)
  | .workflow (.operation _) => isFalse id
  | .checkpoint .. => isFalse id
  | .fail .. => isFalse id
  | .complete .. => isFalse id
  | .cancel .. => isFalse id

theorem writes_of_changes (h : Queue.Changes s s') : Writes s s' :=
  Relation.ReflTransGen.mono (fun _ _ hchange => Write.queue hchange) _ _ h

omit [JsonColumn] in
theorem owner_of_holds (h : s.Holds command now job run) :
    job ∈ s.jobs ∧ run ∈ s.runs ∧ run.runId = job.runId := by
  obtain ⟨hrun, hid⟩ := Queue.run_of_eq_some h.run_stored
  exact ⟨(Queue.job_of_eq_some h.job_stored).1, hrun, hid.trans h.active.1.symm⟩

theorem writes_checkpoint (hunique : Table.Unique (·.jobId) s.jobs) {expectedStateHash : Sha256}
    {returned : PaperCycleState}
    (h : s.checkpointCycle command state expectedStateHash now = .success (returned, s')) :
    Writes s s' := by
  obtain ⟨job, run, current, last, hholds, -, -, hlast, hcan, -, rfl⟩ :=
    Queue.checkpointCycle_eq_success.mp h
  obtain ⟨hjob, hrun, howner⟩ := owner_of_holds hholds
  rw [Queue.posted_eq_written hunique hjob]
  exact .single (.entry now hjob hrun howner (.checkpoint command state hholds.active.2.2.1 hlast)
    hcan id)

theorem writes_fail {baseRetryDelay : ℤ} {error : Failure} {result : PaperCycleRunResult}
    (h : s.failCycle baseRetryDelay command error now = .success (result, s')) : Writes s s' := by
  obtain ⟨job, run, state, hholds, -, hcan, hchecks, rfl⟩ := Queue.failCycle_eq_success h
  obtain ⟨hjob, hrun, howner⟩ := owner_of_holds hholds
  exact .single (.entry now hjob hrun howner
    (.failure command state error _ now hholds.active.2.2.1) hcan fun _ => hchecks)

theorem writes_complete {artifact : ArtifactManifest} {result : PaperCycleRunResult}
    (h : s.completeCycle command state artifact now = .success (result, s')) : Writes s s' := by
  obtain ⟨job, run, hjob, hrun, ⟨-, -, rfl⟩ | ⟨-, hactive⟩⟩ := Queue.completeCycle_eq_success.mp h
  · exact .refl
  · obtain ⟨hauthority, -, -, -, -, registered, hcases, hcan, rfl, -⟩ :=
      Queue.completeActiveCycle_eq_success.mp hactive
    obtain ⟨hjob', hrun', howner⟩ := owner_of_holds ⟨hjob, hrun, hauthority⟩
    have hregisters := Queue.registers_of_cases hcases
    obtain ⟨hruns, -, hjobs, -⟩ := hregisters.others
    rw [← hjobs] at hjob'
    rw [← hruns] at hrun'
    have hentry : Write registered _ := .entry now hjob' hrun' howner
      (.completion command state artifact now hauthority.2.2.1) hcan.append fun _ => hcan.checks
    rcases hregisters.grows with rfl | hinsert
    · exact .single hentry
    · exact .head (.queue (.quiet (.artifact _ hinsert))) (.single hentry)

omit [Hashing] [JsonColumn] in
theorem mem_cycleJobs {runId : UUID} (h : s.cycleJobs runId = [job]) :
    job ∈ s.jobs ∧ job.runId = runId ∧ job.jobType = "paper_fund_cycle" := by
  have hmem : job ∈ s.cycleJobs runId := by
    rw [h]
    exact List.mem_singleton_self job
  rw [Queue.cycleJobs, List.mem_filter, decide_eq_true_iff] at hmem
  exact hmem

theorem writes_cancel {request : CancelPaperCycle} {result : PaperCycleRunResult}
    (h : s.cancelCycle request now = .success (result, s')) : Writes s s' := by
  obtain ⟨run, job, state, hrun, hjobs, -, -, -, ⟨-, -, rfl⟩ | ⟨hcan, rfl⟩⟩ :=
    Queue.cancelCycle_eq_success.mp h
  · exact .refl
  · obtain ⟨hjob, howner, -⟩ := mem_cycleJobs hjobs
    obtain ⟨hmem, hid⟩ := Queue.run_of_eq_some hrun
    exact .single (.entry now hjob hmem (hid.trans howner.symm)
      (.cancellation request state now hcan.active) hcan.append fun _ => hcan.checks)

/-- A command that is no transition of the workflow store is a sequence of writes. -/
theorem writes_step (hunique : Table.Unique (·.jobId) s.jobs) {command : CycleCommand}
    (hmoves : ¬ Moves s command) : Writes s (step s command) := by
  cases command with
  | workflow command =>
      cases command with
      | operation op => exact writes_of_changes (Queue.changes_step hunique op)
      | transition request =>
          rcases Workflow.transition_cases s request with ⟨hsame, -⟩ | ⟨current, hrun, hallowed,
            hversion, -⟩
          · exact (congrArg (Writes s) hsame).mpr .refl
          · exact absurd ⟨_, Workflow.transition_eq_success.mpr
              ⟨current, hrun, hallowed, hversion, rfl, rfl⟩⟩ hmoves
  | checkpoint command state expectedStateHash now =>
      exact Queue.kept_of_success .refl fun _ _ h => writes_checkpoint hunique h
  | fail baseRetryDelay command error now =>
      exact Queue.kept_of_success .refl fun _ _ h => writes_fail h
  | complete command state artifact now =>
      exact Queue.kept_of_success .refl fun _ _ h => writes_complete h
  | cancel request now => exact Queue.kept_of_success .refl fun _ _ h => writes_cancel h

end Cycle

end

end StonksPaper
