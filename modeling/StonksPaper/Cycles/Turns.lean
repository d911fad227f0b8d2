import StonksPaper.Cycles.Apart

/-!
# The turns of one cycle

What a command does to a cycle is a sequence of turns; a turn carries the lease that it grants and
the state that it records. `Turn` has what each of them has checked.
-/

namespace StonksPaper

open Chain

section

variable [Hashing] [JsonColumn] {s s' : Queue} {run : WorkflowRunRow} {job row : JobRow}
  {now : UTCDateTime} {jobId runId : UUID} {command : RunPaperCycle}
  {state : PaperCycleState} {leases : List JobLease}
  {states : List PaperCycleState}

namespace Cycle

/-! ## Commands around a cycle -/

/-- The commands of workers, and all that concern other jobs and runs: the run gets no second job,
its job no result of the generic queue, and the workflow store does not move the run. -/
def OfCycle (jobId runId : UUID) : CycleCommand → Prop
  | .workflow (.operation (.enqueue request, _)) => request.jobId = jobId ↔ request.runId = runId
  | .workflow (.operation (.complete request _, _)) => request.jobId ≠ jobId
  | .workflow (.operation (.fail request, _)) => request.jobId ≠ jobId
  | .workflow (.operation (.recordSnapshotFailure request _, _)) => request.jobId ≠ jobId
  | .workflow (.operation (.completeSnapshot request _, _)) => request.jobId ≠ jobId
  | .workflow (.transition request) => request.runId ≠ runId
  | _ => True

instance (jobId runId : UUID) : (command : CycleCommand) → Decidable (OfCycle jobId runId command)
  | .workflow (.operation (.create _, _)) => isTrue trivial
  | .workflow (.operation (.enqueue _, _)) => inferInstanceAs (Decidable (_ ↔ _))
  | .workflow (.operation (.claim _ _, _)) => isTrue trivial
  | .workflow (.operation (.complete _ _, _)) => inferInstanceAs (Decidable (_ ≠ _))
  | .workflow (.operation (.fail _, _)) => inferInstanceAs (Decidable (_ ≠ _))
  | .workflow (.operation (.recordSnapshotFailure _ _, _)) => inferInstanceAs (Decidable (_ ≠ _))
  | .workflow (.operation (.completeSnapshot _ _, _)) => inferInstanceAs (Decidable (_ ≠ _))
  | .workflow (.transition _) => inferInstanceAs (Decidable (_ ≠ _))
  | .checkpoint .. => isTrue trivial
  | .fail .. => isTrue trivial
  | .complete .. => isTrue trivial
  | .cancel .. => isTrue trivial

def granted (s : Queue) : CycleCommand → Option JobLease
  | .workflow (.operation op) => s.granted op
  | _ => none

/-- The state that a successful checkpoint of the job records. -/
def checkpointed (jobId : UUID) (s : Queue) : CycleCommand → Option PaperCycleState
  | .checkpoint command state expectedStateHash now =>
      if command.lease.jobId = jobId then
        (s.checkpointCycle command state expectedStateHash now).toOption.map (·.1)
      else none
  | _ => none

/-! ## Cycles of other jobs -/

theorem apart_checkpoint (hunique : Table.Unique (·.jobId) s.jobs) (halone : Alone jobId runId s)
    (hother : command.lease.jobId ≠ jobId) {expectedStateHash : Sha256}
    {returned : PaperCycleState}
    (h : s.checkpointCycle command state expectedStateHash now = .success (returned, s')) :
    Apart jobId runId s s' := by
  obtain ⟨job, run, current, last, hholds, -, -, hlast, -, -, rfl⟩ :=
    Queue.checkpointCycle_eq_success.mp h
  obtain ⟨hjob, hrun, howner⟩ := owner_of_holds hholds
  have hid := (Queue.job_of_eq_some hholds.job_stored).2
  rw [Queue.posted_eq_written hunique hjob]
  exact apart_written halone hjob hrun howner (.checkpoint command state hholds.active.2.2.1 hlast)
    fun heq => hother (hid.symm.trans heq)

theorem apart_fail (halone : Alone jobId runId s) (hother : command.lease.jobId ≠ jobId)
    {baseRetryDelay : ℤ} {error : Failure} {result : PaperCycleRunResult}
    (h : s.failCycle baseRetryDelay command error now = .success (result, s')) :
    Apart jobId runId s s' := by
  obtain ⟨job, run, state, hholds, -, -, -, rfl⟩ := Queue.failCycle_eq_success h
  obtain ⟨hjob, hrun, howner⟩ := owner_of_holds hholds
  have hid := (Queue.job_of_eq_some hholds.job_stored).2
  exact apart_written halone hjob hrun howner
    (.failure command state error _ now hholds.active.2.2.1) fun heq => hother (hid.symm.trans heq)

omit [Hashing] [JsonColumn] in
theorem files_of_registers {artifact : ArtifactManifest} {registered : Queue}
    (h : s.Registers artifact registered) : Queue.Files s registered := by
  rcases h.grows with rfl | hinsert
  · exact .refl
  · exact .single ⟨_, hinsert⟩

theorem apart_complete (halone : Alone jobId runId s) (hother : command.lease.jobId ≠ jobId)
    {artifact : ArtifactManifest} {result : PaperCycleRunResult}
    (h : s.completeCycle command state artifact now = .success (result, s')) :
    Apart jobId runId s s' := by
  obtain ⟨job, run, hjob, hrun, ⟨-, -, rfl⟩ | ⟨-, hactive⟩⟩ := Queue.completeCycle_eq_success.mp h
  · exact apart_refl jobId runId _
  · obtain ⟨hauthority, -, -, -, -, registered, hcases, hcan, rfl, -⟩ :=
      Queue.completeActiveCycle_eq_success.mp hactive
    obtain ⟨hjob', hrun', howner⟩ := owner_of_holds ⟨hjob, hrun, hauthority⟩
    have hfiles := files_of_registers (Queue.registers_of_cases hcases)
    have hfiled := apart_of_files hfiles jobId runId
    obtain ⟨hruns, -, hjobs, -⟩ := hfiles.others
    rw [← hjobs] at hjob'
    rw [← hruns] at hrun'
    have hid := (Queue.job_of_eq_some hjob).2
    exact hfiled.trans (apart_written (hfiled.alone halone) hjob' hrun' howner
      (.completion command state artifact now hauthority.2.2.1)
      fun heq => hother (hid.symm.trans heq))

theorem apart_cancel (halone : Alone jobId runId s) {request : CancelPaperCycle}
    (hother : request.runId ≠ runId) {result : PaperCycleRunResult}
    (h : s.cancelCycle request now = .success (result, s')) : Apart jobId runId s s' := by
  obtain ⟨run, job, state, hrun, hjobs, -, -, -, ⟨-, -, rfl⟩ | ⟨hcan, rfl⟩⟩ :=
    Queue.cancelCycle_eq_success.mp h
  · exact apart_refl jobId runId _
  · obtain ⟨hjob, howner, -⟩ := mem_cycleJobs hjobs
    obtain ⟨hmem, hid⟩ := Queue.run_of_eq_some hrun
    exact apart_written halone hjob hmem (hid.trans howner.symm)
      (.cancellation request state now hcan.active)
      fun heq => hother (howner.symm.trans ((halone job hjob).mp heq))

/-! ## Turns -/

/-- The states that an entry records: a checkpoint its own, a marker none. -/
inductive Records (run : WorkflowRunRow) (job : JobRow) (current : PaperCycleState) :
    CycleAudit → List PaperCycleState → Prop where
  | checkpoint (command : RunPaperCycle) {next : PaperCycleState} {last : PaperCycleStageOutput}
      (hinput : command.cycleInputHash = run.inputHash)
      (hnext : Queue.NextState current next current.stateHash)
      (hlast : next.outputs.getLast? = some last) :
      Records run job current (Queue.checkpointAudit job command next last.stage) [next]
  | marker {audit : CycleAudit} (h : Queue.Marker audit.eventType) :
      Records run job current audit []

inductive Turn (jobId runId : UUID) (s : Queue) :
    List JobLease → List PaperCycleState → Queue → Prop where
  | apart {leases : List JobLease} {s' : Queue} (h : Apart jobId runId s s')
      (hleases : Queue.leasesOf jobId leases = []) : Turn jobId runId s leases [] s'
  | created {s' : Queue} (request : CreateWorkflowRun) (hid : request.runId = runId)
      (h : s.insertRun request.row = .success s') : Turn jobId runId s [] [] s'
  | enqueued {s' : Queue} (request : EnqueueJob) (hid : request.jobId = jobId)
      (howner : request.runId = runId) (h : s.insertJob request.row = .success s') :
      Turn jobId runId s [] [] s'
  | leased {s' : Queue} {request : ClaimJob} {now : UTCDateTime} {lease : JobLease} {job : JobRow}
      (h : s.Grants request now lease s' job) (hid : job.jobId = jobId) :
      Turn jobId runId s [lease] [] s'
  | retired {job : JobRow} {run : WorkflowRunRow} {reason : String} (now : UTCDateTime)
      (hjob : s.job jobId = some job) (hrun : s.run runId = some run)
      (howner : run.runId = job.runId) (hunclaimable : Queue.Unclaimable now job)
      (hcan : s.CanCommit run (Queue.deadLettered job reason now)) :
      Turn jobId runId s [] [] (s.committed run (Queue.deadLettered job reason now) now)
  | written {job row : JobRow} {run : WorkflowRunRow} {audit : CycleAudit}
      {current : PaperCycleState} {states : List PaperCycleState} (now : UTCDateTime)
      (hjob : s.job jobId = some job) (hrun : s.run runId = some run)
      (howner : run.runId = job.runId) (hentry : Queue.Entry run job audit row)
      (hcan : s.CanAppend run job audit) (hloads : s.Loads job run run.inputHash current)
      (hrecords : Records run job current audit states) :
      Turn jobId runId s [] states (s.written run job audit row now)

/-- Turns after each other, with the leases and the states of all of them. Rows are identified
before each. -/
inductive Turns (jobId runId : UUID) (s : Queue) :
    List JobLease → List PaperCycleState → Queue → Prop where
  | refl : Turns jobId runId s [] [] s
  | tail {granted leases : List JobLease} {recorded states : List PaperCycleState}
      {s' s'' : Queue} (h : Turns jobId runId s granted recorded s')
      (hrows : Workflow.Rows s') (hturn : Turn jobId runId s' leases states s'') :
      Turns jobId runId s (granted ++ leases) (recorded ++ states) s''

theorem Turn.turns (hrows : Workflow.Rows s) (h : Turn jobId runId s leases states s') :
    Turns jobId runId s leases states s' := .tail .refl hrows h

/-- The rows of a turn stay those of the cycle. -/
theorem Turn.alone (h : Turn jobId runId s leases states s') (halone : Alone jobId runId s) :
    Alone jobId runId s' := by
  cases h with
  | apart h hleases => exact h.alone halone
  | created request hid h =>
      obtain ⟨-, rfl⟩ := Queue.insertRun_eq_success.mp h
      exact halone
  | enqueued request hid howner h =>
      obtain ⟨-, -, rfl⟩ := Queue.insertJob_eq_success.mp h
      intro other hother
      rcases List.mem_append.mp hother with hother | hother
      · exact halone other hother
      · rw [List.mem_singleton.mp hother]
        exact ⟨fun _ => howner, fun _ => hid⟩
  | @leased _ request now lease job h hid =>
      obtain ⟨-, -, rfl⟩ := Queue.updateJob_eq_success.mp h.updated
      exact Table.forall_mem_update (fun r hr _ => halone r hr) fun _ _ _ => halone job h.stored
  | @retired job run reason now hjob hrun howner hunclaimable hcan =>
      exact Table.forall_mem_update (fun r hr _ => halone r hr)
        fun _ _ _ => halone job (Queue.job_of_eq_some hjob).1
  | written now hjob hrun howner hentry hcan hloads hrecords =>
      refine Table.forall_mem_update (fun r hr _ => halone r hr) fun _ _ _ => ?_
      rw [hentry.jobId, hentry.runId]
      exact halone _ (Queue.job_of_eq_some hjob).1

end Cycle

end

end StonksPaper
