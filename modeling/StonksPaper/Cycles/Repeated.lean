import StonksPaper.Cycles.Progress

/-!
# Cancellations and completions on record

Each of them ends the job of its cycle, so nothing is written to the cycle after it. What it has
recorded answers every later command of its kind: the same one again, every other one with a
conflict.
-/

namespace StonksPaper

section

variable [Hashing] [JsonColumn] {s s' s'' : Queue} {run : WorkflowRunRow} {job : JobRow}
  {now : UTCDateTime} {jobId runId : UUID} {request other : CancelPaperCycle}
  {command : RunPaperCycle} {state : PaperCycleState} {result again : PaperCycleRunResult}

namespace Cycle

/-! ## What is on record -/

/-- The cancellation is on record: the cycle can be loaded, its run is cancelled at the version that
follows the expected one, and its cancellation event is that of the request. -/
structure CancelledBy (jobId runId : UUID) (s : Queue) (request : CancelPaperCycle)
    (run : WorkflowRunRow) (job : JobRow) (state : PaperCycleState) : Prop where
  run_stored : s.run runId = some run
  job_stored : s.job jobId = some job
  jobType : job.jobType = "paper_fund_cycle"
  loads : s.Loads job run run.inputHash state
  ofRun : run.runId = state.runId
  status : run.status = .cancelled
  exact : s.CancelledIsExact run job request

omit [Hashing] [JsonColumn] in
/-- The job of the cycle is the only one that a cancellation selects. -/
theorem cycleJobs_eq (hrows : Workflow.Rows s) (halone : Alone jobId runId s)
    (hjob : s.job jobId = some job) (htype : job.jobType = "paper_fund_cycle") :
    s.cycleJobs runId = [job] := by
  obtain ⟨hmem, hid⟩ := Queue.job_of_eq_some hjob
  have hselected (row : JobRow) : row ∈ s.cycleJobs runId ↔ row = job := by
    rw [Queue.cycleJobs, List.mem_filter, decide_eq_true_iff]
    constructor
    · intro h
      obtain ⟨hrow, howner, -⟩ := h
      have hrowId : row.jobId = jobId := (halone row hrow).mpr howner
      exact Option.some.inj ((job_of_mem hrows hrow hrowId).symm.trans hjob)
    · intro h
      subst h
      exact ⟨hmem, (halone row hmem).mp hid, htype⟩
  have hnodup : (s.cycleJobs runId).Nodup := (List.Nodup.of_map _ hrows.jobs_unique).filter _
  refine List.perm_singleton.mp ((List.perm_ext_iff_of_nodup hnodup (List.nodup_singleton job)).mpr
    fun row => ?_)
  rw [hselected, List.mem_singleton]

omit [JsonColumn] in
theorem CancelledBy.ended (h : CancelledBy jobId runId s request run job state) :
    Ended jobId s := by
  obtain ⟨event, -, -, hcancelled, -⟩ := h.exact
  refine ⟨job, h.job_stored, ?_⟩
  rw [hcancelled]
  decide

omit [JsonColumn] in
/-- What leaves the cycle apart leaves the cancellation on record. -/
theorem CancelledBy.apart (h : CancelledBy jobId runId s request run job state)
    (happart : Apart jobId runId s s') : CancelledBy jobId runId s' request run job state := by
  have hid := (Queue.run_of_eq_some h.run_stored).2
  subst hid
  constructor
  · exact happart.run.trans h.run_stored
  · exact happart.job.trans h.job_stored
  · exact h.jobType
  · exact h.loads.congr happart.events happart.outbox rfl
  · exact h.ofRun
  · exact h.status
  · have hexact := h.exact
    unfold Queue.CancelledIsExact Queue.latestEvent at hexact ⊢
    rw [happart.events]
    exact hexact

/-! ## Later cancellations -/

omit [Hashing] [JsonColumn] in
/-- Two requests that the record answers are the same. -/
theorem request_eq_of_exact (hother : other.runId = request.runId)
    (h : s.CancelledIsExact run job request) (h' : s.CancelledIsExact run job other) :
    other = request := by
  obtain ⟨event, hevent, hversion, -, hactor, hreason⟩ := h
  obtain ⟨event', hevent', hversion', -, hactor', hreason'⟩ := h'
  obtain rfl := Option.some.inj (hevent.symm.trans hevent')
  have hexpected : other.expectedVersion = request.expectedVersion := by omega
  have hsameActor : other.actor = request.actor := by
    have hdump := Option.some.inj (hactor'.symm.trans hactor)
    simpa [dump] using hdump
  have hsameReason : other.reasonCode = request.reasonCode := by
    have hdump := Option.some.inj (hreason'.symm.trans hreason)
    simpa [dump] using hdump
  cases other
  cases request
  simp_all

/-- Of all cancellations of the run, the record answers the identical one, and writes nothing. -/
theorem CancelledBy.cancel_iff (h : CancelledBy jobId runId s request run job state)
    (hrows : Workflow.Rows s) (halone : Alone jobId runId s) (hid : request.runId = runId)
    (hother : other.runId = request.runId) :
    s.cancelCycle other now = .success (again, s') ↔
      other = request ∧ again = Queue.cancelledCycleResult run state request ∧ s' = s := by
  have hjobs : s.cycleJobs other.runId = [job] := by
    rw [hother, hid]
    exact cycleJobs_eq hrows halone h.job_stored h.jobType
  have hrun : s.run other.runId = some run := by
    rw [hother, hid]
    exact h.run_stored
  rw [Queue.cancelCycle_eq_success]
  constructor
  · intro hcancels
    obtain ⟨run', job', state', hrun', hjobs', hload, -, hagain, hcases⟩ := hcancels
    obtain rfl := Option.some.inj (hrun.symm.trans hrun')
    obtain rfl := List.singleton_inj.mp (hjobs.symm.trans hjobs')
    have hstate : state' = state :=
      Attempt.success.inj (hload.symm.trans (Queue.loadState_eq_success.mpr h.loads))
    subst hstate
    rcases hcases with ⟨-, hexact, hsame⟩ | ⟨hcan, -⟩
    · obtain rfl := request_eq_of_exact hother h.exact hexact
      exact ⟨rfl, hagain, hsame⟩
    · -- A cancelled run is not active.
      rcases hcan.status with hactive | hactive | hactive
      · exact absurd (h.status.symm.trans hactive) (by decide)
      · exact absurd (h.status.symm.trans hactive) (by decide)
      · exact absurd (h.status.symm.trans hactive) (by decide)
  · intro hsame
    obtain ⟨rfl, rfl, rfl⟩ := hsame
    exact ⟨run, job, state, hrun, hjobs, Queue.loadState_eq_success.mpr h.loads, h.ofRun, rfl,
      .inl ⟨h.status, h.exact, rfl⟩⟩

/-! ## Cancelling -/

/-- A cancellation that is answered is on record. -/
theorem cancelledBy_of_cancel (hplain : JsonColumn.KeepsPlain) (hrows : Workflow.Rows s)
    (halone : Alone jobId runId s) (hid : request.runId = runId)
    (h : s.cancelCycle request now = .success (result, s')) :
    ∃ run job state, CancelledBy jobId runId s' request run job state ∧
      result = Queue.cancelledCycleResult run state request := by
  obtain ⟨run, job, state, hrun, hjobs, hload, hofRun, hresult, hcases⟩ :=
    Queue.cancelCycle_eq_success.mp h
  obtain ⟨hmem, howner, htype⟩ := mem_cycleJobs hjobs
  have hjobId : job.jobId = jobId := (halone job hmem).mpr (howner.trans hid)
  have hjob : s.job jobId = some job := job_of_mem hrows hmem hjobId
  have hrunStored : s.run runId = some run := hid ▸ hrun
  have hrunId := (Queue.run_of_eq_some hrunStored).2
  have hloads := Queue.loadState_eq_success.mp hload
  subst hjobId
  subst hrunId
  rcases hcases with ⟨hstatus, hexact, hsame⟩ | ⟨hcan, hwritten⟩
  · rw [hsame]
    exact ⟨run, job, state, ⟨hrunStored, hjob, htype, hloads, hofRun, hstatus, hexact⟩, hresult⟩
  · have hentry : Queue.Entry run job (Queue.cancellationAudit job run request state)
        (Queue.cancelledRow job request now) := .cancellation request state now hcan.active
    have hextends : Queue.Extends s (s.written run job
        (Queue.cancellationAudit job run request state) (Queue.cancelledRow job request now)
          now) run
        (Queue.cycleRun run (Queue.cancellationAudit job run request state) now)
        (s.storedCycleEvent run job (Queue.cancellationAudit job run request state) now) :=
      Queue.extends_written hplain hentry hcan.append
    have hevents := hextends.eventsOf hloads
    have hpayload : stored (Queue.cancellationAudit job run request state).payload =
        (Queue.cancellationAudit job run request state).payload := hplain _ hentry.plain
    rw [← hwritten] at hextends hevents
    refine ⟨Queue.cycleRun run (Queue.cancellationAudit job run request state) now,
      Queue.cancelledRow job request now, state, ?_, hresult⟩
    constructor
    · rw [hwritten]
      exact Table.get_update_self hrunStored rfl
    · rw [hwritten]
      exact Table.get_update_self hjob rfl
    · exact htype
    · have hmarker : Queue.Advances job run.inputHash state
          (s.storedCycleEvent run job (Queue.cancellationAudit job run request state) now)
            state := by
        refine ⟨fun hcheckpoint => ?_, fun _ => ⟨.inr ?_, rfl⟩⟩
        · exact absurd hcheckpoint
            (by decide : "paper_cycle.cancelled" ≠ "paper_cycle.stage_completed")
        · show "paper_cycle.cancelled" ∈ terminalEvents
          decide
      exact hloads.extend hextends rfl hmarker
    · exact hofRun
    · rfl
    · refine ⟨s.storedCycleEvent run job (Queue.cancellationAudit job run request state) now,
        ?_, ?_, rfl, ?_, ?_⟩
      · show ((s'.eventsOf run.runId).filter _).getLast? = _
        rw [hevents, List.filter_append]
        simp [Queue.storedCycleEvent, Queue.cycleEvent, Queue.cancellationAudit]
      · show run.version + 1 = request.expectedVersion + 1
        rw [hcan.version]
      · show (stored (Queue.cancellationAudit job run request state).payload).get "actor" = _
        rw [hpayload]
        simp [Queue.cancellationAudit]
      · show (stored (Queue.cancellationAudit job run request state).payload).get "reason_code" = _
        rw [hpayload]
        simp [Queue.cancellationAudit]

/-! ## Completions -/

/-- The completion is on record: the cycle can be loaded, its job has succeeded with the artifact
under the lease of the command, and its completion event is that of the command. -/
structure CompletedBy (jobId runId : UUID) (s : Queue) (command : RunPaperCycle)
    (run : WorkflowRunRow) (job : JobRow) (state : PaperCycleState)
    (artifact : ArtifactManifest) : Prop where
  run_stored : s.run runId = some run
  job_stored : s.job jobId = some job
  loads : s.Loads job run command.cycleInputHash state
  ofRun : run.runId = state.runId
  status : job.status = .succeeded
  valid : s.CompletedCycleValid command job run state artifact state

omit [JsonColumn] in
theorem CompletedBy.ended {artifact : ArtifactManifest}
    (h : CompletedBy jobId runId s command run job state artifact) : Ended jobId s := by
  refine ⟨job, h.job_stored, ?_⟩
  rw [h.status]
  decide

omit [JsonColumn] in
theorem CompletedBy.apart {artifact : ArtifactManifest}
    (h : CompletedBy jobId runId s command run job state artifact)
    (happart : Apart jobId runId s s') :
    CompletedBy jobId runId s' command run job state artifact := by
  have hid := (Queue.run_of_eq_some h.run_stored).2
  subst hid
  obtain ⟨hcurrent, hcomplete, hstatus, hresult, hgeneration, hnonce, howner, event, hevent, row,
    hrow, hpayload⟩ := h.valid
  constructor
  · exact happart.run.trans h.run_stored
  · exact happart.job.trans h.job_stored
  · exact h.loads.congr happart.events happart.outbox rfl
  · exact h.ofRun
  · exact h.status
  · refine ⟨hcurrent, hcomplete, hstatus, hresult, hgeneration, hnonce, howner, event, ?_, row,
      happart.artifact _ _ hrow, hpayload⟩
    unfold Queue.latestEvent at hevent ⊢
    rw [happart.events]
    exact hevent

/-- The commands that the record of a completion cannot tell apart: the input of the cycle, the
holder of the lease and the content of the artifact are the same. -/
def SameCompletion (command other : RunPaperCycle) (artifact another : ArtifactManifest) : Prop :=
  other.cycleInputHash = command.cycleInputHash ∧
    other.lease.attemptGeneration = command.lease.attemptGeneration ∧
    other.lease.attemptNonce = command.lease.attemptNonce ∧
    other.lease.leaseOwner = command.lease.leaseOwner ∧
    another.contentHash = artifact.contentHash

omit [JsonColumn] in
theorem sameCompletion_of_valid {other : RunPaperCycle} {artifact another : ArtifactManifest}
    {state' : PaperCycleState}
    (h : s.CompletedCycleValid command job run state artifact state)
    (h' : s.CompletedCycleValid other job run state' another state') :
    SameCompletion command other artifact another := by
  obtain ⟨-, -, -, hresult, hgeneration, hnonce, howner, event, hevent, row, -, hpayload⟩ := h
  obtain ⟨-, -, -, hresult', hgeneration', hnonce', howner', event', hevent', row', -, hpayload'⟩ :=
    h'
  obtain rfl := Option.some.inj (hevent.symm.trans hevent')
  refine ⟨?_, hgeneration'.symm.trans hgeneration, Option.some.inj (hnonce'.symm.trans hnonce),
    Option.some.inj (howner'.symm.trans howner), Option.some.inj (hresult'.symm.trans hresult)⟩
  have hinput := congrArg (·.get "cycle_input_hash") (hpayload'.symm.trans hpayload)
  simpa [Queue.cycleCompletionPayload, dump] using hinput

/-- Of all completions of the job, the record answers those that are the same to it, and writes
nothing. -/
theorem CompletedBy.complete_iff {other : RunPaperCycle} {artifact another : ArtifactManifest}
    {state' : PaperCycleState}
    (h : CompletedBy jobId runId s command run job state artifact)
    (hjob : other.lease.jobId = jobId) (hrun : other.lease.runId = runId) :
    s.completeCycle other state' another now = .success (again, s') ↔
      SameCompletion command other artifact another ∧ state' = state ∧
        again = Queue.completedCycleResult run state artifact ∧ s' = s := by
  rw [Queue.completeCycle_eq_success, hjob, hrun]
  simp only [Queue.completedResult, Attempt.bind_eq_success, QueueCall.accepted_eq_success,
    Queue.completedCycle_eq_success, Queue.loadState_eq_success, exists_const]
  constructor
  · intro hcompletes
    obtain ⟨job', run', hjob', hrun', ⟨-, ⟨current, hloads, hvalid, -, hagain⟩, hsame⟩ |
      ⟨hactive, -⟩⟩ := hcompletes
    · obtain rfl := Option.some.inj (h.job_stored.symm.trans hjob')
      obtain rfl := Option.some.inj (h.run_stored.symm.trans hrun')
      obtain rfl := hvalid.1
      have halike := sameCompletion_of_valid h.valid hvalid
      rw [halike.1, ← Queue.loadState_eq_success] at hloads
      have hstate : current = state :=
        Attempt.success.inj (hloads.symm.trans (Queue.loadState_eq_success.mpr h.loads))
      subst hstate
      refine ⟨halike, rfl, ?_, hsame⟩
      rw [hagain, Queue.completedCycleResult, halike.2.2.2.2]
      rfl
    · obtain rfl := Option.some.inj (h.job_stored.symm.trans hjob')
      exact absurd h.status hactive
  · intro hsame
    obtain ⟨⟨hinput, hgeneration, hnonce, howner, hcontent⟩, rfl, rfl, rfl⟩ := hsame
    obtain ⟨-, hcomplete, hstatus, hresult, hgeneration', hnonce', howner', event, hevent, row,
      hrow, hpayload⟩ := h.valid
    refine ⟨job, run, h.job_stored, h.run_stored, .inl ⟨h.status, ⟨state', ?_, ?_, ?_, ?_⟩, rfl⟩⟩
    · rw [hinput]
      exact h.loads
    · refine ⟨rfl, hcomplete, hstatus, ?_, ?_, ?_, ?_, event, hevent, row, ?_, ?_⟩
      · rw [hcontent]
        exact hresult
      · rw [hgeneration]
        exact hgeneration'
      · rw [hnonce]
        exact hnonce'
      · rw [howner]
        exact howner'
      · rw [hcontent]
        exact hrow
      · rw [hpayload, Queue.cycleCompletionPayload, Queue.cycleCompletionPayload, hinput,
          hgeneration]
    · exact ⟨h.ofRun, hcomplete⟩
    · rw [Queue.completedCycleResult, Queue.completedCycleResult, hcontent]

/-- A completion that is answered is on record. -/
theorem completedBy_of_complete (hplain : JsonColumn.KeepsPlain)
    (hjob : command.lease.jobId = jobId)
    (hrun : command.lease.runId = runId) {artifact : ArtifactManifest}
    (h : s.completeCycle command state artifact now = .success (result, s')) :
    ∃ run job, CompletedBy jobId runId s' command run job state artifact ∧
      result = Queue.completedCycleResult run state artifact := by
  obtain ⟨job, run, hjobStored, hrunStored, ⟨hstatus, hrepeated, hsame⟩ | ⟨-, hactive⟩⟩ :=
    Queue.completeCycle_eq_success.mp h
  · simp only [Queue.completedResult, Attempt.bind_eq_success, QueueCall.accepted_eq_success,
      Queue.completedCycle_eq_success, Queue.loadState_eq_success, exists_const] at hrepeated
    obtain ⟨current, hloads, hvalid, ⟨hofRun, -⟩, hresult⟩ := hrepeated
    obtain rfl := hvalid.1
    rw [hjob] at hjobStored
    rw [hrun] at hrunStored
    rw [hsame]
    exact ⟨run, job, ⟨hrunStored, hjobStored, hloads, hofRun, hstatus, hvalid⟩, hresult⟩
  · obtain ⟨hauthority, hload, hcomplete, hofRun, -, registered, hcases, hcan, hwritten, hresult⟩ :=
      Queue.completeActiveCycle_eq_success.mp hactive
    rw [hjob] at hjobStored
    rw [hrun] at hrunStored
    have hrunId := (Queue.run_of_eq_some hrunStored).2
    have hjobId := (Queue.job_of_eq_some hjobStored).2
    have hregisters := Queue.registers_of_cases hcases
    have hfiled := apart_of_files (files_of_registers hregisters) jobId runId
    subst hrunId
    subst hjobId
    have hloads : registered.Loads job run command.cycleInputHash state :=
      (Queue.loadState_eq_success.mp hload).congr hfiled.events hfiled.outbox rfl
    have hentry : Queue.Entry run job (Queue.completionAudit job command state artifact.row)
        (Queue.completedRow job artifact now) :=
      .completion command state artifact now hauthority.2.2.1
    have hextends : Queue.Extends registered (registered.written run job
        (Queue.completionAudit job command state artifact.row)
        (Queue.completedRow job artifact now) now) run
        (Queue.cycleRun run (Queue.completionAudit job command state artifact.row) now)
        (registered.storedCycleEvent run job
          (Queue.completionAudit job command state artifact.row) now) :=
      Queue.extends_written hplain hentry hcan.append
    have hevents := hextends.eventsOf hloads
    have hpayload : stored (Queue.completionAudit job command state artifact.row).payload =
        (Queue.completionAudit job command state artifact.row).payload := hplain _ hentry.plain
    have hqueue : s' = registered.written run job
        (Queue.completionAudit job command state artifact.row)
        (Queue.completedRow job artifact now) now := hwritten
    rw [← hqueue] at hextends hevents
    obtain ⟨-, -, -, hgeneration, hnonce, howner, -⟩ := hauthority
    refine ⟨Queue.cycleRun run (Queue.completionAudit job command state artifact.row) now,
      Queue.completedRow job artifact now, ?_, hresult⟩
    constructor
    · rw [hqueue]
      exact Table.get_update_self (hfiled.run.trans hrunStored) rfl
    · rw [hqueue]
      exact Table.get_update_self (hfiled.job.trans hjobStored) rfl
    · have hmarker : Queue.Advances job command.cycleInputHash state
          (registered.storedCycleEvent run job
            (Queue.completionAudit job command state artifact.row) now) state := by
        refine ⟨fun hcheckpoint => ?_, fun _ => ⟨.inr ?_, rfl⟩⟩
        · exact absurd hcheckpoint
            (by decide : "paper_cycle.completed" ≠ "paper_cycle.stage_completed")
        · show "paper_cycle.completed" ∈ terminalEvents
          decide
      exact hloads.extend hextends rfl hmarker
    · exact hofRun
    · rfl
    · refine ⟨rfl, hcomplete, rfl, rfl, hgeneration, hnonce, howner,
        registered.storedCycleEvent run job
          (Queue.completionAudit job command state artifact.row) now, ?_, artifact.row, ?_,
            hpayload⟩
      · show ((s'.eventsOf run.runId).filter _).getLast? = _
        rw [hevents, List.filter_append]
        simp [Queue.storedCycleEvent, Queue.cycleEvent, Queue.completionAudit]
      · rw [hqueue]
        exact hregisters.stored

end Cycle

end

namespace Cycle

/-- A cancellation that was answered is answered again after any further commands, with the same
result, and writes nothing; every other cancellation of the run is refused. -/
theorem cancellation_repeats [Hashing] [JsonColumn] (hplain : JsonColumn.KeepsPlain) (jobId : UUID)
    (request other : CancelPaperCycle) (commands more : List CycleCommand) (now later : UTCDateTime)
    (result again : PaperCycleRunResult) (cancelled s' : Queue)
    (hof : ∀ command ∈ commands ++ more, OfCycle jobId request.runId command)
    (hother : other.runId = request.runId)
    (h : (reached commands).cancelCycle request now = .success (result, cancelled)) :
    (reached (commands ++ .cancel request now :: more)).cancelCycle other later =
        .success (again, s') ↔
      other = request ∧ again = result ∧
        s' = reached (commands ++ .cancel request now :: more) := by
  obtain ⟨hbefore, hmore⟩ := List.forall_mem_append.mp hof
  have hrows := rows_reached commands
  have halone := alone_run Workflow.rows_migrated (alone_migrated jobId request.runId) commands
      hbefore
  obtain ⟨run, job, state, hcancelled, rfl⟩ := cancelledBy_of_cancel hplain hrows halone rfl h
  have hstep : step (reached commands) (.cancel request now) = cancelled := by
    rw [step, h]
    rfl
  have hreached : reached (commands ++ .cancel request now :: more) =
      Run.run step cancelled more := by
    rw [reached_append, Run.run_cons, hstep]
  have hrows' : Workflow.Rows cancelled := hstep ▸ rows_step hrows (.cancel request now)
  have halone' : Alone jobId request.runId cancelled :=
    hstep ▸ (turns_step hrows halone (.cancel request now) trivial).alone halone
  have hstored : cancelled.run request.runId ≠ none := by
    rw [hcancelled.run_stored]
    exact Option.some_ne_none run
  have happart := closed_run hrows' halone' hcancelled.ended hstored more hmore
  have hrowsAfter : Workflow.Rows (Run.run step cancelled more) :=
    Run.invariant_run (I := Workflow.Rows) (fun _ command h => rows_step h command) hrows' more
  rw [hreached]
  exact (hcancelled.apart happart).cancel_iff hrowsAfter (happart.alone halone') rfl hother

/-- A completion that was answered is answered again after any further commands, with the same
result, if its input, the holder of its lease, its state and the content of its artifact are the
same, and writes nothing; every other completion of the job is refused. -/
theorem completion_repeats [Hashing] [JsonColumn] (hplain : JsonColumn.KeepsPlain)
    (command other : RunPaperCycle) (state state' : PaperCycleState)
    (artifact another : ArtifactManifest) (commands more : List CycleCommand)
    (now later : UTCDateTime) (result again : PaperCycleRunResult) (completed s' : Queue)
    (hof : ∀ c ∈ commands ++ more, OfCycle command.lease.jobId command.lease.runId c)
    (hjob : other.lease.jobId = command.lease.jobId) (hrun : other.lease.runId =
    command.lease.runId)
    (h : (reached commands).completeCycle command state artifact now =
      .success (result, completed)) :
    (reached (commands ++ .complete command state artifact now :: more)).completeCycle other state'
        another later = .success (again, s') ↔
      SameCompletion command other artifact another ∧ state' = state ∧ again = result ∧
        s' = reached (commands ++ .complete command state artifact now :: more) := by
  obtain ⟨hbefore, hmore⟩ := List.forall_mem_append.mp hof
  have hrows := rows_reached commands
  have halone := alone_run Workflow.rows_migrated
    (alone_migrated command.lease.jobId command.lease.runId) commands hbefore
  obtain ⟨run, job, hcompleted, rfl⟩ := completedBy_of_complete hplain rfl rfl h
  have hstep : step (reached commands) (.complete command state artifact now) = completed := by
    rw [step, h]
    rfl
  have hreached : reached (commands ++ .complete command state artifact now :: more) =
      Run.run step completed more := by
    rw [reached_append, Run.run_cons, hstep]
  have hrows' : Workflow.Rows completed :=
    hstep ▸ rows_step hrows (.complete command state artifact now)
  have halone' : Alone command.lease.jobId command.lease.runId completed :=
    hstep ▸ (turns_step hrows halone (.complete command state artifact now) trivial).alone halone
  have hstored : completed.run command.lease.runId ≠ none := by
    rw [hcompleted.run_stored]
    exact Option.some_ne_none _
  have happart := closed_run hrows' halone' hcompleted.ended hstored more hmore
  rw [hreached]
  exact (hcompleted.apart happart).complete_iff hjob hrun

end Cycle

namespace PaperCycleScenario

section

variable [Hashing]

def cancellation : CancelPaperCycle :=
    ⟨3, 2, "operator", "stopped", by decide, by decide, by decide⟩

def late : List CycleCommand :=
  [.checkpoint (attempt "second" 2 6 50) evidence evidence.stateHash 40,
    .workflow (.operation (.claim ⟨"third", 30, 7⟩ [], 60))]

def output (stage : PaperCycleStage) (refType : String) (hne : refType ≠ "")
    (hvalid : OutputValid stage [⟨refType, "1", 7, hne, by decide⟩]) : PaperCycleStageOutput where
  stage := stage
  references := [⟨refType, "1", 7, hne, by decide⟩]
  valid := hvalid

/-- The outputs of a cycle without orders. -/
def outputs : List PaperCycleStageOutput :=
  evidence.outputs ++ [
    output .researchOpinion "research_artifact" (by decide) (by decide),
    output .signal "alpha_signal" (by decide) (by decide),
    output .portfolioTarget "portfolio_target" (by decide) (by decide),
    output .riskDecision "risk_decision" (by decide) (by decide),
    ⟨.orderIntent, [], by decide⟩, ⟨.executionReceipt, [], by decide⟩,
    output .ledger "ledger_projection" (by decide) (by decide),
    output .report "analysis_report" (by decide) (by decide)]

/-- The state after the first stages. -/
def stagesDone (n : ℕ) : PaperCycleState :=
  if h : CanonicalOutputs (outputs.take n) ∧ ReceiptsMatchOrders (outputs.take n) then
    ⟨3, inputHash, outputs.take n, h.1, h.2⟩
  else genesis

def worker : RunPaperCycle := attempt "first" 1 5 90

/-- One worker takes the cycle through all its stages. -/
def staged : List CycleCommand :=
  [.workflow (.operation (.create request, 0)), .workflow (.operation (.enqueue job, 1)),
    .workflow (.operation (.claim ⟨"first", 80, 5⟩ [], 10))] ++
    (List.range 9).map fun n =>
      .checkpoint worker (stagesDone (n + 1)) (stagesDone n).stateHash 20

def artifact : ArtifactManifest where
  contentHash := 900
  sizeBytes := 10
  mediaType := "application/json"
  licenseTag := "Apache-2.0"
  sensitivity := "internal"
  source := "stonks-agent-paper-cycle"
  attributes := [("run_id", toString 3), ("schema", "paper-fund-cycle-result/1.0.0"),
    ("state_hash", toString (stagesDone 9).stateHash)]
  finalizedAt := 35
  storageUri := "artifact"

end

open scoped PlainColumns

section

open scoped CodeHashing

theorem cancellation_repeats_late : ∃ result cancelled,
    (Cycle.reached retried).cancelCycle cancellation 30 = .success (result, cancelled) ∧
      (Cycle.reached (retried ++ .cancel cancellation 30 :: late)).cancelCycle cancellation 70 =
        .success (result, Cycle.reached (retried ++ .cancel cancellation 30 :: late)) := by
  have hsucceeds : ((Cycle.reached retried).cancelCycle cancellation 30).Succeeds := by
    decide +kernel
  obtain ⟨answer, hanswer⟩ := hsucceeds
  refine ⟨answer.1, answer.2, hanswer, ?_⟩
  exact (Cycle.cancellation_repeats PlainColumns.keepsPlain 31 cancellation cancellation retried
    late
    30 70 answer.1 answer.1 answer.2 _ (by decide +kernel) rfl hanswer).mpr ⟨rfl, rfl, rfl⟩

end

namespace DigestHashing

/-- A short digest, which tells the states of the scenario apart. -/
def digest : Payload → ℕ
  | .int n => n.natAbs + 1
  | .cons head tail => digest head + digest tail + 1
  | _ => 1

scoped instance digests : Hashing := ⟨digest, digest⟩

end DigestHashing

section

open scoped DigestHashing

theorem completion_repeats_late : ∃ result completed,
    (Cycle.reached staged).completeCycle worker (stagesDone 9) artifact 40 =
        .success (result, completed) ∧
      (Cycle.reached (staged ++ .complete worker (stagesDone 9) artifact 40 :: late)).completeCycle
          worker (stagesDone 9) artifact 95 =
        .success (result,
          Cycle.reached (staged ++ .complete worker (stagesDone 9) artifact 40 :: late)) := by
  have hsucceeds :
      ((Cycle.reached staged).completeCycle worker (stagesDone 9) artifact 40).Succeeds := by
    decide +kernel
  obtain ⟨answer, hanswer⟩ := hsucceeds
  refine ⟨answer.1, answer.2, hanswer, ?_⟩
  exact (Cycle.completion_repeats PlainColumns.keepsPlain worker worker (stagesDone 9)
    (stagesDone 9) artifact artifact staged late 40 95 answer.1 answer.1 answer.2 _
    (by decide +kernel) rfl rfl hanswer).mpr ⟨⟨rfl, rfl, rfl, rfl, rfl⟩, rfl, rfl, rfl⟩

end

end PaperCycleScenario

end StonksPaper
