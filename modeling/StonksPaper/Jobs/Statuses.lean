import StonksPaper.Jobs.Workflow

/-!
# Which writers follow the status table

Only the transition of the workflow store asks the table. A completion, a failure, a dead letter and
a snapshot set the status of the run from the state of one job.
-/

namespace StonksPaper

section

variable [Hashing] [JsonColumn] {s s' : Queue} {run : WorkflowRunRow} {job : JobRow}
  {t : Queue.Transition} {now : UTCDateTime} {runId : UUID} {status : WorkflowStatus}

namespace Workflow

/-! ## The status of a run -/

def statusOf (s : Queue) (runId : UUID) : Option WorkflowStatus := (s.run runId).map (·.status)

/-- Between two states, the status of a run stays or goes where the table allows. -/
structure StatusFollows (s s' : Queue) : Prop where
  allowed : ∀ runId before after, statusOf s runId = some before → statusOf s' runId = some after →
    after = before ∨ before.canTransition after
  final : ∀ runId before after, statusOf s runId = some before → statusOf s' runId = some after →
    before.Finished → after = before

omit [Hashing] [JsonColumn] in
theorem statusFollows_of_allowed (h : ∀ runId before after, statusOf s runId = some before →
    statusOf s' runId = some after → after = before ∨ before.canTransition after) :
    StatusFollows s s' := by
  refine ⟨h, fun runId before after hbefore hafter hfinished => ?_⟩
  exact (h runId before after hbefore hafter).resolve_right
    (WorkflowStatus.not_canTransition_of_finished hfinished after)

omit [Hashing] [JsonColumn] in
theorem statusFollows_of_kept (h : ∀ runId before, statusOf s runId = some before →
    statusOf s' runId = some before) : StatusFollows s s' := by
  refine statusFollows_of_allowed fun runId before after hbefore hafter => .inl ?_
  rw [h runId before hbefore] at hafter
  exact (Option.some.inj hafter).symm

omit [Hashing] [JsonColumn] in
theorem statusFollows_of_runs_eq (h : s'.runs = s.runs) : StatusFollows s s' := by
  refine statusFollows_of_kept fun runId before hbefore => ?_
  unfold statusOf Queue.run at *
  rwa [h]

/-- The writer sets the status of one run. -/
structure Sets (s : Queue) (run : WorkflowRunRow) (status : WorkflowStatus) (s' : Queue) :
    Prop where
  stored : s.run run.runId = some run
  self : statusOf s' run.runId = some status
  others : ∀ runId, runId ≠ run.runId → statusOf s' runId = statusOf s runId

omit [Hashing] [JsonColumn] in
/-- Such a writer follows the table exactly when the table has what it sets. -/
theorem Sets.follows_iff (h : Sets s run status s') :
    StatusFollows s s' ↔ status = run.status ∨ run.status.canTransition status := by
  have hbefore : statusOf s run.runId = some run.status := by
    unfold statusOf
    rw [h.stored]
    rfl
  constructor
  · intro hfollows
    exact hfollows.allowed run.runId _ _ hbefore h.self
  · intro hallowed
    refine statusFollows_of_allowed fun runId before after hold hnew => ?_
    by_cases hid : runId = run.runId
    · rw [hid, hbefore] at hold
      rw [hid, h.self] at hnew
      rw [← Option.some.inj hold, ← Option.some.inj hnew]
      exact hallowed
    · rw [h.others runId hid, hold] at hnew
      exact .inl (Option.some.inj hnew).symm

omit [Hashing] [JsonColumn] in
theorem sets_of_update {row : WorkflowRunRow} (hrun : s.run run.runId = some run)
    (hid : row.runId = run.runId)
    (hruns : s'.runs = Table.update (·.runId = run.runId) (fun _ => row) s.runs) :
    Sets s run row.status s' := by
  have hget (runId : UUID) : s'.run runId =
      (s.run runId).map fun r => if r.runId = run.runId then row else r := by
    unfold Queue.run
    rw [hruns]
    exact Table.get_update fun r hr => hid.trans hr.symm
  refine ⟨hrun, ?_, fun runId hne => ?_⟩
  · unfold statusOf
    rw [hget, hrun]
    simp
  · unfold statusOf
    rw [hget]
    cases hother : s.run runId with
    | none => rfl
    | some other =>
        have hkey : other.runId ≠ run.runId := by
          rw [(Queue.run_of_eq_some hother).2]
          exact hne
        simp [hkey]

variable (t now) in
theorem sets_committed (hrun : s.run job.runId = some run) :
    Sets s run t.runStatus (s.committed run t now) := by
  have hself : s.run run.runId = some run := by
    rw [(Queue.run_of_eq_some hrun).2]
    exact hrun
  show Sets s run (Queue.auditedRun run t now).status _
  exact sets_of_update hself rfl rfl

/-- The runs of the listed jobs have failed; all others are as they were. -/
def FailsRuns (s : Queue) (jobs : List JobRow) (s' : Queue) : Prop :=
  ∀ runId, statusOf s' runId =
    if ∃ job ∈ jobs, job.runId = runId then some .failed else statusOf s runId

theorem failsRuns_of_deadLetterJobs {jobs : List JobRow}
    (h : jobs.foldlM (fun s job => s.deadLetterJob now job) s = .success s') :
    FailsRuns s jobs s' := by
  induction jobs generalizing s with
  | nil =>
      obtain rfl : s = s' := by simpa using h
      intro runId
      simp
  | cons job jobs ih =>
      rw [List.foldlM_cons] at h
      obtain ⟨next, hnext, hrest⟩ := Attempt.bind_eq_success.mp h
      obtain ⟨-, -, run, hrun, -, reason, -, -, rfl⟩ := Queue.deadLetterJob_eq_success.mp hnext
      have hsets : Sets s run .failed _ :=
        sets_committed (Queue.deadLettered job reason now) now hrun
      have howner : run.runId = job.runId := (Queue.run_of_eq_some hrun).2
      intro runId
      rw [ih hrest runId]
      by_cases hlater : ∃ other ∈ jobs, other.runId = runId
      · have hlisted : ∃ other ∈ job :: jobs, other.runId = runId := by
          obtain ⟨other, hother, hid⟩ := hlater
          exact ⟨other, List.mem_cons_of_mem _ hother, hid⟩
        rw [if_pos hlater, if_pos hlisted]
      · rw [if_neg hlater]
        by_cases hid : job.runId = runId
        · rw [if_pos ⟨job, List.mem_cons_self .., hid⟩, ← hid, ← howner]
          exact hsets.self
        · have hunlisted : ¬ ∃ other ∈ job :: jobs, other.runId = runId := by
            rintro ⟨other, hother, hsame⟩
            rcases List.mem_cons.mp hother with rfl | hother
            · exact hid hsame
            · exact hlater ⟨other, hother, hsame⟩
          rw [if_neg hunlisted]
          exact hsets.others runId fun hsame => hid (howner.symm.trans hsame.symm)

/-! ## The writers -/

def MayFail (status : WorkflowStatus) : Prop := status ≠ .succeeded ∧ status ≠ .cancelled

instance (status : WorkflowStatus) : Decidable (MayFail status) :=
    inferInstanceAs (Decidable (_ ∧ _))

def MaySucceed (status : WorkflowStatus) : Prop :=
  status = .running ∨ status = .degraded ∨ status = .succeeded

instance (status : WorkflowStatus) : Decidable (MaySucceed status) :=
  inferInstanceAs (Decidable (_ ∨ _))

omit [Hashing] [JsonColumn] in
theorem mayFail_iff : MayFail status ↔
    WorkflowStatus.failed = status ∨ status.canTransition .failed := by
  cases status <;> decide

omit [Hashing] [JsonColumn] in
theorem maySucceed_iff : MaySucceed status ↔
    WorkflowStatus.succeeded = status ∨ status.canTransition .succeeded := by
  cases status <;> decide

/-- What a command has to find, if it is carried out, so that it follows the status table. -/
def Respects (s : Queue) : WorkflowCommand → Prop
  | .operation (.claim request locked, now) =>
      (request.WorkerIsValid ∧ 0 < request.leaseFor ∧
        (s.claimTransaction request locked now).Succeeds) →
      ∀ job ∈ s.unclaimable locked now, ∀ run ∈ s.run job.runId, MayFail run.status
  | .operation (.complete request manifest, now) =>
      (s.complete request manifest now).Succeeds →
      ∀ job ∈ s.job request.jobId, job.status ≠ .succeeded → Queue.endsRun job.jobType →
      ∀ run ∈ s.run job.runId, MaySucceed run.status
  | .operation (.fail request, now) =>
      (s.fail request now).Succeeds →
      ∀ job ∈ s.job request.jobId, job.status ≠ .deadLetter →
      ∀ run ∈ s.run job.runId, MayFail run.status
  | .operation (.completeSnapshot request content, now) =>
      (s.completeSnapshot request content now).Succeeds →
      ∀ job ∈ s.job request.jobId, job.status ≠ .succeeded →
      ∀ run ∈ s.run job.runId, MaySucceed run.status
  | _ => True

omit [Hashing] [JsonColumn] in
theorem runs_of_updateJob [JsonColumn] {row : JobRow} {lastError : Option Payload}
    (h : s.updateJob row lastError = .success s') : s'.runs = s.runs := by
  obtain ⟨-, -, rfl⟩ := Queue.updateJob_eq_success.mp h
  rfl

omit [Hashing] [JsonColumn] in
theorem failsRuns_follows_iff {jobs : List JobRow} (h : FailsRuns s jobs s') :
    StatusFollows s s' ↔ ∀ job ∈ jobs, ∀ run ∈ s.run job.runId, MayFail run.status := by
  constructor
  · intro hfollows job hjob run hrun
    have hbefore : statusOf s job.runId = some run.status := by
      unfold statusOf
      rw [hrun]
      rfl
    have hafter : statusOf s' job.runId = some .failed := by
      rw [h job.runId, if_pos ⟨job, hjob, rfl⟩]
    exact mayFail_iff.mpr (hfollows.allowed _ _ _ hbefore hafter)
  · intro hmay
    refine statusFollows_of_allowed fun runId before after hbefore hafter => ?_
    rw [h runId] at hafter
    by_cases hlisted : ∃ job ∈ jobs, job.runId = runId
    · rw [if_pos hlisted] at hafter
      obtain ⟨job, hjob, hid⟩ := hlisted
      obtain ⟨run, hrun, hstatus⟩ := Option.map_eq_some_iff.mp hbefore
      rw [← hid] at hrun
      have hallowed := mayFail_iff.mp (hmay job hjob run hrun)
      rw [hstatus] at hallowed
      rw [← Option.some.inj hafter]
      exact hallowed
    · rw [if_neg hlisted, hbefore] at hafter
      exact .inl (Option.some.inj hafter).symm

theorem claim_follows_iff (s : Queue) (request : ClaimJob) (locked : List UUID)
    (now : UTCDateTime) : StatusFollows s (s.claim request locked now).2 ↔
      Respects s (.operation (.claim request locked, now)) := by
  by_cases hvalid : request.WorkerIsValid ∧ 0 < request.leaseFor
  · cases htransaction : s.claimTransaction request locked now with
    | success result =>
        obtain ⟨lease, s'⟩ := result
        have hclaim : (s.claim request locked now).2 = s' := by
          unfold Queue.claim
          rw [if_neg (not_not.mpr hvalid.1), if_neg (not_le.mpr hvalid.2), htransaction]
          cases lease with
          | none => rfl
          | some lease => rfl
        obtain ⟨retired, hretired, hlease⟩ := Queue.claimTransaction_eq_success.mp htransaction
        have hfails := failsRuns_of_deadLetterJobs hretired
        have hruns : s'.runs = retired.runs := by
          rcases hlease with ⟨-, -, rfl⟩ | ⟨job, -, hupdate, -⟩
          · rfl
          · exact runs_of_updateJob hupdate
        have hfails' : FailsRuns s (s.unclaimable locked now) s' := by
          intro runId
          rw [← hfails runId]
          unfold statusOf Queue.run
          rw [hruns]
        rw [hclaim, failsRuns_follows_iff hfails']
        show _ ↔ (_ ∧ _ ∧ (s.claimTransaction request locked now).Succeeds → _)
        rw [htransaction]
        exact ⟨fun h _ => h, fun h => h ⟨hvalid.1, hvalid.2, _, rfl⟩⟩
    | failure error =>
        have hclaim : (s.claim request locked now).2 = s := by
          unfold Queue.claim
          rw [if_neg (not_not.mpr hvalid.1), if_neg (not_le.mpr hvalid.2), htransaction]
          rfl
        rw [hclaim]
        refine ⟨fun _ hdone => ?_, fun _ => statusFollows_of_runs_eq rfl⟩
        obtain ⟨-, -, result, hresult⟩ := hdone
        rw [htransaction] at hresult
        cases hresult
    | raised error =>
        have hclaim : (s.claim request locked now).2 = s := by
          unfold Queue.claim
          rw [if_neg (not_not.mpr hvalid.1), if_neg (not_le.mpr hvalid.2), htransaction]
          cases error <;> rfl
        rw [hclaim]
        refine ⟨fun _ hdone => ?_, fun _ => statusFollows_of_runs_eq rfl⟩
        obtain ⟨-, -, result, hresult⟩ := hdone
        rw [htransaction] at hresult
        cases hresult
  · have hclaim : (s.claim request locked now).2 = s := by
      unfold Queue.claim
      by_cases hworker : request.WorkerIsValid
      · rw [if_neg (not_not.mpr hworker), if_pos (not_lt.mp fun hpos => hvalid ⟨hworker, hpos⟩)]
      · rw [if_pos hworker]
    rw [hclaim]
    refine ⟨fun _ hdone => absurd ⟨hdone.1, hdone.2.1⟩ hvalid,
      fun _ => statusFollows_of_runs_eq rfl⟩

omit [Hashing] [JsonColumn] in
/-- A call follows the table exactly when it does so whenever it succeeds. -/
theorem kept_follows_iff {α : Type} {call : QueueCall (α × Queue)} {P : Prop}
    (h : ∀ a s', call = .success (a, s') → (StatusFollows s s' ↔ P)) :
    StatusFollows s (s.kept call) ↔ (call.Succeeds → P) := by
  cases hcall : call with
  | success result =>
      obtain ⟨a, s'⟩ := result
      show StatusFollows s s' ↔ _
      rw [h a s' hcall]
      exact ⟨fun hP _ => hP, fun hP => hP ⟨_, rfl⟩⟩
  | failure error =>
      refine ⟨fun _ hdone => ?_, fun _ => statusFollows_of_runs_eq rfl⟩
      obtain ⟨result, hresult⟩ := hdone
      cases hresult
  | raised error =>
      refine ⟨fun _ hdone => ?_, fun _ => statusFollows_of_runs_eq rfl⟩
      obtain ⟨result, hresult⟩ := hdone
      cases hresult

omit [Hashing] [JsonColumn] in
theorem Sets.of_runs_eq {registered : Queue} (h : Sets registered run status s')
    (hruns : registered.runs = s.runs) : Sets s run status s' := by
  refine ⟨?_, h.self, fun runId hne => ?_⟩
  · rw [← h.stored]
    unfold Queue.run
    rw [hruns]
  · rw [h.others runId hne]
    unfold statusOf Queue.run
    rw [hruns]

theorem complete_follows_iff (s : Queue) (request : CompleteJob)
    (manifest : Option ArtifactManifest) (now : UTCDateTime) :
    StatusFollows s (s.kept (s.complete request manifest now)) ↔
      Respects s (.operation (.complete request manifest, now)) := by
  refine kept_follows_iff fun receipt s' h => ?_
  obtain ⟨job, hjob, -, ⟨hrepeated, -, rfl⟩ | ⟨hactive, h⟩⟩ := Queue.complete_eq_success.mp h
  · refine ⟨fun _ job' hjob' hnot => ?_, fun _ => statusFollows_of_runs_eq rfl⟩
    rw [hjob] at hjob'
    cases hjob'
    exact absurd hrepeated hnot
  · obtain ⟨-, -, registered, run, artifact, hregister, hrun, -, -, rfl, -⟩ :=
      Queue.completeActiveJob_eq_success h
    have hruns : registered.runs = s.runs := by
      rcases hregister with rfl | ⟨row, hinsert⟩
      · rfl
      · exact (Queue.jobs_of_insertArtifact hinsert).2
    have hsets := (sets_committed (Queue.completed job run artifact request now) now
        hrun).of_runs_eq hruns
    have hrun' : s.run job.runId = some run := by
      rw [← hrun]
      unfold Queue.run
      rw [hruns]
    rw [hsets.follows_iff]
    constructor
    · intro hallowed job' hjob' _ hends run' hstored
      rw [hjob] at hjob'
      cases hjob'
      rw [hrun'] at hstored
      cases hstored
      have hstatus : (Queue.completed job run artifact request now).runStatus = .succeeded :=
        if_pos hends
      rw [hstatus] at hallowed
      exact maySucceed_iff.mpr hallowed
    · intro hmay
      by_cases hends : Queue.endsRun job.jobType
      · have hstatus : (Queue.completed job run artifact request now).runStatus = .succeeded :=
          if_pos hends
        rw [hstatus]
        exact maySucceed_iff.mp (hmay job hjob hactive hends run hrun')
      · exact .inl (if_neg hends)

theorem fail_follows_iff (s : Queue) (request : FailJob) (now : UTCDateTime) :
    StatusFollows s (s.kept (s.fail request now)) ↔
      Respects s (.operation (.fail request, now)) := by
  refine kept_follows_iff fun receipt s' h => ?_
  obtain ⟨job, hjob, -, ⟨hrepeated, -, rfl⟩ | ⟨hactive, h⟩⟩ := Queue.fail_eq_success.mp h
  · refine ⟨fun _ job' hjob' hnot => ?_, fun _ => statusFollows_of_runs_eq rfl⟩
    rw [hjob] at hjob'
    cases hjob'
    exact absurd hrepeated hnot
  · obtain ⟨-, -, -, run, hrun, -, rfl, -⟩ := Queue.failActiveJob_eq_success h
    have hsets := sets_committed (Queue.explicitlyFailed job run request now) now hrun
    rw [hsets.follows_iff]
    constructor
    · intro hallowed job' hjob' _ run' hrun'
      rw [hjob] at hjob'
      cases hjob'
      rw [hrun] at hrun'
      cases hrun'
      exact mayFail_iff.mpr hallowed
    · intro hmay
      exact mayFail_iff.mp (hmay job hjob hactive run hrun)

/-- A failed snapshot attempt is recorded for a run that is pending or running. -/
theorem snapshotFailure_follows (s : Queue) (request : FailSnapshotJob) (context : SnapshotContext)
    (now : UTCDateTime) :
    StatusFollows s (s.kept (s.recordSnapshotFailure request context now)) := by
  rw [kept_follows_iff (P := True)]
  · exact fun _ => trivial
  intro receipt s' h
  refine ⟨fun _ => trivial, fun _ => ?_⟩
  unfold Queue.recordSnapshotFailure at h
  simp only [QueueCall.handled_eq_success, Attempt.bind_eq_success,
    QueueCall.accepted_eq_success, QueueCall.orRefused_eq_success,
    Queue.commitTransition_eq_success, Queue.activeRequestContext, Attempt.pure_eq,
    Attempt.success.injEq, Prod.mk.injEq] at h
  obtain ⟨job, -, _, -, run, hrun, _, ⟨asked, -, _, ⟨-, hawaits⟩, -⟩, _, -, _, ⟨-, rfl⟩, -,
    rfl⟩ := h
  have hsets := sets_committed (Queue.attemptFailed job request now) now hrun
  rw [hsets.follows_iff]
  show (if _ then _ else _) = run.status ∨ run.status.canTransition (if _ then _ else _)
  rcases hawaits.2.1 with hpending | hrunning
  · rw [hpending]
    split <;> decide
  · rw [hrunning]
    split <;> decide

theorem completeSnapshot_follows_iff (s : Queue) (request : CompleteSnapshotJob)
    (content : SnapshotContent) (now : UTCDateTime) :
    StatusFollows s (s.kept (s.completeSnapshot request content now)) ↔
      Respects s (.operation (.completeSnapshot request content, now)) := by
  refine kept_follows_iff fun receipt s' h => ?_
  unfold Queue.completeSnapshot at h
  rw [QueueCall.handled_eq_success] at h
  simp only [Attempt.bind_eq_success, QueueCall.orRefused_eq_success] at h
  obtain ⟨job, hjob, h⟩ := h
  split at h
  · rename_i hrepeated
    obtain ⟨_, -, h⟩ := Attempt.bind_eq_success.mp h
    obtain rfl : s = s' := by simpa using (Prod.mk.inj (Attempt.success.inj h)).2
    refine ⟨fun _ job' hjob' hnot => ?_, fun _ => statusFollows_of_runs_eq rfl⟩
    rw [hjob] at hjob'
    cases hjob'
    exact absurd hrepeated hnot
  · rename_i hactive
    simp only [Queue.completeActiveSnapshot, Attempt.bind_eq_success,
      QueueCall.accepted_eq_success, QueueCall.orRefused_eq_success,
      Queue.commitTransition_eq_success, Attempt.pure_eq, Attempt.success.injEq,
      Prod.mk.injEq] at h
    obtain ⟨_, -, _, -, run, hrun, _, -, _, -, _, -, added, hadded, _, ⟨-, rfl⟩, -, rfl⟩ := h
    have hruns := (Queue.files_of_addArtifacts hadded).others.1
    have hrun' : added.run job.runId = some run := by
      rw [← hrun]
      unfold Queue.run
      rw [hruns]
    have hsets := (sets_committed (Queue.snapshotCompleted job request now) now hrun').of_runs_eq
        hruns
    rw [hsets.follows_iff]
    constructor
    · intro hallowed job' hjob' _ run' hstored
      rw [hjob] at hjob'
      cases hjob'
      rw [hrun] at hstored
      cases hstored
      exact maySucceed_iff.mpr hallowed
    · intro hmay
      exact maySucceed_iff.mp (hmay job hjob hactive run hrun)

omit [Hashing] [JsonColumn] in
theorem create_follows (s : Queue) (request : CreateWorkflowRun) :
    StatusFollows s (s.kept (s.create request)) := by
  refine Queue.kept_of_success (P := StatusFollows s) (statusFollows_of_runs_eq rfl)
    fun record s' h => ?_
  rcases Queue.create_eq_success h with rfl | hinsert
  · exact statusFollows_of_runs_eq rfl
  · obtain ⟨-, rfl⟩ := Queue.insertRun_eq_success.mp hinsert
    refine statusFollows_of_kept fun runId before hbefore => ?_
    obtain ⟨run, hrun, hstatus⟩ := Option.map_eq_some_iff.mp hbefore
    exact Option.map_eq_some_iff.mpr ⟨run, Table.get_concat_of_some hrun, hstatus⟩

theorem enqueue_follows (s : Queue) (request : EnqueueJob) :
    StatusFollows s (s.kept (s.enqueue request)) := by
  refine Queue.kept_of_success (P := StatusFollows s) (statusFollows_of_runs_eq rfl)
    fun record s' h => ?_
  rcases Queue.enqueue_eq_success h with rfl | hinsert
  · exact statusFollows_of_runs_eq rfl
  · obtain ⟨-, -, rfl⟩ := Queue.insertJob_eq_success.mp hinsert
    exact statusFollows_of_runs_eq rfl

omit [Hashing] [JsonColumn] in
theorem transition_follows (s : Queue) (request : TransitionRun) :
    StatusFollows s (s.kept (s.transition request)) := by
  rcases transition_cases s request with ⟨hsame, -⟩ | ⟨current, hrun, hallowed, -, hupdated⟩
  · rw [hsame]
    exact statusFollows_of_runs_eq rfl
  · have hself : s.run current.runId = some current := by
      rw [(Queue.run_of_eq_some hrun).2]
      exact hrun
    have hruns : (s.kept (s.transition request)).runs = Table.update (·.runId = current.runId)
        (fun _ => current.transitioned request) s.runs := by rw [hupdated]
    have hid : (current.transitioned request).runId = current.runId := rfl
    exact (sets_of_update hself hid hruns).follows_iff.mpr (.inr hallowed)

/-- A command follows the status table exactly when it finds what it has to. -/
theorem step_follows_iff (s : Queue) (command : WorkflowCommand) :
    StatusFollows s (step s command) ↔ Respects s command := by
  cases command with
  | transition request => exact ⟨fun _ => trivial, fun _ => transition_follows s request⟩
  | operation op =>
      obtain ⟨op, now⟩ := op
      cases op with
      | create request => exact ⟨fun _ => trivial, fun _ => create_follows s request⟩
      | enqueue request => exact ⟨fun _ => trivial, fun _ => enqueue_follows s request⟩
      | claim request locked => exact claim_follows_iff s request locked now
      | complete request manifest => exact complete_follows_iff s request manifest now
      | fail request => exact fail_follows_iff s request now
      | recordSnapshotFailure request context =>
          exact ⟨fun _ => trivial, fun _ => snapshotFailure_follows s request context now⟩
      | completeSnapshot request content => exact completeSnapshot_follows_iff s request content now

/-! ## Runs -/

/-- Every step of the run follows the status table. -/
def StatusesFollow (commands : List WorkflowCommand) : Prop :=
  ∀ before command after, commands = before ++ command :: after →
    StatusFollows (reached before) (reached (before ++ [command]))

/-- The statuses of all runs follow the table exactly as long as every command finds what it has
to. -/
theorem statusesFollow_iff (commands : List WorkflowCommand) :
    StatusesFollow commands ↔ Run.Meets step Respects Queue.migrated commands := by
  rw [Run.meets_iff]
  unfold StatusesFollow
  refine forall_congr' fun before => forall_congr' fun command => forall_congr' fun after =>
    imp_congr_right fun _ => ?_
  rw [reached_append]
  exact step_follows_iff (reached before) command

end Workflow

end

/-! ## A failure after a success -/

namespace ResearchScenario

open scoped CodeHashing PlainColumns

def completed : List WorkflowCommand := (claimed ++ [complete]).map .operation

def thenFailed : List WorkflowCommand := failed.map .operation

/-- The first job ends the run, and the failure of the second ends it again. -/
theorem succeeded_then_failed :
    Workflow.statusOf (Workflow.reached (completed ++ thenFailed.take 1)) 2 = some .succeeded ∧
      Workflow.statusOf (Workflow.reached (completed ++ thenFailed)) 2 = some .failed ∧
      ¬ Workflow.StatusesFollow (completed ++ thenFailed) := by
  have hsucceeded : Workflow.statusOf (Workflow.reached (completed ++ thenFailed.take 1)) 2 =
      some .succeeded := by decide +kernel
  have hfailed : Workflow.statusOf (Workflow.reached (completed ++ thenFailed)) 2 =
      some .failed := by decide +kernel
  refine ⟨hsucceeded, hfailed, fun h => ?_⟩
  have hfollows := h (completed ++ thenFailed.take 1) (.operation (.fail failure, 25)) [] rfl
  have hafter := hfollows.final 2 _ _ hsucceeded hfailed (.inl rfl)
  cases hafter

end ResearchScenario

end StonksPaper
