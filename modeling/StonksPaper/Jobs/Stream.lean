import StonksPaper.Jobs.Projection

/-!
# When the event stream only grows

Rows are never deleted, and a job that has started stays so. What a read has shown is shown again
exactly when no later write has changed the times and the ending that it was computed from.
-/

namespace StonksPaper

section

variable [Hashing] [JsonColumn] {s s' : Queue} {run : WorkflowRunRow} {job : JobRow}

namespace Workflow

/-- What two states on one run of the machine share. -/
structure Later (s s' : Queue) : Prop where
  runs : ∀ run ∈ s.runs, ∃ run' ∈ s'.runs, run'.runId = run.runId ∧ run'.createdAt = run.createdAt
  jobs : ∀ job ∈ s.jobs, ∃ job' ∈ s'.jobs, job'.jobId = job.jobId ∧ job'.runId = job.runId ∧
    (job.Started → job'.Started)

omit [Hashing] [JsonColumn] in
theorem later_refl (s : Queue) : Later s s :=
  ⟨fun run hrun => ⟨run, hrun, rfl, rfl⟩, fun job hjob => ⟨job, hjob, rfl, rfl, id⟩⟩

omit [Hashing] [JsonColumn] in
theorem Later.trans {s'' : Queue} (h : Later s s') (h' : Later s' s'') : Later s s'' := by
  constructor
  · intro run hrun
    obtain ⟨run', hrun', hid, hcreated⟩ := h.runs run hrun
    obtain ⟨run'', hrun'', hid', hcreated'⟩ := h'.runs run' hrun'
    exact ⟨run'', hrun'', hid'.trans hid, hcreated'.trans hcreated⟩
  · intro job hjob
    obtain ⟨job', hjob', hid, howner, hstarted⟩ := h.jobs job hjob
    obtain ⟨job'', hjob'', hid', howner', hstarted'⟩ := h'.jobs job' hjob'
    exact ⟨job'', hjob'', hid'.trans hid, howner'.trans howner, hstarted' ∘ hstarted⟩

omit [Hashing] [JsonColumn] in
theorem runs_updated {row : WorkflowRunRow} (hunique : Table.Unique (·.runId) s.runs)
    (hrun : run ∈ s.runs) (hid : row.runId = run.runId) (hcreated : row.createdAt = run.createdAt) :
    ∀ r ∈ s.runs, ∃ r' ∈ Table.update (·.runId = run.runId) (fun _ => row) s.runs,
      r'.runId = r.runId ∧ r'.createdAt = r.createdAt := by
  intro r hr
  refine ⟨_, Table.mem_update.mpr ⟨r, hr, rfl⟩, ?_⟩
  by_cases hsame : r.runId = run.runId
  · rw [if_pos hsame, hunique.eq hr hrun hsame]
    exact ⟨hid, hcreated⟩
  · rw [if_neg hsame]
    exact ⟨rfl, rfl⟩

omit [Hashing] [JsonColumn] in
theorem jobs_updated {row : JobRow} {jobId : UUID} (hunique : Table.Unique (·.jobId) s.jobs)
    (hjob : job ∈ s.jobs) (hkey : jobId = job.jobId) (hid : row.jobId = job.jobId)
    (howner : row.runId = job.runId) (hstarted : job.Started → row.Started) :
    ∀ r ∈ s.jobs, ∃ r' ∈ Table.update (·.jobId = jobId) (fun _ => row) s.jobs,
      r'.jobId = r.jobId ∧ r'.runId = r.runId ∧ (r.Started → r'.Started) := by
  intro r hr
  refine ⟨_, Table.mem_update.mpr ⟨r, hr, rfl⟩, ?_⟩
  by_cases hsame : r.jobId = jobId
  · rw [if_pos hsame, hunique.eq hr hjob (hsame.trans hkey)]
    exact ⟨hid, howner, hstarted⟩
  · rw [if_neg hsame]
    exact ⟨rfl, rfl, id⟩

theorem later_change (h : Rows s) (hchange : Queue.Change s s') : Later s s' := by
  cases hchange with
  | quiet hquiet =>
      cases hquiet with
      | run request hinsert =>
          obtain ⟨-, rfl⟩ := Queue.insertRun_eq_success.mp hinsert
          exact { later_refl s with
            runs := fun run hrun => ⟨run, List.mem_append_left _ hrun, rfl, rfl⟩ }
      | job request hinsert =>
          obtain ⟨-, -, rfl⟩ := Queue.insertJob_eq_success.mp hinsert
          exact { later_refl s with
            jobs := fun job hjob => ⟨job, List.mem_append_left _ hjob, rfl, rfl, id⟩ }
      | artifact row hinsert =>
          obtain ⟨-, rfl⟩ := Queue.insertArtifact_eq_success.mp hinsert
          exact ⟨(later_refl s).runs, (later_refl s).jobs⟩
      | @transition job run t now hjob hrun howner hmarks hcan =>
          refine ⟨runs_updated h.runs_unique hrun rfl rfl,
            jobs_updated h.jobs_unique hjob hmarks.jobId hmarks.jobId hmarks.runId ?_⟩
          intro _
          by_cases hqueued : t.marked.status = .queued
          · -- only a job that was leased is put back
            have hpos := h.claimed job hjob (hmarks.putBack hqueued).1
            exact .inl (hmarks.attempts.symm ▸ hpos)
          · exact .inr hqueued
  | @lease job now request hjob hclaimable hupdate =>
      obtain ⟨-, -, rfl⟩ := Queue.updateJob_eq_success.mp hupdate
      refine { later_refl s with jobs := jobs_updated h.jobs_unique hjob rfl rfl rfl ?_ }
      exact fun _ => .inl (Nat.succ_pos _)

theorem later_changes (h : Rows s) (hchanges : Queue.Changes s s') : Rows s' ∧ Later s s' := by
  induction hchanges with
  | refl => exact ⟨h, later_refl s⟩
  | tail _ hchange ih => exact ⟨ih.1.change hchange, ih.2.trans (later_change ih.1 hchange)⟩

omit [Hashing] [JsonColumn] in
theorem later_transition (h : Rows s) (request : TransitionRun) :
    Later s (s.kept (s.transition request)) := by
  rcases transition_cases s request with ⟨hsame, -⟩ | ⟨current, hrun, -, -, hupdated⟩
  · rw [hsame]
    exact later_refl s
  · rw [hupdated]
    have hmem := (Queue.run_of_eq_some hrun).1
    exact { later_refl s with runs := runs_updated h.runs_unique hmem rfl rfl }

theorem later_step (h : Rows s) (command : WorkflowCommand) : Later s (step s command) := by
  cases command with
  | operation op => exact (later_changes h (Queue.changes_step h.jobs_unique op)).2
  | transition request => exact later_transition h request

theorem later_run (h : Rows s) (commands : List WorkflowCommand) :
    Later s (Run.run step s commands) := by
  induction commands generalizing s with
  | nil => exact later_refl s
  | cons command commands ih => exact (later_step h command).trans (ih (h.step command))

end Workflow

/-! ## Reads -/

namespace Queue

/-- The rows that a read of the stream finds. -/
structure Reads [ResearchArtifacts] (s : Queue) (runId : UUID) (run : WorkflowRunRow) (job : JobRow)
    (result : Option ResearchWorkerResult) : Prop where
  run : s.run runId = some run
  jobs : s.jobs.filter (·.runId = runId) = [job]
  result : researchResult job = .success result

variable [ResearchArtifacts] {principal : String} {runId : UUID}

omit [Hashing] [JsonColumn] [ResearchArtifacts] in
theorem runState_eq_success : s.runState principal runId = .success (run, job) ↔
    s.run runId = some run ∧ s.jobs.filter (·.runId = runId) = [job] ∧
      run.ownerSubject = principal ∧ run.runType = "research_report" ∧
      job.jobType = "research_pipeline" := by
  unfold runState
  split
  · rename_i found only hrun hjobs
    simp only [Attempt.bind_eq_success, QueueCall.accepted_eq_success, Attempt.pure_eq,
      Attempt.success.injEq, Prod.mk.injEq, exists_const]
    constructor
    · rintro ⟨hscope, rfl, rfl⟩
      exact ⟨hrun, hjobs, hscope⟩
    · rintro ⟨hrun', hjobs', hscope⟩
      obtain rfl := Option.some.inj (hrun.symm.trans hrun')
      obtain rfl := List.singleton_inj.mp (hjobs.symm.trans hjobs')
      exact ⟨hscope, rfl, rfl⟩
  · rename_i hmissing
    simp only [QueueCall.refused, reduceCtorEq, false_iff]
    intro h
    exact hmissing run job h.1 h.2.1

omit [JsonColumn] in
theorem reads_of_eventStream {shown : List CanonicalRunEvent}
    (h : s.eventStream principal runId = .success shown) :
    ∃ run job result, s.Reads runId run job result ∧ shown = Gui.projectEvents run job result := by
  unfold eventStream at h
  simp only [Attempt.bind_eq_success, QueueCall.accepted_eq_success, Attempt.pure_eq,
    Attempt.success.injEq, Prod.exists] at h
  obtain ⟨run, job, hstate, result, hresult, _, -, rfl⟩ := h
  obtain ⟨hrun, hjobs, -⟩ := runState_eq_success.mp hstate
  exact ⟨run, job, result, ⟨hrun, hjobs, hresult⟩, rfl⟩

omit [JsonColumn] [Hashing] in
theorem Reads.unique {run' : WorkflowRunRow} {job' : JobRow}
    {result result' : Option ResearchWorkerResult} (h : s.Reads runId run job result)
    (h' : s.Reads runId run' job' result') : run' = run ∧ job' = job ∧ result' = result := by
  obtain rfl := Option.some.inj (h.run.symm.trans h'.run)
  obtain rfl := List.singleton_inj.mp (h.jobs.symm.trans h'.jobs)
  exact ⟨rfl, rfl, (Attempt.success.inj (h.result.symm.trans h'.result)).symm⟩

end Queue

namespace Workflow

variable [ResearchArtifacts] {principal principal' : String} {runId : UUID}

/-- The rows that a later read finds show again what an earlier one has shown. -/
def ShowsAgain (s s' : Queue) (runId : UUID) : Prop :=
  ∀ run job result run' job' result', s.Reads runId run job result →
    s'.Reads runId run' job' result' → Gui.ShowsAgain run job result run' job' result'

/-- The stream that a client has read is the beginning of what it reads later exactly when the job
and the run, as far as they were shown, were not written in between. -/
theorem eventStream_prefix_iff (commands more : List WorkflowCommand)
    {shown later : List CanonicalRunEvent}
    (hshown : (reached commands).eventStream principal runId = .success shown)
    (hlater : (reached (commands ++ more)).eventStream principal' runId = .success later) :
    shown <+: later ↔ ShowsAgain (reached commands) (reached (commands ++ more)) runId := by
  obtain ⟨run, job, result, hreads, rfl⟩ := Queue.reads_of_eventStream hshown
  obtain ⟨run', job', result', hreads', rfl⟩ := Queue.reads_of_eventStream hlater
  have hrows := rows_reached commands
  have hrows' := rows_reached (commands ++ more)
  have hpath : Later (reached commands) (reached (commands ++ more)) := by
    rw [reached_append]
    exact later_run hrows more
  obtain ⟨hrun, hid⟩ := Queue.run_of_eq_some hreads.run
  obtain ⟨hrun', hid'⟩ := Queue.run_of_eq_some hreads'.run
  -- the run is the same row
  obtain ⟨kept, hkept, hkeptId, hcreated⟩ := hpath.runs run hrun
  obtain rfl : kept = run' :=
    hrows'.runs_unique.eq hkept hrun' (hkeptId.trans (hid.trans hid'.symm))
  -- and so is the only job of it
  have hjob : job ∈ (reached commands).jobs ∧ job.runId = runId := by
    have hmem : job ∈ (reached commands).jobs.filter (·.runId = runId) := by
      rw [hreads.jobs]
      exact List.mem_singleton_self job
    rw [List.mem_filter, decide_eq_true_iff] at hmem
    exact hmem
  obtain ⟨stays, hstays, -, howner, hstarted⟩ := hpath.jobs job hjob.1
  have hsame : stays = job' := by
    have hmem : stays ∈ (reached (commands ++ more)).jobs.filter (·.runId = runId) :=
      List.mem_filter.mpr ⟨hstays, decide_eq_true (howner.trans hjob.2)⟩
    rw [hreads'.jobs] at hmem
    exact List.mem_singleton.mp hmem
  subst hsame
  rw [Gui.projectEvents_prefix_iff hkeptId hcreated hstarted]
  constructor
  · intro h run₁ job₁ result₁ run₂ job₂ result₂ hfirst hsecond
    obtain ⟨rfl, rfl, rfl⟩ := hreads.unique hfirst
    obtain ⟨rfl, rfl, rfl⟩ := hreads'.unique hsecond
    exact h
  · intro h
    exact h _ _ _ _ _ _ hreads hreads'

end Workflow

end

/-! ## A running event that changes -/

namespace GuiScenario

open scoped CodeHashing PlainColumns

/-- Every result is a success without a forecast. -/
scoped instance results : ResearchArtifacts := ⟨fun _ => return some ⟨.succeeded, none⟩⟩

def request : CreateWorkflowRun := ⟨3, "research_report", 0, "policy", "report", 9, "owner", 0⟩

def job : EnqueueJob := ⟨31, 3, "research_pipeline", .record "request" [], "report", 0, 100, 3, 1⟩

def artifact : ArtifactManifest where
  contentHash := 901
  sizeBytes := 10
  mediaType := "application/json"
  licenseTag := "Apache-2.0"
  sensitivity := "internal"
  source := "stonks-agent-research-worker"
  attributes := [("schema", "research-worker-result/1.0.0"), ("run_id", "3")]
  finalizedAt := 5
  storageUri := "artifact"

def queued : List WorkflowCommand := [.operation (.create request, 0), .operation (.enqueue job, 1)]

def claimed : List WorkflowCommand := [.operation (.claim ⟨"worker", 30, 7⟩ [], 10)]

def completed : List WorkflowCommand :=
  [.operation (.complete ⟨31, "worker", 1, 7, 901⟩ (some artifact), 20)]

def shown (commands : List WorkflowCommand) : List CanonicalRunEvent :=
  ((Workflow.reached commands).eventStream "owner" 3).toOption.getD []

theorem eventStream_queued :
    (Workflow.reached queued).eventStream "owner" 3 = .success (shown queued) := by
  decide +kernel

theorem eventStream_claimed : (Workflow.reached (queued ++ claimed)).eventStream "owner" 3 =
    .success (shown (queued ++ claimed)) := by decide +kernel

theorem eventStream_completed :
    (Workflow.reached (queued ++ claimed ++ completed)).eventStream "owner" 3 =
      .success (shown (queued ++ claimed ++ completed)) := by decide +kernel

/-- The claim goes on from what was shown before it. -/
theorem eventStream_prefix_iff_claimed : shown queued <+: shown (queued ++ claimed) ↔
    Workflow.ShowsAgain (Workflow.reached queued) (Workflow.reached (queued ++ claimed)) 3 :=
  Workflow.eventStream_prefix_iff queued claimed eventStream_queued eventStream_claimed

/-- The completion of the job changes the time of the event that its claim has added. -/
theorem running_event_rewritten : ¬ (∀ commands more : List WorkflowCommand, ∀ shown later,
    (Workflow.reached commands).eventStream "owner" 3 = .success shown →
    (Workflow.reached (commands ++ more)).eventStream "owner" 3 = .success later →
    shown <+: later) := by
  intro h
  have hpre := h (queued ++ claimed) completed _ _ eventStream_claimed eventStream_completed
  have hrunning : ¬ shown (queued ++ claimed) <+: shown (queued ++ claimed ++ completed) := by
    decide +kernel
  exact hrunning hpre

end GuiScenario

end StonksPaper
