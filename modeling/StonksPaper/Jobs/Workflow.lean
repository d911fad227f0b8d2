import StonksPaper.Jobs.Effects

/-!
# Runs and their status

The status table of `workflow.py`, the transition of `PostgresWorkflowStore`, which follows it, and
the machine in which a run is written by this transition as well as by the operations of the queue.
-/

namespace StonksPaper

namespace WorkflowStatus

def allowedTransitions : WorkflowStatus → List WorkflowStatus
  | pending => [running, failed, cancelled]
  | running => [degraded, succeeded, failed, cancelled]
  | degraded => [succeeded, failed, cancelled]
  | succeeded => []
  | failed => []
  | cancelled => []

def canTransition (current target : WorkflowStatus) : Prop := target ∈ current.allowedTransitions

instance (current target : WorkflowStatus) : Decidable (current.canTransition target) :=
  inferInstanceAs (Decidable (_ ∈ _))

def Finished (status : WorkflowStatus) : Prop :=
  status = succeeded ∨ status = failed ∨ status = cancelled

instance (status : WorkflowStatus) : Decidable status.Finished :=
  inferInstanceAs (Decidable (_ ∨ _))

theorem not_canTransition_of_finished {current : WorkflowStatus} (h : current.Finished)
    (target : WorkflowStatus) : ¬ current.canTransition target := by
  rcases h with rfl | rfl | rfl
  · exact List.not_mem_nil
  · exact List.not_mem_nil
  · exact List.not_mem_nil

end WorkflowStatus

/-- The arguments of `PostgresWorkflowStore.transition`. -/
structure TransitionRun where
  runId : UUID
  expectedVersion : ℕ
  newStatus : WorkflowStatus
  updatedAt : UTCDateTime

/-- The run as a transition leaves it. -/
def WorkflowRunRow.transitioned (self : WorkflowRunRow) (request : TransitionRun) :
    WorkflowRunRow :=
  { self with
    status := request.newStatus
    version := request.expectedVersion + 1
    updatedAt := request.updatedAt }

def Queue.transition (s : Queue) (request : TransitionRun) :
    QueueCall (WorkflowRunRow × Queue) := do
  let current ← .orRefused .notFound "Run was not found" (s.run request.runId)
  .accepted (current.status.canTransition request.newStatus) .conflict
    "Run transition is not allowed"
  .accepted (current.version = request.expectedVersion) .conflict
    "Run version changed concurrently"
  let s ← s.updateRun (current.transitioned request)
  return (current.transitioned request, s)

inductive WorkflowCommand where
  | operation (op : TimedQueueOperation)
  | transition (request : TransitionRun)

section

variable [Hashing] [JsonColumn] {s s' : Queue} {run : WorkflowRunRow} {job : JobRow}

namespace Workflow

def step (s : Queue) : WorkflowCommand → Queue
  | .operation op => s.step op
  | .transition request => s.kept (s.transition request)

def reached (commands : List WorkflowCommand) : Queue := Run.run step Queue.migrated commands

theorem reached_append (commands more : List WorkflowCommand) :
    reached (commands ++ more) = Run.run step (reached commands) more := Run.run_append ..

omit [Hashing] [JsonColumn] in
theorem transition_eq_success {request : TransitionRun} {row : WorkflowRunRow} :
    s.transition request = .success (row, s') ↔ ∃ current, s.run request.runId = some current ∧
      current.status.canTransition request.newStatus ∧
      current.version = request.expectedVersion ∧ row = current.transitioned request ∧
      s' = { s with runs := Table.update (·.runId = current.runId) (fun _ => row) s.runs } := by
  simp only [Queue.transition, Attempt.bind_eq_success, QueueCall.orRefused_eq_success,
    QueueCall.accepted_eq_success, Queue.updateRun_eq_success, Attempt.pure_eq,
    Attempt.success.injEq, Prod.mk.injEq, exists_const]
  constructor
  · rintro ⟨current, hrun, hallowed, hversion, _, ⟨-, rfl⟩, rfl, rfl⟩
    exact ⟨current, hrun, hallowed, hversion, rfl, rfl⟩
  · rintro ⟨current, hrun, hallowed, hversion, rfl, rfl⟩
    exact ⟨current, hrun, hallowed, hversion, _, ⟨Nat.succ_pos _, rfl⟩, rfl, rfl⟩

omit [Hashing] [JsonColumn] in
/-- A transition is refused and leaves everything, or it updates its run. -/
theorem transition_cases (s : Queue) (request : TransitionRun) :
    (s.kept (s.transition request) = s ∧ ¬ (s.transition request).Succeeds) ∨
      ∃ current, s.run request.runId = some current ∧
        current.status.canTransition request.newStatus ∧
        current.version = request.expectedVersion ∧
        s.kept (s.transition request) = { s with
          runs := Table.update (·.runId = current.runId)
            (fun _ => current.transitioned request) s.runs } := by
  cases h : s.transition request with
  | success result =>
      obtain ⟨row, s'⟩ := result
      obtain ⟨current, hrun, hallowed, hversion, rfl, rfl⟩ := transition_eq_success.mp h
      exact .inr ⟨current, hrun, hallowed, hversion, rfl⟩
  | failure error => exact .inl ⟨rfl, by simp [Attempt.Succeeds]⟩
  | raised error => exact .inl ⟨rfl, by simp [Attempt.Succeeds]⟩

/-! ## Rows -/

/-- What every writer of the tables keeps. -/
structure Rows (s : Queue) : Prop where
  runs_unique : Table.Unique (·.runId) s.runs
  jobs_unique : Table.Unique (·.jobId) s.jobs
  claimed : ∀ job ∈ s.jobs, job.status = .leased → 0 < job.attempts

omit [Hashing] [JsonColumn] in
theorem rows_migrated : Rows Queue.migrated :=
  ⟨Table.unique_nil, Table.unique_nil, fun _ h => by cases h⟩

omit [Hashing] [JsonColumn] in
theorem Rows.transition (h : Rows s) (request : TransitionRun) :
    Rows (s.kept (s.transition request)) := by
  rcases transition_cases s request with ⟨hsame, -⟩ | ⟨current, -, -, -, hupdated⟩
  · rw [hsame]
    exact h
  · rw [hupdated]
    exact ⟨h.runs_unique.update fun r hr => hr.symm, h.jobs_unique, h.claimed⟩

theorem Rows.change (h : Rows s) (hchange : Queue.Change s s') : Rows s' := by
  cases hchange with
  | quiet hquiet =>
      cases hquiet with
      | run request hinsert =>
          obtain ⟨⟨hfresh, -, -⟩, rfl⟩ := Queue.insertRun_eq_success.mp hinsert
          exact ⟨h.runs_unique.concat hfresh, h.jobs_unique, h.claimed⟩
      | job request hinsert =>
          obtain ⟨-, ⟨hfresh, -, -, -⟩, rfl⟩ := Queue.insertJob_eq_success.mp hinsert
          refine ⟨h.runs_unique, h.jobs_unique.concat hfresh, fun job hjob hleased => ?_⟩
          rcases List.mem_append.mp hjob with hjob | hjob
          · exact h.claimed job hjob hleased
          · rw [List.mem_singleton.mp hjob] at hleased
            cases hleased
      | artifact row hinsert =>
          obtain ⟨-, rfl⟩ := Queue.insertArtifact_eq_success.mp hinsert
          exact ⟨h.runs_unique, h.jobs_unique, h.claimed⟩
      | transition now hjob hrun howner hmarks hcan =>
          refine ⟨h.runs_unique.update fun r hr => hr.symm,
            h.jobs_unique.update fun r hr => hr.symm, ?_⟩
          refine Table.forall_mem_update (fun r hr _ => h.claimed r hr) fun _ _ _ hleased => ?_
          exact absurd hleased hmarks.released
  | lease request hjob hclaimable hupdate =>
      obtain ⟨-, -, rfl⟩ := Queue.updateJob_eq_success.mp hupdate
      refine ⟨h.runs_unique, h.jobs_unique.update fun r hr => hr.symm, ?_⟩
      exact Table.forall_mem_update (fun r hr _ => h.claimed r hr) fun _ _ _ _ => Nat.succ_pos _

theorem Rows.changes (h : Rows s) (hchanges : Queue.Changes s s') : Rows s' := by
  induction hchanges with
  | refl => exact h
  | tail _ hchange ih => exact ih.change hchange

theorem Rows.step (h : Rows s) (command : WorkflowCommand) : Rows (step s command) := by
  cases command with
  | operation op => exact h.changes (Queue.changes_step h.jobs_unique op)
  | transition request => exact h.transition request

theorem rows_run (h : Rows s) (commands : List WorkflowCommand) :
    Rows (Run.run Workflow.step s commands) :=
  Run.invariant_run (fun _ command hrows => hrows.step command) h commands

theorem rows_reached (commands : List WorkflowCommand) : Rows (reached commands) :=
  rows_run rows_migrated commands

end Workflow

end

end StonksPaper
