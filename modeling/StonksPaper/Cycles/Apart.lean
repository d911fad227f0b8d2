import StonksPaper.Cycles.Replay
import StonksPaper.Jobs.Fencing

/-!
# The writers of one cycle

A cycle is a run and its only job. What is written to other runs and jobs leaves it apart. What is
left is the creation of the run, the arrival of its job, the leases of the job, its retirement by a
claim, and the entries of the store of cycles.
-/

namespace StonksPaper

open Chain

section

variable [Hashing] [JsonColumn] {s s' : Queue} {run run' : WorkflowRunRow} {job row : JobRow}
  {event : RunEventRow} {now : UTCDateTime} {jobId runId : UUID} {command : RunPaperCycle}
  {state : PaperCycleState}

namespace Cycle

/-! ## What leaves a cycle as it is -/

def Alone (jobId runId : UUID) (s : Queue) : Prop :=
  ∀ job ∈ s.jobs, job.jobId = jobId ↔ job.runId = runId

/-- Nothing of the cycle has been written. -/
structure Apart (jobId runId : UUID) (s s' : Queue) : Prop where
  job : s'.job jobId = s.job jobId
  run : s'.run runId = s.run runId
  events : s'.eventsOf runId = s.eventsOf runId
  outbox : Queue.KeepsOutbox s s' runId
  artifact : ∀ contentHash row, s.artifact contentHash = some row →
    s'.artifact contentHash = some row
  alone : Alone jobId runId s → Alone jobId runId s'

omit [Hashing] [JsonColumn] in
theorem apart_refl (jobId runId : UUID) (s : Queue) : Apart jobId runId s s where
  job := rfl
  run := rfl
  events := rfl
  outbox := Queue.keepsOutbox_refl s runId
  artifact := fun _ _ h => h
  alone := id

omit [Hashing] [JsonColumn] in
theorem Apart.trans {s'' : Queue} (h : Apart jobId runId s s') (h' : Apart jobId runId s' s'') :
    Apart jobId runId s s'' where
  job := h'.job.trans h.job
  run := h'.run.trans h.run
  events := h'.events.trans h.events
  outbox := fun sequence outbox houtbox => h'.outbox _ _ (h.outbox sequence outbox houtbox)
  artifact := fun contentHash row hrow => h'.artifact _ _ (h.artifact contentHash row hrow)
  alone := fun halone => h'.alone (h.alone halone)

omit [Hashing] [JsonColumn] in
theorem apart_of_files (h : Queue.Files s s') (jobId runId : UUID) : Apart jobId runId s s' := by
  obtain ⟨hruns, hevents, hjobs, houtbox⟩ := h.others
  constructor
  · exact congrArg (Table.get (·.jobId) · jobId) hjobs
  · exact congrArg (Table.get (·.runId) · runId) hruns
  · exact eventsOf_congr hevents runId
  · refine Queue.keepsOutbox_of_append (?_ : _ = _ ++ []) runId
    rw [houtbox, List.append_nil]
  · exact fun _ _ hrow => h.artifact hrow
  · intro halone other hother
    rw [hjobs] at hother
    exact halone other hother

/-- An event of another run, and the row of another job. -/
theorem apart_of_appends (halone : Alone jobId runId s) (h : Appends s s' run run' event)
    (hjob : job ∈ s.jobs) (howner : run.runId = job.runId) (hother : job.jobId ≠ jobId)
    (hsame : row.jobId = job.jobId ∧ row.runId = job.runId)
    (hjobs : s'.jobs = Table.update (·.jobId = row.jobId) (fun _ => row) s.jobs)
    {outbox : List OutboxRow} (houtbox : s'.outbox = s.outbox ++ outbox)
    (hartifacts : s'.artifacts = s.artifacts) : Apart jobId runId s s' := by
  have hrun : run.runId ≠ runId :=
    fun heq => hother ((halone job hjob).mpr (howner.symm.trans heq))
  have hrow : row.jobId ≠ jobId := fun heq => hother (hsame.1.symm.trans heq)
  constructor
  · show Table.get _ s'.jobs jobId = _
    rw [hjobs]
    exact Table.get_update_of_ne (fun r hr => hr.symm) fun r hr heq => hrow (hr.symm.trans heq)
  · show Table.get _ s'.runs runId = _
    rw [h.runs]
    exact Table.get_update_of_ne (fun r hr => h.same.trans hr.symm)
      fun r hr heq => hrun (hr.symm.trans heq)
  · exact Queue.eventsOf_concat_of_ne h.events fun heq => hrun (h.owner.symm.trans heq)
  · exact Queue.keepsOutbox_of_append houtbox runId
  · intro contentHash artifact hartifact
    show Table.get _ s'.artifacts contentHash = _
    rw [hartifacts]
    exact hartifact
  · intro _
    show ∀ r ∈ s'.jobs, _
    rw [hjobs]
    refine Table.forall_mem_update (fun r hr _ => halone r hr) fun _ _ _ => ?_
    rw [hsame.1, hsame.2]
    exact halone job hjob

theorem apart_committed {t : Queue.Transition} (halone : Alone jobId runId s) (hjob : job ∈ s.jobs)
    (hrun : run ∈ s.runs) (howner : run.runId = job.runId) (hmarks : t.Marks job)
    (hother : job.jobId ≠ jobId) : Apart jobId runId s (s.committed run t now) := by
  have hsame : (Queue.updatedJob t.marked t.lastError).jobId = job.jobId ∧
      (Queue.updatedJob t.marked t.lastError).runId = job.runId := ⟨hmarks.jobId, hmarks.runId⟩
  exact apart_of_appends halone (appends_committed hrun hmarks) hjob howner hother hsame rfl rfl rfl

theorem apart_written {audit : CycleAudit} (halone : Alone jobId runId s) (hjob : job ∈ s.jobs)
    (hrun : run ∈ s.runs) (howner : run.runId = job.runId)
    (hentry : Queue.Entry run job audit row) (hother : job.jobId ≠ jobId) :
    Apart jobId runId s (s.written run job audit row now) :=
  apart_of_appends halone (appends_written hrun hentry) hjob howner hother
    ⟨hentry.jobId, hentry.runId⟩ rfl rfl rfl

theorem apart_settles {other : UUID} (halone : Alone jobId runId s)
    (h : Queue.Settles s other s') (hother : other ≠ jobId) : Apart jobId runId s s' := by
  cases h with
  | repeated => exact apart_refl jobId runId s
  | transition now hfiles hjob hid hrun howner hmarks hcan =>
      have hfiled := apart_of_files hfiles jobId runId
      exact hfiled.trans (apart_committed (hfiled.alone halone) hjob hrun howner hmarks
        fun heq => hother (hid.symm.trans heq))

omit [Hashing] in
theorem apart_grants {request : ClaimJob} {lease : JobLease} (halone : Alone jobId runId s)
    (h : s.Grants request now lease s' job) (hother : job.jobId ≠ jobId) :
    Apart jobId runId s s' := by
  obtain ⟨-, -, rfl⟩ := Queue.updateJob_eq_success.mp h.updated
  refine { apart_refl jobId runId s with job := ?_, alone := fun _ => ?_ }
  · exact Table.get_update_of_ne (fun r hr => hr.symm) fun r hr heq => hother (hr.symm.trans heq)
  · exact Table.forall_mem_update (fun r hr _ => halone r hr) fun _ _ _ => halone job h.stored

omit [Hashing] [JsonColumn] in
theorem apart_insertRun {added : WorkflowRunRow} (h : s.insertRun added = .success s')
    (hother : added.runId ≠ runId) : Apart jobId runId s s' := by
  obtain ⟨-, rfl⟩ := Queue.insertRun_eq_success.mp h
  exact { apart_refl jobId runId s with run := Table.get_concat_of_ne hother }

omit [Hashing] in
theorem apart_insertJob (h : s.insertJob row = .success s') (hjob : row.jobId ≠ jobId)
    (hrun : row.runId ≠ runId) : Apart jobId runId s s' := by
  obtain ⟨-, -, rfl⟩ := Queue.insertJob_eq_success.mp h
  refine { apart_refl jobId runId s with
    job := Table.get_concat_of_ne hjob, alone := fun halone => ?_ }
  intro other hother
  rcases List.mem_append.mp hother with hother | hother
  · exact halone other hother
  · rw [List.mem_singleton.mp hother]
    exact ⟨fun heq => absurd heq hjob, fun heq => absurd heq hrun⟩

omit [Hashing] [JsonColumn] in
theorem apart_transition (request : TransitionRun) (hother : request.runId ≠ runId) :
    Apart jobId runId s (s.kept (s.transition request)) := by
  rcases Workflow.transition_cases s request with ⟨hsame, -⟩ | ⟨current, hrun, -, -, hupdated⟩
  · exact (congrArg (Apart jobId runId s) hsame).mpr (apart_refl jobId runId s)
  · have hid := (Queue.run_of_eq_some hrun).2
    rw [hupdated]
    refine { apart_refl jobId runId s with run := ?_ }
    exact Table.get_update_of_ne (fun r hr => hr.symm)
      fun r hr heq => hother (hid.symm.trans (hr.symm.trans heq))

end Cycle

end

end StonksPaper
