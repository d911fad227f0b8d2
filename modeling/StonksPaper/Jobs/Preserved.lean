import StonksPaper.Jobs.Kept

/-!
# What later operations keep

Events, outbox rows and artifacts are only added. A run keeps what identifies it, and the row of a
job that has ended is not written again.
-/

namespace StonksPaper

section

variable [Hashing] [JsonColumn] {s s' : Queue} {run : WorkflowRunRow} {job : JobRow}
  {t : Queue.Transition} {now : UTCDateTime}

namespace Queue

omit [Hashing] [JsonColumn] in
theorem active_of_claimable (h : Claimable now job) : job.status.Active := h.1.imp id And.left

/-- The row of a job that has ended is not written again. -/
theorem ended_quiet (hunique : Table.Unique (·.jobId) s.jobs) (h : Quiet s s')
    (hjob : job ∈ s.jobs) (hended : ¬ job.status.Active) : job ∈ s'.jobs := by
  cases h with
  | run request h =>
      obtain ⟨-, rfl⟩ := insertRun_eq_success.mp h
      exact hjob
  | job request h =>
      obtain ⟨-, -, rfl⟩ := insertJob_eq_success.mp h
      exact List.mem_append_left _ hjob
  | artifact row h => exact (jobs_of_insertArtifact h).1 ▸ hjob
  | transition now hother hrun howner hmarks hcan =>
      refine mem_jobs_committed hjob fun heq => hended ?_
      rw [hunique.eq hjob hother (heq.trans hmarks.jobId)]
      exact hmarks.active

def SameRun (run run' : WorkflowRunRow) : Prop :=
  run'.runId = run.runId ∧ run'.identityHash = run.identityHash

/-- The rows of one queue that are still in another: of a run, what is not written again. -/
structure Preserved (s s' : Queue) : Prop where
  runs : ∀ runId run, s.run runId = some run → ∃ run', s'.run runId = some run' ∧ SameRun run run'
  events : ∀ eventId event, s.event eventId = some event → s'.event eventId = some event
  outbox : ∀ outboxId outbox, s.outboxRow outboxId = some outbox →
    s'.outboxRow outboxId = some outbox
  artifacts : ∀ contentHash artifact, s.artifact contentHash = some artifact →
    s'.artifact contentHash = some artifact
  ended : ∀ job ∈ s.jobs, ¬ job.status.Active → job ∈ s'.jobs

omit [JsonColumn] in
theorem preserved_refl (s : Queue) : Preserved s s where
  runs := fun _ run h => ⟨run, h, rfl, rfl⟩
  events := fun _ _ h => h
  outbox := fun _ _ h => h
  artifacts := fun _ _ h => h
  ended := fun _ h _ => h

omit [JsonColumn] in
theorem Preserved.trans {s'' : Queue} (h : Preserved s s') (h' : Preserved s' s'') :
    Preserved s s'' where
  runs := fun runId run hrun => by
    obtain ⟨run', hrun', hid, hsame⟩ := h.runs runId run hrun
    obtain ⟨run'', hrun'', hid', hsame'⟩ := h'.runs runId run' hrun'
    exact ⟨run'', hrun'', hid'.trans hid, hsame'.trans hsame⟩
  events := fun eventId event hevent => h'.events _ _ (h.events eventId event hevent)
  outbox := fun outboxId outbox houtbox => h'.outbox _ _ (h.outbox outboxId outbox houtbox)
  artifacts := fun hash artifact hartifact => h'.artifacts _ _ (h.artifacts hash artifact hartifact)
  ended := fun job hjob hended => h'.ended job (h.ended job hjob hended) hended

theorem preserved_committed (hk : Kept s) (hjob : job ∈ s.jobs) (hrun : run ∈ s.runs)
    (hmarks : t.Marks job) : Preserved s (s.committed run t now) where
  runs := fun runId stored hstored => by
    refine ⟨if stored.runId = run.runId then auditedRun run t now else stored, ?_, ?_⟩
    · show Table.get _ (Table.update _ _ s.runs) _ = _
      rw [Table.get_update fun r hr => hr.symm, show Table.get _ s.runs _ = _ from hstored]
      rfl
    · by_cases hsame : stored.runId = run.runId
      · rw [if_pos hsame, hk.runs_unique.eq (run_of_eq_some hstored).1 hrun hsame]
        exact ⟨rfl, rfl⟩
      · rw [if_neg hsame]
        exact ⟨rfl, rfl⟩
  events := fun _ _ h => Table.get_concat_of_some h
  outbox := fun _ _ h => Table.get_concat_of_some h
  artifacts := fun _ _ h => h
  ended := fun other hother hended => by
    refine mem_jobs_committed hother fun heq => hended ?_
    rw [hk.jobs_unique.eq hother hjob (heq.trans hmarks.jobId)]
    exact hmarks.active

theorem preserved_quiet (hk : Kept s) (h : Quiet s s') : Preserved s s' := by
  have hended : ∀ job ∈ s.jobs, ¬ job.status.Active → job ∈ s'.jobs :=
    fun _ hjob hended => ended_quiet hk.jobs_unique h hjob hended
  cases h with
  | run request h =>
      obtain ⟨-, rfl⟩ := insertRun_eq_success.mp h
      exact { preserved_refl s with
        runs := fun _ run hrun => ⟨run, Table.get_concat_of_some hrun, rfl, rfl⟩ }
  | job request h =>
      obtain ⟨-, -, rfl⟩ := insertJob_eq_success.mp h
      exact { preserved_refl s with ended := hended }
  | artifact row h =>
      obtain ⟨-, rfl⟩ := insertArtifact_eq_success.mp h
      exact { preserved_refl s with artifacts := fun _ _ h => Table.get_concat_of_some h }
  | transition now hjob hrun howner hmarks hcan => exact preserved_committed hk hjob hrun hmarks

theorem preserved_change (hk : Kept s) (h : Change s s') : Preserved s s' := by
  cases h with
  | quiet h => exact preserved_quiet hk h
  | @lease row now request hjob hclaimable h =>
      obtain ⟨-, -, rfl⟩ := updateJob_eq_success.mp h
      refine { preserved_refl s with ended := fun other hother hended => ?_ }
      refine Table.mem_update.mpr ⟨other, hother, (if_neg fun heq => hended ?_).symm⟩
      have hid : other.jobId = row.jobId := heq
      rw [hk.jobs_unique.eq hother hjob hid]
      exact active_of_claimable hclaimable

theorem preserved_changes (hplain : JsonColumn.KeepsPlain) (hk : Kept s) (h : Changes s s') :
    Kept s' ∧ Preserved s s' := by
  induction h with
  | refl => exact ⟨hk, preserved_refl s⟩
  | tail _ hchange ih =>
      exact ⟨ih.1.change hplain hchange, ih.2.trans (preserved_change ih.1 hchange)⟩

theorem reached_append (ops more : List TimedQueueOperation) :
    reached (ops ++ more) = Run.run step (reached ops) more := Run.run_append ..

theorem preserved_run (hplain : JsonColumn.KeepsPlain) (hk : Kept s)
    (ops : List TimedQueueOperation) :
    Kept (Run.run step s ops) ∧ Preserved s (Run.run step s ops) := by
  induction ops generalizing s with
  | nil => exact ⟨hk, preserved_refl s⟩
  | cons op ops ih =>
      obtain ⟨hnext, hpreserved⟩ := preserved_changes hplain hk (changes_step hk.jobs_unique op)
      obtain ⟨hrun, hrest⟩ := ih hnext
      exact ⟨hrun, hpreserved.trans hrest⟩

end Queue

end

end StonksPaper
