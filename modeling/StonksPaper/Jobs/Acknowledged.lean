import StonksPaper.Jobs.Preserved

/-!
# Acknowledged results

What a completion or an explicit failure has recorded stays in the tables. Whether a repeated
request is answered with it depends on more: the run must still have the status that belongs to the
result, and a completed job a payload that has the recorded hash.
-/

namespace StonksPaper

open Chain

section

variable [Hashing] [JsonColumn] {s s' : Queue} {run : WorkflowRunRow} {job : JobRow}
  {event : RunEventRow} {outbox : OutboxRow} {t : Queue.Transition} {now : UTCDateTime}
  {payload : Payload} {topic : String} {kind : AuditKind} {generation : ℕ}

namespace Queue

/-! ## Stored results -/

/-- The rows that record how a job has ended. -/
structure ResultStored (s : Queue) (job : JobRow) (run : WorkflowRunRow) (event : RunEventRow)
    (outbox : OutboxRow) (payload : Payload) (topic : String) (kind : AuditKind)
    (generation : ℕ) : Prop where
  jobRow : s.job job.jobId = some job
  runRow : s.run job.runId = some run
  eventRow : s.event (auditEventId job.jobId generation) = some event
  outboxRow : s.outboxRow (auditOutboxId job.jobId generation) = some outbox
  ended : ¬ job.status.Active
  owner : event.runId = run.runId
  mirrored : OutboxMatches run event outbox payload topic ⟨job.jobId, kind, generation⟩

omit [JsonColumn] in
theorem ResultStored.chain
    (h : s.ResultStored job run event outbox payload topic kind generation) (hk : Kept s) :
    event.sequence ≤ run.version ∧ s.EventChainIsValid run event.eventId := by
  obtain ⟨hrun, -⟩ := run_of_eq_some h.runRow
  have hevent : event ∈ s.eventsOf run.runId :=
    mem_eventsOf.mpr ⟨Table.mem_of_get h.eventRow, h.owner⟩
  exact ⟨(hk.headed run hrun).sequence_le hevent, hk.eventChain hrun hevent⟩

variable (now) in
/-- A transition that ends a job stores its result. -/
theorem resultStored_committed (hplain : JsonColumn.KeepsPlain)
    (hjob : s.job job.jobId = some job) (hrun : s.run job.runId = some run)
    (hmarks : t.Marks job) (hcan : s.CanCommit run t) (hended : ¬ t.marked.status.Active) :
    (s.committed run t now).ResultStored (updatedJob t.marked t.lastError) (auditedRun run t now)
      (s.storedEvent run t now) (storedOutbox run t now) t.payload t.eventType t.kind
      t.generation := by
  have hjobId : (updatedJob t.marked t.lastError).jobId = job.jobId := hmarks.jobId
  have hrunId : (updatedJob t.marked t.lastError).runId = job.runId := hmarks.runId
  have hstored : stored t.payload = t.payload := hplain _ hmarks.plain
  constructor
  · rw [hjobId]
    show Table.get _ (Table.update _ _ s.jobs) _ = _
    rw [Table.get_update fun r hr => hr.symm, show Table.get _ s.jobs _ = _ from hjob]
    exact congrArg some (if_pos hmarks.jobId.symm)
  · rw [hrunId]
    show Table.get _ (Table.update _ _ s.runs) _ = _
    rw [Table.get_update fun r hr => hr.symm, show Table.get _ s.runs _ = _ from hrun]
    exact congrArg some (if_pos rfl)
  · exact Table.get_concat_self hcan.event_fresh
  · exact Table.get_concat_self hcan.outbox_fresh
  · exact hended
  · rfl
  · exact ⟨rfl, hstored, rfl, rfl, rfl, rfl, hstored, rfl, rfl, rfl⟩

/-! ## Later operations -/

omit [JsonColumn] in
theorem ResultStored.preserved
    (h : s.ResultStored job run event outbox payload topic kind generation) (hk : Kept s')
    (hpreserved : Preserved s s') : ∃ run', SameRun run run' ∧
      s'.ResultStored job run' event outbox payload topic kind generation := by
  obtain ⟨run', hrun', hid, hsame⟩ := hpreserved.runs _ _ h.runRow
  have hjob := hpreserved.ended job (job_of_eq_some h.jobRow).1 h.ended
  refine ⟨run', ⟨hid, hsame⟩, Table.get_of_mem hk.jobs_unique hjob, hrun',
    hpreserved.events _ _ h.eventRow, hpreserved.outbox _ _ h.outboxRow, h.ended,
    h.owner.trans hid.symm, ?_⟩
  have hmirrored := h.mirrored
  unfold OutboxMatches at hmirrored ⊢
  rw [hid]
  exact hmirrored

omit [JsonColumn] in
theorem owner_of_chain (hk : Kept s) {eventId : UUID} (hevent : s.event eventId = some event)
    (h : s.EventChainIsValid run event.eventId) : event.runId = run.runId := by
  obtain ⟨-, -, ⟨other, hother, hid⟩, -⟩ := h
  obtain ⟨hstored, howner⟩ := mem_eventsOf.mp hother
  rw [← hk.events_unique.eq hstored (Table.mem_of_get hevent) hid]
  exact howner

/-! ## Completions -/

/-- The receipt of a completion that the event records. -/
def completionReceipt (job : JobRow) (event : RunEventRow) (request : CompleteJob) :
    JobCompletionReceipt where
  jobId := job.jobId
  runId := job.runId
  eventId := auditEventId job.jobId request.attemptGeneration
  outboxId := auditOutboxId job.jobId request.attemptGeneration
  sequence := event.sequence
  resultArtifactHash := request.resultArtifactHash
  completedAt := event.occurredAt

/-- The completion is stored; its row is valid but perhaps for the hash of the payload. -/
structure CompletionStored (s : Queue) (request : CompleteJob) (receipt : JobCompletionReceipt)
    (job : JobRow) (run : WorkflowRunRow) (event : RunEventRow) (outbox : OutboxRow)
    (artifact : ArtifactManifestRow) : Prop where
  result : s.ResultStored job run event outbox (completionPayload job run artifact request)
    "job.completed" .complete request.attemptGeneration
  artifactRow : s.artifact request.resultArtifactHash = some artifact
  jobId : job.jobId = request.jobId
  generic : job.jobType ≠ "create_snapshot"
  succeeded : job.status = .succeeded
  valid : stablePayloadHash job.payload = job.payloadHash → CompletedJobIsValid job event request
  receipt_eq : receipt = completionReceipt job event request

/-- What a repeated completion needs of the job and its run, besides the stored result. -/
def CompletionRepeats (job : JobRow) (run : WorkflowRunRow) : Prop :=
  stablePayloadHash job.payload = job.payloadHash ∧
    (endsRun job.jobType → run.status = .succeeded)

instance (job : JobRow) (run : WorkflowRunRow) : Decidable (CompletionRepeats job run) :=
  inferInstanceAs (Decidable (_ ∧ _))

theorem completionStored_of_complete (hplain : JsonColumn.KeepsPlain) (hk : Kept s)
    {request : CompleteJob} {manifest : Option ArtifactManifest} {receipt : JobCompletionReceipt}
    (h : s.complete request manifest now = .success (receipt, s')) :
    ∃ job run event outbox artifact,
      s'.CompletionStored request receipt job run event outbox artifact := by
  obtain ⟨job, hread, hgeneric, hcases⟩ := complete_eq_success.mp h
  obtain ⟨hjob, hid⟩ := job_of_eq_some hread
  rcases hcases with ⟨hsucceeded, hreceipt, rfl⟩ | ⟨-, hactive⟩
  · obtain ⟨run, event, outbox, artifact, hrun, hevent, houtbox, hartifact, hvalid, hgraph, rfl⟩ :=
      completedJobReceipt_eq_success.mp hreceipt
    obtain ⟨-, -, hchain, hmirrored⟩ := hgraph
    refine ⟨job, run, event, outbox, artifact, ?_, hartifact, hid, hgeneric, hsucceeded,
      fun _ => hvalid, ?_⟩
    · exact ⟨hid ▸ hread, hrun, hevent, houtbox, by simp [hsucceeded, JobStatus.Active],
        owner_of_chain hk hevent hchain, hmirrored⟩
    · rw [completionReceipt, ← Table.key_of_get hevent, ← Table.key_of_get houtbox]
  · obtain ⟨hheld, -, registered, run, artifact, hregister, hrun, hartifact, hcan, rfl, rfl⟩ :=
      completeActiveJob_eq_success hactive
    have hread' : registered.job job.jobId = some job := by
      rw [hid]
      rcases hregister with rfl | ⟨row, hinsert⟩
      · exact hread
      · unfold Queue.job
        rw [(jobs_of_insertArtifact hinsert).1]
        exact hread
    have hmarks := completed_marks run artifact now hheld
    have hstored := resultStored_committed now hplain hread' hrun hmarks hcan
      (by simp [completed, JobStatus.Active])
    refine ⟨_, _, _, _, artifact, hstored, hartifact, hid, hgeneric, rfl, fun hcanonical => ?_,
      ?_⟩
    · refine ⟨rfl, hheld.2.2.1, hheld.2.2.2.1, ?_, hheld.2.2.2.2, rfl, hcanonical, rfl, ?_⟩
      · exact (hk.counted job hjob).trans hheld.2.2.2.1
      · exact hk.blank job hjob (.inr hheld.2.1) hgeneric
    · rw [completionReceipt, (run_of_eq_some hrun).2]
      rfl

/-- A stored completion is repeated exactly when the job's payload and the run's status allow it. -/
theorem CompletionStored.repeats_iff (hk : Kept s) {request : CompleteJob}
    {receipt : JobCompletionReceipt} {artifact : ArtifactManifestRow}
    (h : s.CompletionStored request receipt job run event outbox artifact)
    (manifest : Option ArtifactManifest) :
    (s.complete request manifest now).SucceedsWith (·.1 = receipt) ↔ CompletionRepeats job run := by
  have hjob : s.job request.jobId = some job := h.jobId ▸ h.result.jobRow
  obtain ⟨hsequence, hchain⟩ := h.result.chain hk
  constructor
  · intro hsucceeds
    obtain ⟨⟨receipt', s'⟩, hcomplete, -⟩ := hsucceeds
    obtain ⟨job', hjob', -, hcases⟩ := complete_eq_success.mp hcomplete
    obtain rfl := Option.some.inj (hjob.symm.trans hjob')
    rcases hcases with ⟨-, hreceipt, -⟩ | ⟨hopen, -⟩
    · obtain ⟨run', event', outbox', artifact', hrun', -, -, -, hvalid, hgraph, -⟩ :=
        completedJobReceipt_eq_success.mp hreceipt
      obtain rfl := Option.some.inj (h.result.runRow.symm.trans hrun')
      exact ⟨hvalid.2.2.2.2.2.2.1, hgraph.2.1⟩
    · exact absurd h.succeeded hopen
  · intro hrepeats
    obtain ⟨hcanonical, hended⟩ := hrepeats
    have hreceipt : s.completedJobReceipt job request = .success receipt := by
      refine completedJobReceipt_eq_success.mpr ⟨run, event, outbox, artifact, h.result.runRow,
        h.result.eventRow, h.result.outboxRow, h.artifactRow, h.valid hcanonical,
        ⟨hsequence, hended, hchain, h.result.mirrored⟩, ?_⟩
      rw [h.receipt_eq, completionReceipt, Table.key_of_get h.result.eventRow,
        Table.key_of_get h.result.outboxRow]
    exact ⟨(receipt, s), complete_eq_success.mpr ⟨job, hjob, h.generic,
      .inl ⟨h.succeeded, hreceipt, rfl⟩⟩, rfl⟩

omit [JsonColumn] in
theorem CompletionStored.preserved {request : CompleteJob} {receipt : JobCompletionReceipt}
    {artifact : ArtifactManifestRow}
    (h : s.CompletionStored request receipt job run event outbox artifact) (hk : Kept s')
    (hpreserved : Preserved s s') :
    ∃ run', s'.CompletionStored request receipt job run' event outbox artifact := by
  obtain ⟨run', ⟨-, hidentity⟩, hresult⟩ := h.result.preserved hk hpreserved
  have hpayload : completionPayload job run' artifact request =
      completionPayload job run artifact request := by
    unfold completionPayload
    rw [hidentity]
  refine ⟨run', hpayload ▸ hresult, hpreserved.artifacts _ _ h.artifactRow, h.jobId, h.generic,
    h.succeeded, h.valid, h.receipt_eq⟩

/-! ## Explicit failures -/

/-- The receipt of an explicit failure that the event records. -/
def failureReceipt (job : JobRow) (event : RunEventRow) (request : FailJob) :
    JobFailureReceipt where
  jobId := job.jobId
  runId := job.runId
  eventId := auditEventId job.jobId request.attemptGeneration
  outboxId := auditOutboxId job.jobId request.attemptGeneration
  sequence := event.sequence
  errorCode := request.errorCode
  reasonCode := request.reasonCode
  failedAt := event.occurredAt

structure FailureStored (s : Queue) (request : FailJob) (receipt : JobFailureReceipt)
    (job : JobRow) (run : WorkflowRunRow) (event : RunEventRow) (outbox : OutboxRow) : Prop where
  result : s.ResultStored job run event outbox (failurePayload job run request)
    "job.dead_lettered" .deadLetter request.attemptGeneration
  jobId : job.jobId = request.jobId
  generic : job.jobType ≠ "create_snapshot"
  valid : FailedJobIsValid job event request
  receipt_eq : receipt = failureReceipt job event request

theorem failureStored_of_fail (hplain : JsonColumn.KeepsPlain) (hk : Kept s) {request : FailJob}
    {receipt : JobFailureReceipt} (h : s.fail request now = .success (receipt, s')) :
    ∃ job run event outbox, s'.FailureStored request receipt job run event outbox := by
  obtain ⟨job, hread, hgeneric, hcases⟩ := fail_eq_success.mp h
  obtain ⟨hjob, hid⟩ := job_of_eq_some hread
  rcases hcases with ⟨hdead, hreceipt, rfl⟩ | ⟨-, hactive⟩
  · obtain ⟨run, event, outbox, hrun, hevent, houtbox, hvalid, hgraph, rfl⟩ :=
      failedJobReceipt_eq_success.mp hreceipt
    obtain ⟨-, -, hchain, hmirrored⟩ := hgraph
    refine ⟨job, run, event, outbox, ?_, hid, hgeneric, hvalid, ?_⟩
    · exact ⟨hid ▸ hread, hrun, hevent, houtbox, by simp [hdead, JobStatus.Active],
        owner_of_chain hk hevent hchain, hmirrored⟩
    · rw [failureReceipt, ← Table.key_of_get hevent, ← Table.key_of_get houtbox]
  · obtain ⟨hheld, -, hcanonical, run, hrun, hcan, rfl, rfl⟩ := failActiveJob_eq_success hactive
    have hmarks := explicitlyFailed_marks run now hheld
    have hstored := resultStored_committed now hplain (hid ▸ hread) hrun hmarks hcan
      (by simp [explicitlyFailed, JobStatus.Active])
    have herror : stored (failureError request) = failureError request :=
      hplain _ (by simp [failureError])
    refine ⟨_, _, _, _, hstored, hid, hgeneric, ?_, ?_⟩
    · refine ⟨rfl, rfl, rfl, rfl, hheld.2.2.2.1, ?_, hk.unfinished job hjob (.inr hheld.2.1),
        hcanonical, rfl, congrArg some herror⟩
      exact (hk.counted job hjob).trans hheld.2.2.2.1
    · rw [failureReceipt, (run_of_eq_some hrun).2]
      rfl

/-- A stored failure is repeated exactly when its run has failed. -/
theorem FailureStored.repeats_iff (hk : Kept s) {request : FailJob} {receipt : JobFailureReceipt}
    (h : s.FailureStored request receipt job run event outbox) :
    (s.fail request now).SucceedsWith (·.1 = receipt) ↔ run.status = .failed := by
  have hjob : s.job request.jobId = some job := h.jobId ▸ h.result.jobRow
  obtain ⟨hsequence, hchain⟩ := h.result.chain hk
  constructor
  · intro hsucceeds
    obtain ⟨⟨receipt', s'⟩, hfail, -⟩ := hsucceeds
    obtain ⟨job', hjob', -, hcases⟩ := fail_eq_success.mp hfail
    obtain rfl := Option.some.inj (hjob.symm.trans hjob')
    rcases hcases with ⟨-, hreceipt, -⟩ | ⟨hopen, -⟩
    · obtain ⟨run', event', outbox', hrun', -, -, -, hgraph, -⟩ :=
        failedJobReceipt_eq_success.mp hreceipt
      obtain rfl := Option.some.inj (h.result.runRow.symm.trans hrun')
      exact hgraph.1
    · exact absurd h.valid.1 hopen
  · intro hstatus
    have hreceipt : s.failedJobReceipt job request = .success receipt := by
      refine failedJobReceipt_eq_success.mpr ⟨run, event, outbox, h.result.runRow,
        h.result.eventRow, h.result.outboxRow, h.valid,
        ⟨hstatus, hsequence, hchain, h.result.mirrored⟩, ?_⟩
      rw [h.receipt_eq, failureReceipt, Table.key_of_get h.result.eventRow,
        Table.key_of_get h.result.outboxRow]
    exact ⟨(receipt, s), fail_eq_success.mpr ⟨job, hjob, h.generic,
      .inl ⟨h.valid.1, hreceipt, rfl⟩⟩, rfl⟩

omit [JsonColumn] in
theorem FailureStored.preserved {request : FailJob} {receipt : JobFailureReceipt}
    (h : s.FailureStored request receipt job run event outbox) (hk : Kept s')
    (hpreserved : Preserved s s') :
    ∃ run', s'.FailureStored request receipt job run' event outbox := by
  obtain ⟨run', ⟨-, hidentity⟩, hresult⟩ := h.result.preserved hk hpreserved
  have hpayload : failurePayload job run' request = failurePayload job run request := by
    unfold failurePayload
    rw [hidentity]
  exact ⟨run', hpayload ▸ hresult, h.jobId, h.generic, h.valid, h.receipt_eq⟩

/-! ## Later requests -/

def OfJob (s : Queue) (jobId : UUID) (P : JobRow → WorkflowRunRow → Prop) : Prop :=
  ∃ job ∈ s.job jobId, ∃ run ∈ s.run job.runId, P job run

instance (jobId : UUID) (P : JobRow → WorkflowRunRow → Prop) [∀ job run, Decidable (P job run)] :
    Decidable (s.OfJob jobId P) := inferInstanceAs (Decidable (∃ _ ∈ _, _))

omit [Hashing] [JsonColumn] in
theorem ofJob_iff {P : JobRow → WorkflowRunRow → Prop} {jobId : UUID}
    (hjob : s.job jobId = some job) (hrun : s.run job.runId = some run) :
    s.OfJob jobId P ↔ P job run := by
  constructor
  · intro h
    obtain ⟨job', hjob', run', hrun', h⟩ := h
    obtain rfl := Option.some.inj (hjob.symm.trans hjob')
    obtain rfl := Option.some.inj (hrun.symm.trans hrun')
    exact h
  · intro h
    exact ⟨job, hjob, run, hrun, h⟩

/-- After an acknowledged result and any further operations, the same request is acknowledged with
the same receipt exactly when the run has the status that belongs to the result and, for a
completion, the stored payload has the hash that was recorded for it. -/
theorem acknowledged_repeats_iff (hplain : JsonColumn.KeepsPlain)
    (ops more : List TimedQueueOperation) (now later : UTCDateTime) :
    (∀ request manifest receipt s',
      (reached ops).complete request manifest now = .success (receipt, s') →
        (((reached (ops ++ (.complete request manifest, now) :: more)).complete request manifest
            later).SucceedsWith (·.1 = receipt) ↔
          (reached (ops ++ (.complete request manifest, now) :: more)).OfJob request.jobId
            CompletionRepeats)) ∧
    ∀ request receipt s', (reached ops).fail request now = .success (receipt, s') →
      (((reached (ops ++ (.fail request, now) :: more)).fail request later).SucceedsWith
          (·.1 = receipt) ↔
        (reached (ops ++ (.fail request, now) :: more)).OfJob request.jobId
          fun _ run => run.status = .failed) := by
  have hk := kept_reached hplain ops
  constructor
  · intro request manifest receipt s' h
    have hstep : (reached ops).step (.complete request manifest, now) = s' := by
      show (reached ops).kept ((reached ops).complete request manifest now) = s'
      rw [h]
      rfl
    have hk' : Kept s' := hstep ▸ hk.step hplain (.complete request manifest, now)
    obtain ⟨job, run, event, outbox, artifact, hstored⟩ := completionStored_of_complete hplain hk h
    obtain ⟨hkept, hpreserved⟩ := preserved_run hplain hk' more
    obtain ⟨run', hlater⟩ := hstored.preserved hkept hpreserved
    rw [reached_append, Run.run_cons, hstep, hlater.repeats_iff hkept manifest]
    exact (ofJob_iff (hlater.jobId ▸ hlater.result.jobRow) hlater.result.runRow).symm
  · intro request receipt s' h
    have hstep : (reached ops).step (.fail request, now) = s' := by
      show (reached ops).kept ((reached ops).fail request now) = s'
      rw [h]
      rfl
    have hk' : Kept s' := hstep ▸ hk.step hplain (.fail request, now)
    obtain ⟨job, run, event, outbox, hstored⟩ := failureStored_of_fail hplain hk h
    obtain ⟨hkept, hpreserved⟩ := preserved_run hplain hk' more
    obtain ⟨run', hlater⟩ := hstored.preserved hkept hpreserved
    rw [reached_append, Run.run_cons, hstep, hlater.repeats_iff hkept]
    have hofJob := ofJob_iff (P := fun _ run => run.status = .failed)
      (hlater.jobId ▸ hlater.result.jobRow) hlater.result.runRow
    exact hofJob.symm

end Queue

end

/-! ## Two research jobs -/

namespace ResearchScenario

open Queue (reached acknowledged_repeats_iff)
open scoped CodeHashing PlainColumns

/-- The completion of the first job is repeated while the second job is not over. -/
theorem acknowledged_repeats_alone : ∃ receipt s',
    (reached claimed).complete completion (some artifact) 20 = .success (receipt, s') ∧
      ((reached (claimed ++ [complete])).complete completion (some artifact) 50).SucceedsWith
        (·.1 = receipt) := by
  have hfirst : ((reached claimed).complete completion (some artifact) 20).Succeeds := by
    decide +kernel
  obtain ⟨⟨receipt, s'⟩, h⟩ := hfirst
  have hiff := (acknowledged_repeats_iff PlainColumns.keepsPlain claimed [] 20 50).1
    completion (some artifact) receipt s' h
  exact ⟨receipt, s', h, hiff.mpr (by decide +kernel)⟩

/-- Once the second job has failed, the acknowledged completion of the first is refused. -/
theorem acknowledged_then_refused :
    ((claimed ++ complete :: failed).map (·.2)).Pairwise (· ≤ ·) ∧
    ((reached claimed).complete completion (some artifact) 20).Succeeds ∧
    (reached (claimed ++ complete :: failed)).complete completion (some artifact) 50 =
      .refused .conflict "Completed job canonical graph is invalid" := by
  decide +kernel

end ResearchScenario

end StonksPaper
