import StonksPaper.Jobs.Effects

/-!
# What the queue keeps

The events of a run are a chain from its creation to its version. A generation of a job is recorded
at most once: the events and the outbox rows of a job are of earlier generations, or of the current
one if that is over. A job that a failed snapshot attempt has put back is the exception to what a
reader expects: its current generation is over, although the job is not.
-/

namespace StonksPaper

open Chain

section

variable [Hashing] [JsonColumn] {s s' : Queue} {run : WorkflowRunRow} {job row : JobRow}
  {t : Queue.Transition} {now : UTCDateTime}

def JobRow.Unspent (self : JobRow) : Prop :=
  self.status = .leased ∨ self.status = .queued ∧ self.attemptGeneration = 0

def JobRow.Spent (self : JobRow) (generation : ℕ) : Prop :=
  generation ≤ self.attemptGeneration ∧ (self.Unspent → generation < self.attemptGeneration)

namespace Queue

/-! ## The events of a run -/

omit [Hashing] [JsonColumn] in
theorem mem_eventsOf {runId : UUID} {event : RunEventRow} :
    event ∈ s.eventsOf runId ↔ event ∈ s.events ∧ event.runId = runId := by
  rw [eventsOf, mem_sorted, List.mem_filter, decide_eq_true_iff]

omit [Hashing] [JsonColumn] in
theorem eventsOf_concat_of_ne {runId : UUID} {event : RunEventRow}
    (hevents : s'.events = s.events ++ [event]) (hother : event.runId ≠ runId) :
    s'.eventsOf runId = s.eventsOf runId := by
  rw [eventsOf, hevents, List.filter_append]
  simp [eventsOf, hother]

omit [Hashing] [JsonColumn] in
theorem eventsOf_concat {event : RunEventRow} (hevents : s'.events = s.events ++ [event])
    (hlast : ∀ e ∈ s.eventsOf event.runId, e.sequence ≤ event.sequence) :
    s'.eventsOf event.runId = s.eventsOf event.runId ++ [event] := by
  rw [eventsOf, hevents, List.filter_append]
  have hself : [event].filter (·.runId = event.runId) = [event] := by simp
  rw [hself]
  exact sorted_concat fun e he => hlast e (mem_sorted.mpr he)

/-- The head of the run's chain is the one that the run names. -/
structure Headed (s : Queue) (run : WorkflowRunRow) : Prop where
  linked : Linked RunEventRow.link 1 none (s.eventsOf run.runId)
  version : run.version = 1 + (s.eventsOf run.runId).length
  updated : ∀ last ∈ (s.eventsOf run.runId).getLast?, last.occurredAt = run.updatedAt

omit [Hashing] [JsonColumn] in
theorem Headed.sequence_le (h : s.Headed run) {event : RunEventRow}
    (hevent : event ∈ s.eventsOf run.runId) : event.sequence ≤ run.version := by
  have hle : event.sequence ≤ 1 + (s.eventsOf run.runId).length :=
    h.linked.sequence_le RunEventRow.link hevent
  rw [h.version]
  exact hle

omit [Hashing] [JsonColumn] in
theorem Headed.previousHash_eq (_h : s.Headed run) :
    s.previousHash run.runId = headHash RunEventRow.link none (s.eventsOf run.runId) := by
  unfold previousHash
  cases hlast : (s.eventsOf run.runId).getLast? with
  | none => rw [List.getLast?_eq_none_iff.mp hlast, Option.map_none, headHash_nil]
  | some last => exact (headHash_of_getLast RunEventRow.link none hlast).symm

/-! ## The invariant -/

structure Kept (s : Queue) : Prop where
  runs_unique : Table.Unique (·.runId) s.runs
  jobs_unique : Table.Unique (·.jobId) s.jobs
  events_unique : Table.Unique (·.eventId) s.events
  owned : ∀ job ∈ s.jobs, ∃ run ∈ s.runs, run.runId = job.runId
  checked : ∀ job ∈ s.jobs, s.JobChecks job
  counted : ∀ job ∈ s.jobs, job.attempts = job.attemptGeneration
  unfinished : ∀ job ∈ s.jobs, job.status.Active → job.resultArtifactHash = none
  blank : ∀ job ∈ s.jobs, job.status.Active → job.jobType ≠ "create_snapshot" →
    job.lastError = none
  claimed : ∀ job ∈ s.jobs, job.status = .leased → 0 < job.attemptGeneration
  headed : ∀ run ∈ s.runs, s.Headed run
  hashed : ∀ event ∈ s.events, event.eventHash =
    eventHash event.eventId event.sequence event.previousHash event.payload
  attributed : ∀ event ∈ s.events, ∃ run ∈ s.runs, run.runId = event.runId
  recorded : ∀ event ∈ s.events, ∃ job ∈ s.jobs, ∃ generation,
    event.eventId = auditEventId job.jobId generation ∧ job.Spent generation
  posted : ∀ o ∈ s.outbox, ∃ job ∈ s.jobs, o.idempotencyKey.jobId = job.jobId ∧
    o.outboxId = auditOutboxId job.jobId o.idempotencyKey.generation ∧
    job.Spent o.idempotencyKey.generation
  sequenced : ∀ o ∈ s.outbox, ∃ run ∈ s.runs, run.runId = o.aggregateId ∧
    o.sequence ≤ run.version
  putBack : ∀ job ∈ s.jobs, job.status = .queued → 0 < job.attemptGeneration →
    ∃ event ∈ s.events, event.eventId = auditEventId job.jobId job.attemptGeneration

omit [JsonColumn] in
theorem kept_migrated : Kept migrated := by
  constructor
  · exact Table.unique_nil
  · exact Table.unique_nil
  · exact Table.unique_nil
  all_goals
    intro row hrow
    cases hrow

omit [JsonColumn] in
/-- The chain of a run is valid for each of its events. -/
theorem Kept.eventChain (hk : Kept s) (hrun : run ∈ s.runs) {event : RunEventRow}
    (hevent : event ∈ s.eventsOf run.runId) : s.EventChainIsValid run event.eventId := by
  have hheaded := hk.headed run hrun
  refine ⟨hheaded.linked, ?_, ⟨event, hevent, rfl⟩, ?_⟩
  · intro e he
    exact hk.hashed e (mem_eventsOf.mp he).1
  · cases hlast : (s.eventsOf run.runId).getLast? with
    | none =>
        rw [List.getLast?_eq_none_iff.mp hlast] at hevent
        cases hevent
    | some last =>
        have hsequence : last.sequence = 1 + (s.eventsOf run.runId).length :=
          hheaded.linked.sequence_last RunEventRow.link hlast
        exact ⟨last, rfl, hsequence.trans hheaded.version.symm, hheaded.updated last hlast⟩

omit [JsonColumn] in
/-- The audit head of every run is valid. -/
theorem Kept.requireValidAuditHead (hk : Kept s) (hrun : run ∈ s.runs) :
    s.requireValidAuditHead run = .success () := by
  unfold Queue.requireValidAuditHead
  cases hlast : (s.eventsOf run.runId).getLast? with
  | none =>
      have hempty := List.getLast?_eq_none_iff.mp hlast
      have hversion := (hk.headed run hrun).version
      rw [hempty] at hversion
      exact QueueCall.valid_of hversion _
  | some last =>
      have hchain := hk.eventChain hrun (List.mem_of_getLast? hlast)
      obtain ⟨last', hlast', hversion, -⟩ := hchain.2.2.2
      obtain rfl := Option.some.inj (hlast.symm.trans hlast')
      show (QueueCall.valid _ _ >>= fun _ => QueueCall.valid _ _) = _
      rw [QueueCall.valid_of hversion.symm, Attempt.success_bind, QueueCall.valid_of hchain]

/-! ## Insertions -/

omit [JsonColumn] in
theorem Kept.insertRun (hk : Kept s) {request : CreateWorkflowRun}
    (h : s.insertRun request.row = .success s') : Kept s' := by
  obtain ⟨⟨hfresh, -, -⟩, rfl⟩ := insertRun_eq_success.mp h
  have hgrows {P : WorkflowRunRow → Prop} (hP : ∃ run ∈ s.runs, P run) :
      ∃ run ∈ s.runs ++ [request.row], P run := by
    obtain ⟨run, hrun, hP⟩ := hP
    exact ⟨run, List.mem_append_left _ hrun, hP⟩
  refine { hk with
    runs_unique := hk.runs_unique.concat hfresh
    owned := fun job hjob => hgrows (hk.owned job hjob)
    headed := fun run hrun => ?_
    attributed := fun event hevent => hgrows (hk.attributed event hevent)
    sequenced := fun o ho => hgrows (hk.sequenced o ho) }
  rcases List.mem_append.mp hrun with hrun | hrun
  · have hheaded := hk.headed run hrun
    exact ⟨hheaded.linked, hheaded.version, hheaded.updated⟩
  · -- no event is of a run that did not exist
    obtain rfl := List.mem_singleton.mp hrun
    have hnone : s.eventsOf request.runId = [] := by
      rw [List.eq_nil_iff_forall_not_mem]
      intro event hevent
      obtain ⟨hstored, howner⟩ := mem_eventsOf.mp hevent
      obtain ⟨run, hmem, hid⟩ := hk.attributed event hstored
      exact hfresh run hmem (hid.trans howner)
    have hnone' : ({ s with runs := s.runs ++ [request.row] } : Queue).eventsOf
        request.row.runId = [] := hnone
    constructor
    · rw [hnone']
      trivial
    · rw [hnone']
      rfl
    · rw [hnone']
      intro last hlast
      cases hlast

theorem Kept.insertJob (hk : Kept s) {request : EnqueueJob}
    (h : s.insertJob request.row = .success s') : Kept s' := by
  obtain ⟨-, ⟨hfresh, -, howner, hchecks⟩, rfl⟩ := insertJob_eq_success.mp h
  have hgrows {P : JobRow → Prop} (hP : ∃ job ∈ s.jobs, P job) :
      ∃ job ∈ s.jobs ++ [{ request.row with payload := stored request.row.payload }], P job := by
    obtain ⟨job, hjob, hP⟩ := hP
    exact ⟨job, List.mem_append_left _ hjob, hP⟩
  have hall {P : JobRow → Prop} (hold : ∀ job ∈ s.jobs, P job)
      (hnew : P { request.row with payload := stored request.row.payload }) :
      ∀ job ∈ s.jobs ++ [{ request.row with payload := stored request.row.payload }], P job := by
    intro job hjob
    rcases List.mem_append.mp hjob with hjob | hjob
    · exact hold job hjob
    · rw [List.mem_singleton.mp hjob]
      exact hnew
  obtain ⟨run, hrun⟩ := Option.ne_none_iff_exists'.mp howner
  exact { hk with
    jobs_unique := hk.jobs_unique.concat hfresh
    owned := hall hk.owned ⟨run, run_of_eq_some hrun⟩
    checked := hall hk.checked hchecks
    counted := hall hk.counted rfl
    unfinished := hall hk.unfinished fun _ => rfl
    blank := hall hk.blank fun _ _ => rfl
    claimed := hall hk.claimed fun hstatus => by cases hstatus
    headed := fun run hrun => ⟨(hk.headed run hrun).linked, (hk.headed run hrun).version,
      (hk.headed run hrun).updated⟩
    recorded := fun event hevent => hgrows (hk.recorded event hevent)
    posted := fun o ho => hgrows (hk.posted o ho)
    putBack := hall hk.putBack fun _ hgeneration => by cases hgeneration }

omit [JsonColumn] in
theorem Kept.insertArtifact (hk : Kept s) {artifact : ArtifactManifestRow}
    (h : s.insertArtifact artifact = .success s') : Kept s' := by
  obtain ⟨-, rfl⟩ := insertArtifact_eq_success.mp h
  refine { hk with
    checked := fun job hjob => ?_
    headed := fun run hrun => ⟨(hk.headed run hrun).linked, (hk.headed run hrun).version,
      (hk.headed run hrun).updated⟩ }
  obtain ⟨hmax, hattempts, hwindow, hresult⟩ := hk.checked job hjob
  refine ⟨hmax, hattempts, hwindow, fun hash hhash => ?_⟩
  obtain ⟨found, hfound⟩ := Option.ne_none_iff_exists'.mp (hresult hash hhash)
  have hgrown : Table.get (·.contentHash) (s.artifacts ++ [artifact]) hash = some found :=
    Table.get_concat_of_some hfound
  exact fun hnone => Option.some_ne_none found (hgrown.symm.trans hnone)

/-! ## Changes of one job -/

omit [Hashing] [JsonColumn] in
theorem exists_job_replaced {P : JobRow → Prop} (hunique : Table.Unique (·.jobId) s.jobs)
    (hjob : job ∈ s.jobs) {jobId : UUID} (hid : jobId = job.jobId) (hkept : P job → P row)
    (h : ∃ r ∈ s.jobs, P r) :
    ∃ r ∈ Table.update (·.jobId = jobId) (fun _ => row) s.jobs, P r :=
  Table.exists_mem_update (fun _ hr hsame hP =>
    hkept (hunique.eq hr hjob (hsame.trans hid) ▸ hP)) h

omit [Hashing] [JsonColumn] in
theorem forall_job_replaced {P : JobRow → Prop} {jobId : UUID} (hold : ∀ r ∈ s.jobs, P r)
    (hnew : P row) : ∀ r ∈ Table.update (·.jobId = jobId) (fun _ => row) s.jobs, P r :=
  Table.forall_mem_update (fun r hr _ => hold r hr) fun _ _ _ => hnew

omit [Hashing] [JsonColumn] in
theorem spent_leased {request : ClaimJob} {generation : ℕ} (h : job.Spent generation) :
    (job.leased request now).Spent generation := by
  have hle := h.1
  refine ⟨?_, fun _ => ?_⟩
  · show generation ≤ job.attemptGeneration + 1
    omega
  · show generation < job.attemptGeneration + 1
    omega

theorem Kept.lease (hk : Kept s) {request : ClaimJob} (hjob : job ∈ s.jobs)
    (hclaimable : Claimable now job)
    (h : s.updateJob (job.leased request now) none = .success s') : Kept s' := by
  obtain ⟨-, hchecks, rfl⟩ := updateJob_eq_success.mp h
  have hactive : job.status.Active := hclaimable.1.imp id And.left
  obtain ⟨run, hrun, howner⟩ := hk.owned job hjob
  refine { hk with
    jobs_unique := hk.jobs_unique.update fun r hr => hr.symm
    owned := forall_job_replaced hk.owned ⟨run, hrun, howner⟩
    checked := forall_job_replaced hk.checked hchecks
    counted := forall_job_replaced hk.counted (congrArg (· + 1) (hk.counted job hjob))
    unfinished := forall_job_replaced hk.unfinished fun _ => hk.unfinished job hjob hactive
    blank := forall_job_replaced hk.blank fun _ => hk.blank job hjob hactive
    claimed := forall_job_replaced hk.claimed fun _ => Nat.succ_pos _
    headed := fun run hrun => ⟨(hk.headed run hrun).linked, (hk.headed run hrun).version,
      (hk.headed run hrun).updated⟩
    recorded := fun event hevent => ?_
    posted := fun o ho => ?_
    putBack := forall_job_replaced hk.putBack fun hstatus => by cases hstatus }
  · refine exists_job_replaced hk.jobs_unique hjob rfl ?_ (hk.recorded event hevent)
    intro hrecorded
    obtain ⟨generation, hid, hspent⟩ := hrecorded
    exact ⟨generation, hid, spent_leased hspent⟩
  · refine exists_job_replaced hk.jobs_unique hjob rfl ?_ (hk.posted o ho)
    intro hposted
    obtain ⟨hid, houtbox, hspent⟩ := hposted
    exact ⟨hid, houtbox, spent_leased hspent⟩

/-! ## Transitions -/

theorem spent_marked (hk : Kept s) (hjob : job ∈ s.jobs) (hmarks : t.Marks job) {generation : ℕ}
    (hle : generation ≤ job.attemptGeneration) : (updatedJob t.marked t.lastError).Spent
    generation := by
  refine ⟨hmarks.attemptGeneration.symm ▸ hle, fun hunspent => ?_⟩
  rcases hunspent with hleased | ⟨hqueued, hzero⟩
  · exact absurd hleased hmarks.released
  · have hpos := hk.claimed job hjob (hmarks.putBack hqueued).1
    have heq : job.attemptGeneration = 0 := hmarks.attemptGeneration.symm.trans hzero
    omega

theorem eventsOf_committed_self (hk : Kept s) (hrun : run ∈ s.runs) :
    (s.committed run t now).eventsOf run.runId =
      s.eventsOf run.runId ++ [s.storedEvent run t now] := by
  have hlast : ∀ e ∈ s.eventsOf (s.storedEvent run t now).runId,
      e.sequence ≤ (s.storedEvent run t now).sequence := by
    intro event hevent
    have hle := (hk.headed run hrun).sequence_le hevent
    exact hle.trans (Nat.le_succ _)
  have hevents : (s.committed run t now).events = s.events ++ [s.storedEvent run t now] := rfl
  exact eventsOf_concat hevents hlast

theorem headed_committed (hk : Kept s) (hrun : run ∈ s.runs) :
    (s.committed run t now).Headed (auditedRun run t now) := by
  have hheaded := hk.headed run hrun
  have hevents : (s.committed run t now).eventsOf (auditedRun run t now).runId =
      s.eventsOf run.runId ++ [s.storedEvent run t now] := eventsOf_committed_self hk hrun
  constructor
  · rw [hevents, linked_concat]
    refine ⟨hheaded.linked, ?_, hheaded.previousHash_eq⟩
    show run.version + 1 = _
    rw [hheaded.version]
  · rw [hevents, List.length_append, List.length_singleton]
    show run.version + 1 = _
    rw [hheaded.version]
    rfl
  · rw [hevents, List.getLast?_concat]
    intro last hlast
    obtain rfl := Option.some.inj hlast
    rfl

theorem Kept.committed (hk : Kept s) (hplain : JsonColumn.KeepsPlain) (hjob : job ∈ s.jobs)
    (hrun : run ∈ s.runs) (howner : run.runId = job.runId) (hmarks : t.Marks job)
    (hcan : s.CanCommit run t) : Kept (s.committed run t now) := by
  have hstays {P : UUID → Prop} (h : ∃ r ∈ s.runs, P r.runId) :
      ∃ r ∈ (s.committed run t now).runs, P r.runId :=
    Table.exists_mem_update (fun r _ hsame hP => hsame ▸ hP) h
  have hrecorded {event : RunEventRow} (h : ∃ r ∈ s.jobs, ∃ generation,
      event.eventId = auditEventId r.jobId generation ∧ r.Spent generation) :
      ∃ r ∈ (s.committed run t now).jobs, ∃ generation,
        event.eventId = auditEventId r.jobId generation ∧ r.Spent generation := by
    refine exists_job_replaced hk.jobs_unique hjob hmarks.jobId ?_ h
    intro hold
    obtain ⟨generation, hid, hspent⟩ := hold
    exact ⟨generation, hid.trans (congrArg (auditEventId · generation) hmarks.jobId.symm),
      spent_marked hk hjob hmarks hspent.1⟩
  constructor
  · exact hk.runs_unique.update fun r hr => hr.symm
  · exact hk.jobs_unique.update fun r hr => hr.symm
  · exact hk.events_unique.concat hcan.event_fresh
  · refine forall_job_replaced (fun r hr => ?_) ?_
    · exact hstays (P := (· = r.runId)) (hk.owned r hr)
    · exact hstays (P := (· = t.marked.runId)) ⟨run, hrun, howner.trans hmarks.runId.symm⟩
  · exact forall_job_replaced hk.checked hcan.checks
  · refine forall_job_replaced hk.counted ?_
    show t.marked.attempts = t.marked.attemptGeneration
    rw [hmarks.attempts, hmarks.attemptGeneration]
    exact hk.counted job hjob
  · refine forall_job_replaced hk.unfinished fun hactive => ?_
    exact (hmarks.putBack (hactive.resolve_right hmarks.released)).2.2
  · refine forall_job_replaced hk.blank fun hactive hgeneric => ?_
    have hsnapshot := (hmarks.putBack (hactive.resolve_right hmarks.released)).2.1
    exact absurd (hmarks.jobType.trans hsnapshot) hgeneric
  · exact forall_job_replaced hk.claimed fun hleased => absurd hleased hmarks.released
  · -- the run of the transition, and the others
    refine Table.forall_mem_update (fun other hother hne => ?_) fun _ _ _ =>
      headed_committed hk hrun
    have hevents : (s.committed run t now).eventsOf other.runId = s.eventsOf other.runId :=
      eventsOf_concat_of_ne rfl (Ne.symm hne)
    have hheaded := hk.headed other hother
    constructor
    · rw [hevents]
      exact hheaded.linked
    · rw [hevents]
      exact hheaded.version
    · rw [hevents]
      exact hheaded.updated
  · intro event hevent
    rcases List.mem_append.mp hevent with hevent | hevent
    · exact hk.hashed event hevent
    · obtain rfl := List.mem_singleton.mp hevent
      have hsame : stored t.payload = t.payload := hplain _ hmarks.plain
      show _ = eventHash _ _ _ (stored t.payload)
      rw [hsame]
      rfl
  · intro event hevent
    rcases List.mem_append.mp hevent with hevent | hevent
    · exact hstays (P := (· = event.runId)) (hk.attributed event hevent)
    · obtain rfl := List.mem_singleton.mp hevent
      exact hstays (P := (· = run.runId)) ⟨run, hrun, rfl⟩
  · intro event hevent
    rcases List.mem_append.mp hevent with hevent | hevent
    · exact hrecorded (hk.recorded event hevent)
    · obtain rfl := List.mem_singleton.mp hevent
      exact ⟨_, marked_mem_committed hjob hmarks.jobId, t.generation, rfl,
        spent_marked hk hjob hmarks hmarks.generation.le⟩
  · intro o ho
    rcases List.mem_append.mp ho with ho | ho
    · refine exists_job_replaced hk.jobs_unique hjob hmarks.jobId ?_ (hk.posted o ho)
      intro hposted
      obtain ⟨hid, houtbox, hspent⟩ := hposted
      exact ⟨hid.trans hmarks.jobId.symm,
        houtbox.trans (congrArg (auditOutboxId · _) hmarks.jobId.symm),
        spent_marked hk hjob hmarks hspent.1⟩
    · obtain rfl := List.mem_singleton.mp ho
      exact ⟨_, marked_mem_committed hjob hmarks.jobId, rfl, rfl,
        spent_marked hk hjob hmarks hmarks.generation.le⟩
  · intro o ho
    rcases List.mem_append.mp ho with ho | ho
    · refine Table.exists_mem_update (fun r hr hsame hP => ?_) (hk.sequenced o ho)
      obtain rfl := hk.runs_unique.eq hr hrun hsame
      exact ⟨hP.1, hP.2.trans (Nat.le_succ _)⟩
    · obtain rfl := List.mem_singleton.mp ho
      exact ⟨auditedRun run t now, Table.mem_update.mpr ⟨run, hrun, (if_pos rfl).symm⟩, rfl,
        le_rfl⟩
  · refine forall_job_replaced (fun r hr hqueued hpos => ?_) fun _ _ => ?_
    · obtain ⟨event, hevent, hid⟩ := hk.putBack r hr hqueued hpos
      exact ⟨event, List.mem_append_left _ hevent, hid⟩
    · refine ⟨s.storedEvent run t now, List.mem_append_right _ (List.mem_singleton_self _), ?_⟩
      show auditEventId t.marked.jobId t.generation =
        auditEventId t.marked.jobId t.marked.attemptGeneration
      rw [hmarks.generation, hmarks.attemptGeneration]

/-! ## Runs -/

theorem Kept.quiet (hplain : JsonColumn.KeepsPlain) (hk : Kept s) (h : Quiet s s') : Kept s' := by
  cases h with
  | run request h => exact hk.insertRun h
  | job request h => exact hk.insertJob h
  | artifact row h => exact hk.insertArtifact h
  | transition now hjob hrun howner hmarks hcan =>
      exact hk.committed hplain hjob hrun howner hmarks hcan

theorem Kept.change (hplain : JsonColumn.KeepsPlain) (hk : Kept s) (h : Change s s') : Kept s' := by
  cases h with
  | quiet h => exact hk.quiet hplain h
  | lease request hjob hclaimable h => exact hk.lease hjob hclaimable h

theorem Kept.changes (hplain : JsonColumn.KeepsPlain) (hk : Kept s) (h : Changes s s') :
    Kept s' := by
  induction h with
  | refl => exact hk
  | tail _ hchange ih => exact ih.change hplain hchange

theorem Kept.step (hplain : JsonColumn.KeepsPlain) (hk : Kept s) (op : TimedQueueOperation) :
    Kept (s.step op) := hk.changes hplain (changes_step hk.jobs_unique op)

theorem kept_reached (hplain : JsonColumn.KeepsPlain) (ops : List TimedQueueOperation) :
    Kept (reached ops) :=
  Run.invariant_run (fun _ op hk => hk.step hplain op) kept_migrated ops

end Queue

end

end StonksPaper
