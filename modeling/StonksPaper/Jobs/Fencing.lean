import StonksPaper.Jobs.Claims
import StonksPaper.Jobs.Preserved

/-!
# Lease fencing

Each claim that is answered grants a lease. The leases of a run of the queue are counted by the
generations of its jobs, and only the latest lease of a job is accepted for its result. A result is
final: a job that has ended keeps its row and is not leased again.
-/

namespace StonksPaper

open Chain

section

variable [Hashing] [JsonColumn] {s s' : Queue} {run : WorkflowRunRow} {job : JobRow}
  {t : Queue.Transition} {now : UTCDateTime} {granted : List JobLease} {lease : JobLease}

omit [JsonColumn] in
theorem failurePayload_worker (hfree : Hashing.CollisionFree) {row row' : JobRow}
    {run run' : WorkflowRunRow} {request request' : FailJob}
    (h : failurePayload row run request = failurePayload row' run' request') :
    request.workerId = request'.workerId ∧
      request.attemptGeneration = request'.attemptGeneration ∧
      request.attemptNonce = request'.attemptNonce := by
  have hfields := (Payload.record_inj.mp h).2
  simp only [List.cons.injEq, dump_nat_inj, dump_string_inj] at hfields
  obtain ⟨-, -, hgeneration, hworker, hnonce, -⟩ := hfields
  have hnonces := (Payload.record_inj.mp (hfree.hash hnonce)).2
  simp only [List.cons.injEq, dump_nat_inj] at hnonces
  exact ⟨hworker, hgeneration, hnonces.1⟩

namespace Queue

/-! ## Leases -/

def leases : Queue → List TimedQueueOperation → List JobLease
  | _, [] => []
  | s, op :: ops => (s.granted op).toList ++ leases (s.step op) ops

def leasesOf (jobId : UUID) (granted : List JobLease) : List JobLease :=
  granted.filter (·.jobId = jobId)

theorem leases_append (s : Queue) (ops more : List TimedQueueOperation) :
    leases s (ops ++ more) = leases s ops ++ leases (Run.run step s ops) more := by
  induction ops generalizing s with
  | nil => rfl
  | cons op ops ih => simp [leases, ih]

omit [Hashing] [JsonColumn] in
theorem leasesOf_concat_self (granted : List JobLease) (lease : JobLease) :
    leasesOf lease.jobId (granted ++ [lease]) = leasesOf lease.jobId granted ++ [lease] := by
  simp [leasesOf]

omit [Hashing] [JsonColumn] in
theorem leasesOf_concat_of_ne {jobId : UUID} (h : lease.jobId ≠ jobId) :
    leasesOf jobId (granted ++ [lease]) = leasesOf jobId granted := by
  simp [leasesOf, h]

omit [Hashing] [JsonColumn] in
theorem lease_fields (h : job.lease = .success lease) :
    job.attemptNonce = some lease.attemptNonce ∧ job.leaseOwner = some lease.leaseOwner ∧
      job.leaseUntil = some lease.leaseUntil ∧ lease.attemptGeneration = job.attemptGeneration ∧
      lease.deadlineAt = job.deadlineAt := by
  unfold JobRow.lease at h
  split at h
  · rename_i hnonce howner huntil
    rw [← Attempt.success.inj h]
    exact ⟨hnonce, howner, huntil, rfl, rfl⟩
  · cases h

/-- The worker, the generation and the nonce of a request are those of the lease. -/
def HeldBy (lease : JobLease) (workerId : String) (attemptGeneration : ℕ) (attemptNonce : Nonce) :
    Prop :=
  lease.leaseOwner = workerId ∧ lease.attemptGeneration = attemptGeneration ∧
    lease.attemptNonce = attemptNonce

omit [Hashing] [JsonColumn] in
theorem heldBy_of_lease (h : job.lease = .success lease) {workerId : String}
    {attemptGeneration : ℕ} {attemptNonce : Nonce} (howner : job.leaseOwner = some workerId)
    (hgeneration : job.attemptGeneration = attemptGeneration)
    (hnonce : job.attemptNonce = some attemptNonce) :
    HeldBy lease workerId attemptGeneration attemptNonce := by
  obtain ⟨hnonce', howner', -, hgeneration', -⟩ := lease_fields h
  exact ⟨Option.some.inj (howner'.symm.trans howner), hgeneration'.trans hgeneration,
    Option.some.inj (hnonce'.symm.trans hnonce)⟩

omit [Hashing] in
theorem Grants.lease_jobId {request : ClaimJob} (h : s.Grants request now lease s' job) :
    lease.jobId = job.jobId := by
  rw [← Attempt.success.inj h.granted]
  rfl

/-! ## Jobs that have ended -/

omit [Hashing] in
theorem not_leased_of_ended (hunique : Table.Unique (·.jobId) s.jobs) {request : ClaimJob}
    {row : JobRow} (h : s.Grants request now lease s' row) (hjob : job ∈ s.jobs)
    (hended : ¬ job.status.Active) : lease.jobId ≠ job.jobId := by
  intro heq
  apply hended
  rw [hunique.eq hjob h.stored (heq.symm.trans h.lease_jobId)]
  exact active_of_claimable h.claimable

/-- A job that has ended gets no lease, whatever is asked. -/
theorem leases_of_ended (hplain : JsonColumn.KeepsPlain) (hk : Kept s) (hjob : job ∈ s.jobs)
    (hended : ¬ job.status.Active) (ops : List TimedQueueOperation) :
    leasesOf job.jobId (leases s ops) = [] := by
  induction ops generalizing s with
  | nil => rfl
  | cons op ops ih =>
      have hfirst : leasesOf job.jobId (s.granted op).toList = [] := by
        rcases quiets_step hk.jobs_unique op with ⟨-, hnone⟩ |
          ⟨retired, request, lease, row, h, hgrants, hsome⟩
        · rw [hnone]
          rfl
        · obtain ⟨hretired, hpreserved⟩ := preserved_changes hplain hk h.changes
          have hne := not_leased_of_ended hretired.jobs_unique hgrants
            (hpreserved.ended job hjob hended) hended
          rw [hsome]
          simp [leasesOf, hne]
      obtain ⟨hnext, hpreserved⟩ := preserved_changes hplain hk (changes_step hk.jobs_unique op)
      have hrest := ih hnext (hpreserved.ended job hjob hended)
      have hboth : leasesOf job.jobId (leases s (op :: ops)) =
          leasesOf job.jobId (s.granted op).toList ++
            leasesOf job.jobId (leases (s.step op) ops) := List.filter_append _ _
      rw [hboth, hfirst, hrest]
      rfl

/-! ## The invariant -/

def RecordedFor (jobId : UUID) (event : RunEventRow) : Prop :=
  ∃ generation, event.eventId = auditEventId jobId generation

/-- How the jobs stand to the leases that were granted. -/
structure Fenced (s : Queue) (granted : List JobLease) : Prop where
  known : ∀ lease ∈ granted, ∃ job ∈ s.jobs, job.jobId = lease.jobId
  counted : ∀ job ∈ s.jobs, (leasesOf job.jobId granted).length = job.attemptGeneration
  held : ∀ job ∈ s.jobs, job.status = .leased ∨ job.status = .succeeded →
    ∃ lease ∈ (leasesOf job.jobId granted).getLast?, job.lease = .success lease
  /-- Who reported the explicit failure of a job was its latest holder. -/
  failed : ∀ job ∈ s.jobs, ¬ job.status.Active → ∀ event ∈ s.events,
    event.eventId = auditEventId job.jobId job.attemptGeneration →
    ∀ row run request, event.payload = failurePayload row run request →
      ∃ lease ∈ (leasesOf job.jobId granted).getLast?,
        HeldBy lease request.workerId request.attemptGeneration request.attemptNonce
  closed : ∀ job ∈ s.jobs, ∀ event ∈ s.events, RecordedFor job.jobId event →
    EndsJob event.eventType → ¬ job.status.Active
  once : ∀ job ∈ s.jobs, ∀ event ∈ s.events, ∀ event' ∈ s.events,
    RecordedFor job.jobId event → RecordedFor job.jobId event' →
    EndsJob event.eventType → EndsJob event'.eventType → event = event'

omit [JsonColumn] in
theorem fenced_migrated : Fenced migrated [] := by
  constructor
  all_goals
    intro row hrow
    cases hrow

omit [JsonColumn] in
/-- The invariant is about the jobs and the events. -/
theorem Fenced.congr (hf : Fenced s granted) (hjobs : s'.jobs = s.jobs)
    (hevents : s'.events = s.events) : Fenced s' granted := by
  constructor
  · rw [hjobs]
    exact hf.known
  · rw [hjobs]
    exact hf.counted
  · rw [hjobs]
    exact hf.held
  · rw [hjobs, hevents]
    exact hf.failed
  · rw [hjobs, hevents]
    exact hf.closed
  · rw [hjobs, hevents]
    exact hf.once

theorem Fenced.insertJob (hf : Fenced s granted) (hk : Kept s) (hfree : Hashing.CollisionFree)
    {request : EnqueueJob} (h : s.insertJob request.row = .success s') : Fenced s' granted := by
  obtain ⟨-, ⟨hfresh, -, -, -⟩, rfl⟩ := insertJob_eq_success.mp h
  have hall {P : JobRow → Prop} (hold : ∀ job ∈ s.jobs, P job)
      (hnew : P { request.row with payload := stored request.row.payload }) :
      ∀ job ∈ s.jobs ++ [{ request.row with payload := stored request.row.payload }], P job := by
    intro job hjob
    rcases List.mem_append.mp hjob with hjob | hjob
    · exact hold job hjob
    · rw [List.mem_singleton.mp hjob]
      exact hnew
  -- no event is of a job that did not exist
  have hnone : ∀ event ∈ s.events, ¬ RecordedFor request.jobId event := by
    intro event hevent hrecorded
    obtain ⟨generation, hid⟩ := hrecorded
    obtain ⟨job, hjob, generation', hid', -⟩ := hk.recorded event hevent
    exact hfresh job hjob (auditEventId_inj hfree (hid'.symm.trans hid)).1
  constructor
  · intro lease hlease
    obtain ⟨job, hjob, hid⟩ := hf.known lease hlease
    exact ⟨job, List.mem_append_left _ hjob, hid⟩
  · refine hall hf.counted ?_
    have hempty : leasesOf request.jobId granted = [] := by
      rw [leasesOf, List.filter_eq_nil_iff]
      intro lease hlease heq
      obtain ⟨job, hjob, hid⟩ := hf.known lease hlease
      exact hfresh job hjob (hid.trans (of_decide_eq_true heq))
    exact congrArg List.length hempty
  · refine hall hf.held fun hstatus => ?_
    rcases hstatus with hstatus | hstatus
    · cases hstatus
    · cases hstatus
  · exact hall hf.failed fun hended => absurd (.inl rfl) hended
  · exact hall hf.closed fun event hevent hrecorded => absurd hrecorded (hnone event hevent)
  · exact hall hf.once fun event hevent _ _ hrecorded =>
      absurd hrecorded (hnone event hevent)

omit [Hashing] [JsonColumn] in
theorem forall_job_updated {P : JobRow → Prop} {jobId : UUID} {row : JobRow}
    (hother : ∀ r ∈ s.jobs, r.jobId ≠ jobId → P r) (hnew : P row) :
    ∀ r ∈ Table.update (·.jobId = jobId) (fun _ => row) s.jobs, P r :=
  Table.forall_mem_update hother fun _ _ _ => hnew

theorem Fenced.committed (hf : Fenced s granted) (hfree : Hashing.CollisionFree)
    (hplain : JsonColumn.KeepsPlain) (hk : Kept s) (hjob : job ∈ s.jobs) (hmarks : t.Marks job)
    (hcan : s.CanCommit run t) : Fenced (s.committed run t now) granted := by
  have hjobId : (updatedJob t.marked t.lastError).jobId = job.jobId := hmarks.jobId
  have hcases {event : RunEventRow} (h : event ∈ (s.committed run t now).events) :
      event ∈ s.events ∨ event = s.storedEvent run t now := by
    rcases List.mem_append.mp h with h | h
    · exact .inl h
    · exact .inr (List.mem_singleton.mp h)
  -- the new event is of the job alone
  have hnew {jobId : UUID} {generation : ℕ}
      (h : (s.storedEvent run t now).eventId = auditEventId jobId generation) :
      jobId = job.jobId := by
    have hsame := (auditEventId_inj hfree h).1
    exact hsame.symm.trans hmarks.jobId
  have hopen : ∀ event ∈ s.events, RecordedFor job.jobId event → ¬ EndsJob event.eventType :=
    fun event hevent hrecorded hends =>
      hf.closed job hjob event hevent hrecorded hends hmarks.active
  constructor
  · intro lease hlease
    obtain ⟨other, hother, hid⟩ := hf.known lease hlease
    refine exists_job_replaced hk.jobs_unique hjob hmarks.jobId ?_ ⟨other, hother, hid⟩
    exact fun hid => hjobId.trans hid
  · refine forall_job_updated (fun r hr _ => hf.counted r hr) ?_
    rw [hjobId]
    exact (hf.counted job hjob).trans hmarks.attemptGeneration.symm
  · refine forall_job_updated (fun r hr _ => hf.held r hr) fun hstatus => ?_
    obtain ⟨hleased, hlease⟩ := hmarks.kept (hstatus.resolve_left hmarks.released)
    obtain ⟨lease, hlast, hheld⟩ := hf.held job hjob (.inl hleased)
    rw [hjobId]
    exact ⟨lease, hlast, hlease.trans hheld⟩
  · refine forall_job_updated (fun r hr hne hended event hevent hid => ?_)
      fun _ event hevent hid => ?_
    · rcases hcases hevent with hevent | rfl
      · exact hf.failed r hr hended event hevent hid
      · exact absurd ((hnew hid).trans hmarks.jobId.symm) hne
    · have hid : event.eventId = auditEventId t.marked.jobId t.marked.attemptGeneration := hid
      rw [hmarks.attemptGeneration, ← hmarks.generation] at hid
      rcases hcases hevent with hevent | rfl
      · exact absurd hid (hcan.event_fresh event hevent)
      · intro row run' request hpayload
        have hpayload : t.payload = failurePayload row run' request :=
          (hplain _ hmarks.plain).symm.trans hpayload
        rcases hmarks.failed with ⟨run₀, holder, hpayload', hheld⟩ | hnot
        · obtain ⟨hworker, hgeneration, hnonce⟩ :=
            failurePayload_worker hfree (hpayload'.symm.trans hpayload)
          obtain ⟨lease, hlast, hlease⟩ := hf.held job hjob (.inl hheld.2.1)
          have hby := heldBy_of_lease hlease hheld.2.2.1 hheld.2.2.2.1 hheld.2.2.2.2
          rw [hworker, hgeneration, hnonce] at hby
          rw [hjobId]
          exact ⟨lease, hlast, hby⟩
        · exact absurd hpayload (hnot row run' request)
  · refine forall_job_updated (fun r hr hne event hevent hrecorded => ?_)
      fun event hevent hrecorded hends => ?_
    · rcases hcases hevent with hevent | rfl
      · exact hf.closed r hr event hevent hrecorded
      · obtain ⟨generation, hid⟩ := hrecorded
        exact absurd ((hnew hid).trans hmarks.jobId.symm) hne
    · rw [hjobId] at hrecorded
      rcases hcases hevent with hevent | rfl
      · exact absurd hends (hopen event hevent hrecorded)
      · exact hmarks.ends hends
  · refine forall_job_updated (fun r hr hne event hevent event' hevent' hrecorded hrecorded' => ?_)
      fun event hevent event' hevent' hrecorded hrecorded' hends hends' => ?_
    · rcases hcases hevent with hevent | rfl
      · rcases hcases hevent' with hevent' | rfl
        · exact hf.once r hr event hevent event' hevent' hrecorded hrecorded'
        · obtain ⟨generation, hid⟩ := hrecorded'
          exact absurd ((hnew hid).trans hmarks.jobId.symm) hne
      · obtain ⟨generation, hid⟩ := hrecorded
        exact absurd ((hnew hid).trans hmarks.jobId.symm) hne
    · rw [hjobId] at hrecorded hrecorded'
      rcases hcases hevent with hevent | rfl
      · exact absurd hends (hopen event hevent hrecorded)
      · rcases hcases hevent' with hevent' | rfl
        · exact absurd hends' (hopen event' hevent' hrecorded')
        · rfl

theorem Fenced.quiet (hf : Fenced s granted) (hfree : Hashing.CollisionFree)
    (hplain : JsonColumn.KeepsPlain) (hk : Kept s) (h : Quiet s s') : Fenced s' granted := by
  cases h with
  | run request h =>
      obtain ⟨-, rfl⟩ := insertRun_eq_success.mp h
      exact hf.congr rfl rfl
  | job request h => exact hf.insertJob hk hfree h
  | artifact row h =>
      obtain ⟨-, rfl⟩ := insertArtifact_eq_success.mp h
      exact hf.congr rfl rfl
  | transition now hjob hrun howner hmarks hcan =>
      exact hf.committed hfree hplain hk hjob hmarks hcan

theorem Fenced.quiets (hf : Fenced s granted) (hfree : Hashing.CollisionFree)
    (hplain : JsonColumn.KeepsPlain) (hk : Kept s) (h : Quiets s s') :
    Kept s' ∧ Fenced s' granted := by
  induction h with
  | refl => exact ⟨hk, hf⟩
  | tail _ hquiet ih =>
      exact ⟨ih.1.quiet hplain hquiet, ih.2.quiet hfree hplain ih.1 hquiet⟩

/-- A new lease becomes the latest one of its job, and of no other. -/
theorem Fenced.grants (hf : Fenced s granted) (hk : Kept s) {request : ClaimJob}
    (h : s.Grants request now lease s' job) : Fenced s' (granted ++ [lease]) := by
  have hid : lease.jobId = job.jobId := h.lease_jobId
  have hself : leasesOf job.jobId (granted ++ [lease]) = leasesOf job.jobId granted ++ [lease] :=
    hid ▸ leasesOf_concat_self granted lease
  have hother {jobId : UUID} (hne : jobId ≠ job.jobId) :
      leasesOf jobId (granted ++ [lease]) = leasesOf jobId granted :=
    leasesOf_concat_of_ne fun heq => hne (heq.symm.trans hid)
  have hactive := active_of_claimable h.claimable
  obtain ⟨-, -, rfl⟩ := updateJob_eq_success.mp h.updated
  constructor
  · intro granted hgranted
    refine exists_job_replaced hk.jobs_unique h.stored rfl id ?_
    rcases List.mem_append.mp hgranted with hgranted | hgranted
    · exact hf.known granted hgranted
    · rw [List.mem_singleton.mp hgranted]
      exact ⟨job, h.stored, hid.symm⟩
  · refine forall_job_updated (fun r hr hne => ?_) ?_
    · rw [hother hne]
      exact hf.counted r hr
    · show (leasesOf job.jobId (granted ++ [lease])).length = job.attemptGeneration + 1
      rw [hself, List.length_append, List.length_singleton, hf.counted job h.stored]
  · refine forall_job_updated (fun r hr hne => ?_) fun _ => ?_
    · rw [hother hne]
      exact hf.held r hr
    · refine ⟨lease, ?_, h.granted⟩
      show (leasesOf job.jobId (granted ++ [lease])).getLast? = some lease
      rw [hself, List.getLast?_concat]
  · refine forall_job_updated (fun r hr hne => ?_) fun hended => absurd (.inr rfl) hended
    rw [hother hne]
    exact hf.failed r hr
  · refine forall_job_updated (fun r hr _ => hf.closed r hr) fun event hevent hrecorded hends => ?_
    exact absurd hactive (hf.closed job h.stored event hevent hrecorded hends)
  · exact forall_job_updated (fun r hr _ => hf.once r hr) (hf.once job h.stored)

theorem Fenced.step (hf : Fenced s granted) (hfree : Hashing.CollisionFree)
    (hplain : JsonColumn.KeepsPlain) (hk : Kept s) (op : TimedQueueOperation) :
    Fenced (s.step op) (granted ++ (s.granted op).toList) := by
  rcases quiets_step hk.jobs_unique op with ⟨h, hnone⟩ |
    ⟨retired, request, lease, job, h, hgrants, hsome⟩
  · rw [hnone, Option.toList_none, List.append_nil]
    exact (hf.quiets hfree hplain hk h).2
  · rw [hsome]
    obtain ⟨hretired, hfenced⟩ := hf.quiets hfree hplain hk h
    exact hfenced.grants hretired hgrants

theorem fenced_run (hf : Fenced s granted) (hfree : Hashing.CollisionFree)
    (hplain : JsonColumn.KeepsPlain) (hk : Kept s) (ops : List TimedQueueOperation) :
    Fenced (Run.run Queue.step s ops) (granted ++ leases s ops) := by
  induction ops generalizing s granted with
  | nil => simpa [leases] using hf
  | cons op ops ih =>
      have hrest := ih (hf.step hfree hplain hk op) (hk.step hplain op)
      rw [List.append_assoc] at hrest
      exact hrest

def reachedLeases (ops : List TimedQueueOperation) : List JobLease := leases migrated ops

theorem fenced_reached (hfree : Hashing.CollisionFree) (hplain : JsonColumn.KeepsPlain)
    (ops : List TimedQueueOperation) : Fenced (reached ops) (reachedLeases ops) :=
  fenced_run fenced_migrated hfree hplain kept_migrated ops

/-! ## Accepted requests -/

/-- The request is that of the job's latest lease. What it writes is written before the lease and
the deadline have passed; after that it can only repeat what is recorded. -/
def FromLatestHolder (granted : List JobLease) (jobId : UUID) (workerId : String)
    (attemptGeneration : ℕ) (attemptNonce : Nonce) (now : UTCDateTime) (unchanged : Prop) : Prop :=
  ∃ lease ∈ (leasesOf jobId granted).getLast?,
    HeldBy lease workerId attemptGeneration attemptNonce ∧
      (unchanged ∨ now < lease.leaseUntil ∧ now < lease.deadlineAt)

omit [JsonColumn] in
theorem Fenced.holds (hf : Fenced s granted) (hjob : job ∈ s.jobs) {workerId : String}
    {attemptGeneration : ℕ} {attemptNonce : Nonce}
    (hheld : LeaseHeld job workerId attemptGeneration attemptNonce) (hruns : LeaseRuns job now)
    (unchanged : Prop) :
    FromLatestHolder granted job.jobId workerId attemptGeneration attemptNonce now unchanged := by
  obtain ⟨lease, hlast, hlease⟩ := hf.held job hjob (.inl hheld.2.1)
  obtain ⟨-, -, huntil, -, hdeadline⟩ := lease_fields hlease
  obtain ⟨⟨leaseUntil, hstored, hbefore⟩, hdeadlineAt⟩ := hruns
  obtain rfl := Option.some.inj (huntil.symm.trans hstored)
  refine ⟨lease, hlast, heldBy_of_lease hlease hheld.2.2.1 hheld.2.2.2.1 hheld.2.2.2.2, .inr ?_⟩
  exact ⟨hbefore, hdeadline ▸ hdeadlineAt⟩

theorem Fenced.complete (hf : Fenced s granted) {request : CompleteJob}
    {artifact : Option ArtifactManifest} {receipt : JobCompletionReceipt}
    (h : s.complete request artifact now = .success (receipt, s')) :
    FromLatestHolder granted request.jobId request.workerId request.attemptGeneration
      request.attemptNonce now (s' = s) := by
  obtain ⟨job, hread, -, hcases⟩ := complete_eq_success.mp h
  obtain ⟨hjob, hid⟩ := job_of_eq_some hread
  rw [← hid]
  rcases hcases with ⟨hsucceeded, hreceipt, hsame⟩ | ⟨-, hactive⟩
  · obtain ⟨run, event, outbox, row, -, -, -, -, hvalid, -⟩ :=
      completedJobReceipt_eq_success.mp hreceipt
    obtain ⟨lease, hlast, hlease⟩ := hf.held job hjob (.inr hsucceeded)
    refine ⟨lease, hlast, heldBy_of_lease hlease hvalid.2.1 hvalid.2.2.1 hvalid.2.2.2.2.1, ?_⟩
    exact .inl hsame
  · obtain ⟨hheld, hruns, -⟩ := completeActiveJob_eq_success hactive
    exact hf.holds hjob hheld hruns _

theorem Fenced.fail (hf : Fenced s granted) {request : FailJob} {receipt : JobFailureReceipt}
    (h : s.fail request now = .success (receipt, s')) :
    FromLatestHolder granted request.jobId request.workerId request.attemptGeneration
      request.attemptNonce now (s' = s) := by
  obtain ⟨job, hread, -, hcases⟩ := fail_eq_success.mp h
  obtain ⟨hjob, hid⟩ := job_of_eq_some hread
  rw [← hid]
  rcases hcases with ⟨hdead, hreceipt, hsame⟩ | ⟨-, hactive⟩
  · obtain ⟨run, event, outbox, -, hevent, -, hvalid, hgraph, -⟩ :=
      failedJobReceipt_eq_success.mp hreceipt
    have hended : ¬ job.status.Active := by simp [hdead, JobStatus.Active]
    have hrecorded := Table.key_of_get hevent
    rw [← hvalid.2.2.2.2.1] at hrecorded
    obtain ⟨lease, hlast, hheld⟩ := hf.failed job hjob hended event (Table.mem_of_get hevent)
      hrecorded job run request hgraph.2.2.2.2.1
    exact ⟨lease, hlast, hheld, .inl hsame⟩
  · obtain ⟨hheld, hruns, -⟩ := failActiveJob_eq_success hactive
    exact hf.holds hjob hheld hruns _

/-! ## Refused claims -/

/-- A claim that fails changes nothing but the jobs that it retires, and those only if it has found
no claimable one. -/
theorem claim_refused (hplain : JsonColumn.KeepsPlain) (hk : Kept s) {request : ClaimJob}
    {locked : List UUID} {error : Failure}
    (h : (s.claim request locked now).1 = .failure error) :
    (s.claim request locked now).2 = s ∨
      (error = { code := .notFound, message := "No claimable job" } ∧
        s.deadLetterUnclaimable locked now = .success (s.claim request locked now).2 ∧
        ∀ job ∈ s.jobs, job ∈ (s.claim request locked now).2.jobs ∨
          Unclaimable now job ∧ ∃ row ∈ (s.claim request locked now).2.jobs,
            row.jobId = job.jobId ∧ row.status = .deadLetter) := by
  rcases claim_cases s request locked now with ⟨hsame, -⟩ | ⟨lease, htransaction, hanswer⟩
  · exact .inl hsame
  · rw [hanswer] at h
    obtain ⟨retired, hretired, hlease⟩ := claimTransaction_eq_success.mp htransaction
    rcases hlease with ⟨-, rfl, hsame⟩ | ⟨job, -, -, granted, -, rfl⟩
    · refine .inr ⟨(Attempt.failure.inj h).symm, hsame ▸ hretired, fun job hjob => ?_⟩
      obtain ⟨-, -, hleft, hdead⟩ := deadLetterJobs_retired hk hplain locked
        (nodup_unclaimable hk.jobs_unique locked now)
        (fun job hjob => ⟨(mem_unclaimable hjob).1, (mem_unclaimable hjob).2.1⟩) hretired
      rw [hsame]
      by_cases hselected : job.jobId ∈ (s.unclaimable locked now).map (·.jobId)
      · obtain ⟨other, hother, hid⟩ := List.mem_map.mp hselected
        obtain ⟨hstored, hunclaimable, -⟩ := mem_unclaimable hother
        obtain rfl := hk.jobs_unique.eq hstored hjob hid
        exact .inr ⟨hunclaimable, hdead other hother⟩
      · exact .inl (hleft job hjob hselected)
    · cases h

/-! ## Fencing -/

/-- What the fence of the queue guarantees after the operations. -/
structure LeaseFencing (ops : List TimedQueueOperation) : Prop where
  counted : ∀ job ∈ (reached ops).jobs,
    job.attemptGeneration = (leasesOf job.jobId (reachedLeases ops)).length ∧
      job.attempts = job.attemptGeneration ∧ job.attempts ≤ job.maxAttempts
  completes : ∀ request artifact now receipt s',
    (reached ops).complete request artifact now = .success (receipt, s') →
      FromLatestHolder (reachedLeases ops) request.jobId request.workerId
        request.attemptGeneration request.attemptNonce now (s' = reached ops)
  fails : ∀ request now receipt s', (reached ops).fail request now = .success (receipt, s') →
    FromLatestHolder (reachedLeases ops) request.jobId request.workerId
      request.attemptGeneration request.attemptNonce now (s' = reached ops)
  unique : Table.Unique (·.eventId) (reached ops).events
  once : ∀ job ∈ (reached ops).jobs, ∀ event ∈ (reached ops).events,
    ∀ event' ∈ (reached ops).events, RecordedFor job.jobId event → RecordedFor job.jobId event' →
      EndsJob event.eventType → EndsJob event'.eventType → event = event'
  final : ∀ job ∈ (reached ops).jobs, ∀ event ∈ (reached ops).events,
    RecordedFor job.jobId event → EndsJob event.eventType → ∀ more,
      job ∈ (reached (ops ++ more)).jobs ∧
        leasesOf job.jobId (reachedLeases (ops ++ more)) = leasesOf job.jobId (reachedLeases ops)
  refusedCompletion : ∀ request artifact now error,
    (reached ops).complete request artifact now = .failure error →
      reached (ops ++ [(.complete request artifact, now)]) = reached ops
  refusedFailure : ∀ request now error, (reached ops).fail request now = .failure error →
    reached (ops ++ [(.fail request, now)]) = reached ops
  refusedClaim : ∀ request locked now error,
    ((reached ops).claim request locked now).1 = .failure error →
      reached (ops ++ [(.claim request locked, now)]) = reached ops ∨
        (error = { code := .notFound, message := "No claimable job" } ∧
          (reached ops).deadLetterUnclaimable locked now =
            .success (reached (ops ++ [(.claim request locked, now)])) ∧
          ∀ job ∈ (reached ops).jobs,
            job ∈ (reached (ops ++ [(.claim request locked, now)])).jobs ∨
              Unclaimable now job ∧
                ∃ row ∈ (reached (ops ++ [(.claim request locked, now)])).jobs,
                  row.jobId = job.jobId ∧ row.status = .deadLetter)

theorem leaseFencing_reached (hfree : Hashing.CollisionFree) (hplain : JsonColumn.KeepsPlain)
    (ops : List TimedQueueOperation) : LeaseFencing ops := by
  have hk := kept_reached hplain ops
  have hf := fenced_reached hfree hplain ops
  constructor
  · intro job hjob
    exact ⟨(hf.counted job hjob).symm, hk.counted job hjob, (hk.checked job hjob).2.1⟩
  · intro request artifact now receipt s' h
    exact hf.complete h
  · intro request now receipt s' h
    exact hf.fail h
  · exact hk.events_unique
  · exact hf.once
  · intro job hjob event hevent hrecorded hends more
    have hended := hf.closed job hjob event hevent hrecorded hends
    have hrun := (preserved_run hplain hk more).2.ended job hjob hended
    have hnone := leases_of_ended hplain hk hjob hended more
    have hleases : reachedLeases (ops ++ more) = reachedLeases ops ++ leases (reached ops) more :=
      leases_append migrated ops more
    refine ⟨(reached_append ops more).symm ▸ hrun, ?_⟩
    rw [hleases, leasesOf, List.filter_append]
    rw [leasesOf] at hnone
    rw [hnone, List.append_nil, leasesOf]
  · intro request artifact now error h
    rw [reached_append]
    show (reached ops).kept ((reached ops).complete request artifact now) = reached ops
    rw [h]
    rfl
  · intro request now error h
    rw [reached_append]
    show (reached ops).kept ((reached ops).fail request now) = reached ops
    rw [h]
    rfl
  · intro request locked now error h
    rw [reached_append]
    exact claim_refused hplain hk h

end Queue

end

/-! ## Concrete claims -/

namespace Queue

open scoped CodeHashing PlainColumns

/-- The snapshot job of the scenario is retired at its deadline by a claim that finds no job. -/
theorem leaseFencing_opened :
    LeaseFencing QueueScenario.opened ∧ (reached QueueScenario.opened).jobs ≠ [] :=
  ⟨leaseFencing_reached CodeHashing.collisionFree PlainColumns.keepsPlain QueueScenario.opened,
    by decide +kernel⟩

/-- A refused claim can change jobs, runs, events and the outbox, and a completion can be repeated
after the lease has passed. -/
theorem refused_claim_changes :
    (((reached QueueScenario.opened).claim (QueueScenario.claim 6) [] 200).1 =
        .refused .notFound "No claimable job" ∧
      ((reached QueueScenario.opened).claim (QueueScenario.claim 6) [] 200).2.jobs ≠
        (reached QueueScenario.opened).jobs ∧
      ((reached QueueScenario.opened).claim (QueueScenario.claim 6) [] 200).2.runs ≠
        (reached QueueScenario.opened).runs ∧
      ((reached QueueScenario.opened).claim (QueueScenario.claim 6) [] 200).2.events ≠
        (reached QueueScenario.opened).events ∧
      ((reached QueueScenario.opened).claim (QueueScenario.claim 6) [] 200).2.outbox ≠
        (reached QueueScenario.opened).outbox) ∧
    (∀ lease ∈ (leasesOf 21 (reachedLeases ResearchScenario.claimed)).getLast?,
      lease.leaseUntil ≤ 50) ∧
    ((reached (ResearchScenario.claimed ++ [ResearchScenario.complete])).complete
      ResearchScenario.completion (some ResearchScenario.artifact) 50).Succeeds := by
  decide +kernel

end Queue

end StonksPaper
