import StonksPaper.Jobs.Kept

/-!
# Claims and the jobs they retire

A claim retires every unclaimable job in its own transaction, so that one job which cannot be
retired stops all claims. The theorem says which jobs these are, in every state that the queue can
be in.
-/

namespace StonksPaper

open Chain

section

variable [Hashing]

/-! ## Identifiers -/

omit [Hashing] in
theorem auditName_inj {jobId jobId' : UUID} {part part' : String} {generation generation' : ℕ} :
    auditName jobId part generation = auditName jobId' part' generation' ↔
      jobId = jobId' ∧ part = part' ∧ generation = generation' := by
  simp [auditName]

theorem auditEventId_inj (hfree : Hashing.CollisionFree) {jobId jobId' : UUID}
    {generation generation' : ℕ}
    (h : auditEventId jobId generation = auditEventId jobId' generation') :
    jobId = jobId' ∧ generation = generation' := by
  obtain ⟨hjob, -, hgeneration⟩ := auditName_inj.mp (hfree.uuid h)
  exact ⟨hjob, hgeneration⟩

theorem auditOutboxId_inj (hfree : Hashing.CollisionFree) {jobId jobId' : UUID}
    {generation generation' : ℕ}
    (h : auditOutboxId jobId generation = auditOutboxId jobId' generation') :
    jobId = jobId' ∧ generation = generation' := by
  obtain ⟨hjob, -, hgeneration⟩ := auditName_inj.mp (hfree.uuid h)
  exact ⟨hjob, hgeneration⟩

theorem eventHash_id (hfree : Hashing.CollisionFree) {eventId eventId' : UUID}
    {sequence sequence' : ℕ} {previous previous' : Option Sha256} {payload payload' : Payload}
    (h : eventHash eventId sequence previous payload =
      eventHash eventId' sequence' previous' payload') : eventId = eventId' := by
  have hfields := (Payload.record_inj.mp (hfree.hash h)).2
  simp only [List.cons.injEq, dump_nat_inj] at hfields
  exact hfields.1

variable [JsonColumn] {s s' : Queue} {run : WorkflowRunRow} {job : JobRow}
  {t : Queue.Transition} {now : UTCDateTime} {request : ClaimJob} {locked : List UUID}

namespace Queue

/-! ## Jobs that can be retired -/

/-- Nothing stands in the way of the job's dead letter: its payload is still the one whose hash was
recorded, what is recorded about it passes the scan, and it is not waiting for the retry of a failed
snapshot attempt. -/
structure Retirable (job : JobRow) (now : UTCDateTime) : Prop where
  canonical : stablePayloadHash job.payload = job.payloadHash
  clean : ∀ reason, deadLetterReason job now = .success reason →
    secretFree (deadLetterPayload job reason) = true ∧
    secretFree (deadLetterError job reason) = true
  notPutBack : ¬ (job.status = .queued ∧ 0 < job.attemptGeneration)

theorem Retirable.unspent (h : Retirable job now) (hunclaimable : Unclaimable now job) :
    job.Unspent := by
  rcases hunclaimable.1 with hqueued | hleased
  · refine .inr ⟨hqueued, ?_⟩
    have hnot := h.notPutBack
    by_contra hne
    exact hnot ⟨hqueued, Nat.pos_of_ne_zero hne⟩
  · exact .inl hleased

omit [JsonColumn] in
theorem Kept.event_fresh (hk : Kept s) (hfree : Hashing.CollisionFree) (hjob : job ∈ s.jobs)
    (hunspent : job.Unspent) :
    Table.Fresh (·.eventId) (auditEventId job.jobId job.attemptGeneration) s.events := by
  intro event hevent heq
  obtain ⟨other, hother, generation, hid, hspent⟩ := hk.recorded event hevent
  obtain ⟨hjobId, hgeneration⟩ := auditEventId_inj hfree (hid.symm.trans heq)
  obtain rfl := hk.jobs_unique.eq hother hjob hjobId
  have hlt := hspent.2 hunspent
  omega

omit [JsonColumn] in
theorem Kept.outbox_fresh (hk : Kept s) (hfree : Hashing.CollisionFree) (hjob : job ∈ s.jobs)
    (hunspent : job.Unspent) :
    Table.Fresh (·.outboxId) (auditOutboxId job.jobId job.attemptGeneration) s.outbox := by
  intro o ho heq
  obtain ⟨other, hother, -, hid, hspent⟩ := hk.posted o ho
  obtain ⟨hjobId, hgeneration⟩ := auditOutboxId_inj hfree (hid.symm.trans heq)
  obtain rfl := hk.jobs_unique.eq hother hjob hjobId
  have hlt := hspent.2 hunspent
  omega

omit [JsonColumn] in
theorem Kept.key_fresh (hk : Kept s) (hjob : job ∈ s.jobs) (hunspent : job.Unspent)
    (kind : AuditKind) :
    Table.Fresh (·.idempotencyKey) ⟨job.jobId, kind, job.attemptGeneration⟩ s.outbox := by
  intro o ho heq
  have heq : o.idempotencyKey = ⟨job.jobId, kind, job.attemptGeneration⟩ := heq
  obtain ⟨other, hother, hjobId, -, hspent⟩ := hk.posted o ho
  rw [heq] at hjobId hspent
  obtain rfl := hk.jobs_unique.eq hother hjob hjobId.symm
  have hlt := hspent.2 hunspent
  exact absurd hlt (lt_irrefl _)

/-- A transition of a generation that is not over is committed, if it passes the scan. -/
theorem Kept.canCommit (hk : Kept s) (hfree : Hashing.CollisionFree) (hjob : job ∈ s.jobs)
    (hrun : run ∈ s.runs) (hunspent : job.Unspent) (hmarks : t.Marks job)
    (hpayload : secretFree t.payload = true)
    (herror : ∀ error ∈ t.lastError, secretFree error = true) (hchecks : s.JobChecks t.marked) :
    s.CanCommit run t := by
  have hevent := hk.event_fresh hfree hjob hunspent
  rw [← hmarks.jobId, ← hmarks.generation] at hevent
  have houtbox := hk.outbox_fresh hfree hjob hunspent
  rw [← hmarks.jobId, ← hmarks.generation] at houtbox
  have hkey := hk.key_fresh hjob hunspent t.kind
  rw [← hmarks.jobId, ← hmarks.generation] at hkey
  refine ⟨hpayload, herror, hevent, ?_, ?_, ?_, houtbox, hkey, ?_, hchecks⟩
  · intro event hstored heq
    obtain ⟨howner, hsequence⟩ := Prod.mk.inj heq
    have hle := (hk.headed run hrun).sequence_le (mem_eventsOf.mpr ⟨hstored, howner⟩)
    omega
  · intro event hstored heq
    exact hevent event hstored (eventHash_id hfree ((hk.hashed event hstored).symm.trans heq))
  · intro hnone
    exact Table.get_eq_none.mp hnone run hrun rfl
  · intro o ho heq
    obtain ⟨-, howner, hsequence⟩ : o.aggregateType = "run" ∧ o.aggregateId = run.runId ∧
      o.sequence = run.version + 1 := by simpa using heq
    obtain ⟨other, hother, hid, hle⟩ := hk.sequenced o ho
    obtain rfl := hk.runs_unique.eq hother hrun (hid.trans howner)
    omega

theorem deadLetterJob_succeeds (hk : Kept s) (hfree : Hashing.CollisionFree) (hjob : job ∈ s.jobs)
    (hunclaimable : Unclaimable now job) (h : Retirable job now) :
    ∃ s', s.deadLetterJob now job = .success s' := by
  obtain ⟨run, hrun, howner⟩ := hk.owned job hjob
  have hread : s.run job.runId = some run := howner ▸ Table.get_of_mem hk.runs_unique hrun
  obtain ⟨reason, hreason⟩ := deadLetterReason_of_unclaimable hunclaimable
  have hmarks := deadLettered_marks hunclaimable reason
  have hcan : s.CanCommit run (deadLettered job reason now) := by
    refine hk.canCommit hfree hjob hrun (h.unspent hunclaimable) hmarks (h.clean reason hreason).1
      (fun error herror => ?_) (hk.checked job hjob)
    obtain rfl := Option.some.inj herror
    exact (h.clean reason hreason).2
  exact ⟨_, deadLetterJob_eq_success.mpr ⟨h.canonical, hk.unfinished job hjob hunclaimable.1, run,
    hread, hk.requireValidAuditHead hrun, reason, hreason, hcan, rfl⟩⟩

/-! ## The loop -/

theorem jobs_of_deadLetterJob (h : s.deadLetterJob now job = .success s') :
    ∃ row, row.jobId = job.jobId ∧ row.status = .deadLetter ∧
      s'.jobs = Table.update (·.jobId = job.jobId) (fun _ => row) s.jobs := by
  obtain ⟨-, -, run, -, -, reason, -, -, rfl⟩ := deadLetterJob_eq_success.mp h
  exact ⟨updatedJob (deadLettered job reason now).marked (deadLettered job reason now).lastError,
    rfl, rfl, rfl⟩

theorem Kept.deadLetterJob (hk : Kept s) (hplain : JsonColumn.KeepsPlain) (hjob : job ∈ s.jobs)
    (hunclaimable : Unclaimable now job) (h : s.deadLetterJob now job = .success s') : Kept s' :=
  hk.quiet hplain (quiet_of_deadLetterJob hjob hunclaimable h)

/-- The loop succeeds when each of its jobs can be retired. -/
theorem deadLetterJobs_succeed (hk : Kept s) (hfree : Hashing.CollisionFree)
    (hplain : JsonColumn.KeepsPlain) {jobs : List JobRow} (hnodup : (jobs.map (·.jobId)).Nodup)
    (hjobs : ∀ job ∈ jobs, job ∈ s.jobs ∧ Unclaimable now job ∧ Retirable job now) :
    ∃ s', jobs.foldlM (fun s job => s.deadLetterJob now job) s = .success s' := by
  induction jobs generalizing s with
  | nil => exact ⟨s, rfl⟩
  | cons job jobs ih =>
      obtain ⟨hjob, hunclaimable, hretirable⟩ := hjobs job (List.mem_cons_self ..)
      obtain ⟨next, hnext⟩ := deadLetterJob_succeeds hk hfree hjob hunclaimable hretirable
      obtain ⟨hother, hnodup⟩ := List.nodup_cons.mp hnodup
      obtain ⟨row, -, -, htable⟩ := jobs_of_deadLetterJob hnext
      have hrest : ∀ other ∈ jobs, other ∈ next.jobs ∧ Unclaimable now other ∧
          Retirable other now := by
        intro other hmem
        obtain ⟨hstored, hrest⟩ := hjobs other (List.mem_cons_of_mem _ hmem)
        have hne : ¬ other.jobId = job.jobId := fun heq => hother (by
          rw [List.mem_map]
          exact ⟨other, hmem, heq⟩)
        rw [htable]
        exact ⟨Table.mem_update.mpr ⟨other, hstored, (if_neg hne).symm⟩, hrest⟩
      obtain ⟨s', hs'⟩ := ih (hk.deadLetterJob hplain hjob hunclaimable hnext) hnodup hrest
      refine ⟨s', ?_⟩
      rw [List.foldlM_cons, hnext]
      exact hs'

/-- Every job that the loop has retired could be. -/
theorem of_deadLetterJobs {jobs : List JobRow}
    (h : jobs.foldlM (fun s job => s.deadLetterJob now job) s = .success s') :
    ∀ job ∈ jobs, stablePayloadHash job.payload = job.payloadHash ∧
      ∀ reason, deadLetterReason job now = .success reason →
        secretFree (deadLetterPayload job reason) = true ∧
        secretFree (deadLetterError job reason) = true := by
  refine Attempt.foldlM_induct (P := fun jobs _ _ => ∀ job ∈ jobs,
    stablePayloadHash job.payload = job.payloadHash ∧
      ∀ reason, deadLetterReason job now = .success reason →
        secretFree (deadLetterPayload job reason) = true ∧
        secretFree (deadLetterError job reason) = true) ?_ ?_ h
  · intro s job hjob
    cases hjob
  · intro job jobs s next s' hnext hrest other hother
    rcases List.mem_cons.mp hother with rfl | hother
    · obtain ⟨hcanonical, -, run, -, -, reason, hreason, hcan, -⟩ :=
        deadLetterJob_eq_success.mp hnext
      refine ⟨hcanonical, fun reason' hreason' => ?_⟩
      obtain rfl := Attempt.success.inj (hreason.symm.trans hreason')
      exact ⟨hcan.payload_clean, hcan.error_clean _ rfl⟩
    · exact hrest other hother

omit [Hashing] [JsonColumn] in
theorem not_claimable_of_unclaimable (h : Unclaimable now job) : ¬ Claimable now job := by
  intro hclaimable
  obtain ⟨-, -, hdeadline, hattempts⟩ := hclaimable
  rcases h.2 with hpassed | ⟨-, -, hexhausted⟩
  · exact absurd hdeadline (not_lt.mpr hpassed)
  · exact absurd hattempts (not_lt.mpr hexhausted)

omit [Hashing] [JsonColumn] in
theorem not_claimable_of_deadLetter (h : job.status = .deadLetter) : ¬ Claimable now job := by
  intro hclaimable
  rcases hclaimable.1 with hqueued | ⟨hleased, -⟩
  · rw [h] at hqueued
    cases hqueued
  · rw [h] at hleased
    cases hleased

/-- What the loop leaves: its jobs are dead letters, and the claimable jobs are those of before. -/
theorem deadLetterJobs_retired (hk : Kept s) (hplain : JsonColumn.KeepsPlain)
    (locked : List UUID) {jobs : List JobRow} (hnodup : (jobs.map (·.jobId)).Nodup)
    (hjobs : ∀ job ∈ jobs, job ∈ s.jobs ∧ Unclaimable now job)
    (h : jobs.foldlM (fun s job => s.deadLetterJob now job) s = .success s') :
    Kept s' ∧ s'.nextClaimableJob locked now = s.nextClaimableJob locked now ∧
      (∀ job ∈ s.jobs, job.jobId ∉ jobs.map (·.jobId) → job ∈ s'.jobs) ∧
      ∀ job ∈ jobs, ∃ row ∈ s'.jobs, row.jobId = job.jobId ∧ row.status = .deadLetter := by
  induction jobs generalizing s with
  | nil =>
      obtain rfl : s = s' := by simpa using h
      exact ⟨hk, rfl, fun job hjob _ => hjob, fun job hjob => by cases hjob⟩
  | cons job jobs ih =>
      rw [List.foldlM_cons] at h
      obtain ⟨next, hnext, hrest⟩ := Attempt.bind_eq_success.mp h
      obtain ⟨hjob, hunclaimable⟩ := hjobs job (List.mem_cons_self ..)
      obtain ⟨hother, hnodup⟩ := List.nodup_cons.mp hnodup
      obtain ⟨row, hid, hdead, htable⟩ := jobs_of_deadLetterJob hnext
      have hstays : ∀ other ∈ s.jobs, other.jobId ≠ job.jobId → other ∈ next.jobs := by
        intro other hstored hne
        rw [htable]
        exact Table.mem_update.mpr ⟨other, hstored, (if_neg hne).symm⟩
      obtain ⟨hkept, hclaimable, hleft, hretired⟩ := ih
        (hk.deadLetterJob hplain hjob hunclaimable hnext) hnodup (fun other hmem => by
          obtain ⟨hstored, hover⟩ := hjobs other (List.mem_cons_of_mem _ hmem)
          refine ⟨hstays other hstored fun heq => hother ?_, hover⟩
          rw [List.mem_map]
          exact ⟨other, hmem, heq⟩) hrest
      refine ⟨hkept, ?_, fun other hstored hnot => ?_, fun other hmem => ?_⟩
      · rw [hclaimable, nextClaimableJob, nextClaimableJob, htable,
          Table.filter_update_of_excluded]
        intro r hr hsame
        obtain rfl := hk.jobs_unique.eq hr hjob hsame
        exact ⟨fun hq => not_claimable_of_unclaimable hunclaimable hq.1,
          fun hq => not_claimable_of_deadLetter hdead hq.1⟩
      · rw [List.map_cons, List.mem_cons, not_or] at hnot
        exact hleft other (hstays other hstored hnot.1) hnot.2
      · rcases List.mem_cons.mp hmem with rfl | hmem
        · have hrow : row ∈ next.jobs := by
            rw [htable]
            exact Table.mem_update.mpr ⟨other, hjob, (if_pos rfl).symm⟩
          exact ⟨row, hleft row hrow (hid ▸ hother), hid, hdead⟩
        · exact hretired other hmem

/-! ## Claims -/

/-- What a claim owes: every unclaimable job becomes a dead letter, under identifiers that are not
stored and with a valid audit head, and the next claimable job, if there is one, is leased. -/
structure ClaimSound (s : Queue) (request : ClaimJob) (locked : List UUID) (now : UTCDateTime) :
    Prop where
  fresh : ∀ job ∈ s.unclaimable locked now,
    Table.Fresh (·.eventId) (auditEventId job.jobId job.attemptGeneration) s.events ∧
    Table.Fresh (·.outboxId) (auditOutboxId job.jobId job.attemptGeneration) s.outbox ∧
    Table.Fresh (·.idempotencyKey) ⟨job.jobId, .deadLetter, job.attemptGeneration⟩ s.outbox
  headed : ∀ job ∈ s.unclaimable locked now, ∃ run, s.run job.runId = some run ∧
    s.requireValidAuditHead run = .success ()
  retired : ∀ job ∈ s.unclaimable locked now, ∃ row,
    (s.claim request locked now).2.job job.jobId = some row ∧ row.status = .deadLetter
  leased : ∀ job, s.nextClaimableJob locked now = some job →
    (∃ lease, (s.claim request locked now).1 = .success lease ∧ lease.jobId = job.jobId) ∧
    (s.claim request locked now).2.job job.jobId = some (job.leased request now)
  unanswered : s.nextClaimableJob locked now = none →
    (s.claim request locked now).1 = .refused .notFound "No claimable job"

theorem ClaimSound.not_conflict (h : s.ClaimSound request locked now) (message : String) :
    (s.claim request locked now).1 ≠ .refused .conflict message := by
  cases hnext : s.nextClaimableJob locked now with
  | none =>
      rw [h.unanswered hnext]
      simp [QueueCall.refused]
  | some job =>
      obtain ⟨lease, hlease, -⟩ := (h.leased job hnext).1
      rw [hlease]
      simp [QueueCall.refused]

theorem claim_of_transaction (hworker : request.WorkerIsValid) (hlease : 0 < request.leaseFor)
    {lease : Option JobLease} (h : s.claimTransaction request locked now = .success (lease, s')) :
    s.claim request locked now =
      (lease.elim (.refused .notFound "No claimable job") .success, s') := by
  unfold claim
  rw [if_neg (not_not.mpr hworker), if_neg (not_le.mpr hlease),
    QueueCall.handled_eq_success.mpr h]
  cases lease with
  | none => rfl
  | some lease => rfl

omit [Hashing] in
theorem updateJob_leased (request : ClaimJob) (hk : s.JobChecks job)
    (hclaimable : Claimable now job) :
    s.updateJob (job.leased request now) none = .success { s with
      jobs := Table.update (·.jobId = job.jobId) (fun _ => job.leased request now) s.jobs } := by
  obtain ⟨hmax, -, hwindow, hresult⟩ := hk
  refine updateJob_eq_success.mpr ⟨fun error herror => (by cases herror), ?_, rfl⟩
  exact ⟨hmax, Nat.succ_le_of_lt hclaimable.2.2.2, hwindow, hresult⟩

theorem claimSound_of_retirable (hk : Kept s) (hfree : Hashing.CollisionFree)
    (hplain : JsonColumn.KeepsPlain) (hworker : request.WorkerIsValid)
    (hlease : 0 < request.leaseFor)
    (hretirable : ∀ job ∈ s.unclaimable locked now, Retirable job now) :
    s.ClaimSound request locked now := by
  have hselected : ∀ job ∈ s.unclaimable locked now,
      job ∈ s.jobs ∧ Unclaimable now job ∧ Retirable job now := by
    intro job hjob
    obtain ⟨hstored, hunclaimable, -⟩ := mem_unclaimable hjob
    exact ⟨hstored, hunclaimable, hretirable job hjob⟩
  have hnodup := nodup_unclaimable hk.jobs_unique locked now
  obtain ⟨retired, hloop⟩ := deadLetterJobs_succeed hk hfree hplain hnodup hselected
  obtain ⟨hkept, hsame, -, hdead⟩ := deadLetterJobs_retired hk hplain locked hnodup
    (fun job hjob => ⟨(hselected job hjob).1, (hselected job hjob).2.1⟩) hloop
  have hread {row : JobRow} (hrow : row ∈ retired.jobs) : retired.job row.jobId = some row :=
    Table.get_of_mem hkept.jobs_unique hrow
  have hfresh : ∀ job ∈ s.unclaimable locked now,
      Table.Fresh (·.eventId) (auditEventId job.jobId job.attemptGeneration) s.events ∧
      Table.Fresh (·.outboxId) (auditOutboxId job.jobId job.attemptGeneration) s.outbox ∧
      Table.Fresh (·.idempotencyKey) ⟨job.jobId, .deadLetter, job.attemptGeneration⟩
        s.outbox := by
    intro job hjob
    obtain ⟨hstored, hunclaimable, hretirable⟩ := hselected job hjob
    have hunspent := hretirable.unspent hunclaimable
    exact ⟨hk.event_fresh hfree hstored hunspent, hk.outbox_fresh hfree hstored hunspent,
      hk.key_fresh hstored hunspent .deadLetter⟩
  have hheaded : ∀ job ∈ s.unclaimable locked now, ∃ run, s.run job.runId = some run ∧
      s.requireValidAuditHead run = .success () := by
    intro job hjob
    obtain ⟨run, hrun, howner⟩ := hk.owned job (hselected job hjob).1
    exact ⟨run, howner ▸ Table.get_of_mem hk.runs_unique hrun, hk.requireValidAuditHead hrun⟩
  cases hnext : s.nextClaimableJob locked now with
  | none =>
      have htransaction : s.claimTransaction request locked now = .success (none, retired) :=
        claimTransaction_eq_success.mpr ⟨retired, hloop, .inl ⟨hsame.trans hnext, rfl, rfl⟩⟩
      have hclaim := claim_of_transaction hworker hlease htransaction
      refine ⟨hfresh, hheaded, fun job hjob => ?_, fun job hjob => ?_, fun _ => by rw [hclaim]; rfl⟩
      · obtain ⟨row, hrow, hid, hstatus⟩ := hdead job hjob
        rw [hclaim]
        exact ⟨row, hid ▸ hread hrow, hstatus⟩
      · rw [hnext] at hjob
        cases hjob
  | some next =>
      obtain ⟨hmem, hclaimable, -⟩ := mem_of_nextClaimableJob (hsame.trans hnext)
      have hupdate := updateJob_leased request (hkept.checked next hmem) hclaimable
      have hgranted : ∃ granted, (next.leased request now).lease = .success granted ∧
          granted.jobId = next.jobId := ⟨_, rfl, rfl⟩
      obtain ⟨granted, hgranted, hgrantedId⟩ := hgranted
      have htransaction := claimTransaction_eq_success.mpr
        ⟨retired, hloop, .inr ⟨next, hsame.trans hnext, hupdate, granted, hgranted, rfl⟩⟩
      have hclaim := claim_of_transaction hworker hlease htransaction
      have hleased := hkept.lease hmem hclaimable hupdate
      refine ⟨hfresh, hheaded, fun job hjob => ?_, fun job hjob => ?_, fun hnone => ?_⟩
      · -- the leased job is not one of the dead letters
        obtain ⟨row, hrow, hid, hstatus⟩ := hdead job hjob
        have hne : row.jobId ≠ next.jobId := by
          intro heq
          rw [hkept.jobs_unique.eq hrow hmem heq] at hstatus
          exact not_claimable_of_deadLetter hstatus hclaimable
        rw [hclaim]
        refine ⟨row, hid ▸ Table.get_of_mem hleased.jobs_unique ?_, hstatus⟩
        exact Table.mem_update.mpr ⟨row, hrow, (if_neg hne).symm⟩
      · obtain rfl := Option.some.inj (hjob.symm.trans hnext)
        rw [hclaim]
        refine ⟨⟨granted, rfl, hgrantedId⟩, ?_⟩
        have hrow := Table.get_of_mem hleased.jobs_unique
          (Table.mem_update.mpr ⟨job, hmem, (if_pos rfl).symm⟩)
        exact hrow
      · rw [hnext] at hnone
        cases hnone

theorem retirable_of_claimSound (hk : Kept s) (h : s.ClaimSound request locked now) :
    ∀ job ∈ s.unclaimable locked now, Retirable job now := by
  intro job hjob
  obtain ⟨hstored, hunclaimable, -⟩ := mem_unclaimable hjob
  obtain ⟨row, hrow, hdead⟩ := h.retired job hjob
  have hloop : ∃ retired, s.deadLetterUnclaimable locked now = .success retired := by
    rcases claim_cases s request locked now with ⟨hsame, -⟩ | ⟨lease, htransaction, -⟩
    · -- a claim that fails leaves the job as it is
      rw [hsame, show s.job job.jobId = some job from Table.get_of_mem hk.jobs_unique hstored]
        at hrow
      rw [← Option.some.inj hrow] at hdead
      rcases hunclaimable.1 with hqueued | hleased
      · rw [hdead] at hqueued
        cases hqueued
      · rw [hdead] at hleased
        cases hleased
    · obtain ⟨retired, hretired, -⟩ := claimTransaction_eq_success.mp htransaction
      exact ⟨retired, hretired⟩
  obtain ⟨retired, hretired⟩ := hloop
  obtain ⟨hcanonical, hclean⟩ := of_deadLetterJobs hretired job hjob
  refine ⟨hcanonical, hclean, fun hputBack => ?_⟩
  obtain ⟨event, hevent, hid⟩ := hk.putBack job hstored hputBack.1 hputBack.2
  exact (h.fresh job hjob).1 event hevent hid

/-- After any run, a claim is sound exactly when each job that it has to retire can be. -/
theorem reached_claimSound_iff (hfree : Hashing.CollisionFree) (hplain : JsonColumn.KeepsPlain)
    (ops : List TimedQueueOperation) (request : ClaimJob) (locked : List UUID) (now : UTCDateTime)
    (hworker : request.WorkerIsValid) (hlease : 0 < request.leaseFor) :
    (reached ops).ClaimSound request locked now ↔
      ∀ job ∈ (reached ops).unclaimable locked now, Retirable job now :=
  ⟨retirable_of_claimSound (kept_reached hplain ops),
    claimSound_of_retirable (kept_reached hplain ops) hfree hplain hworker hlease⟩

end Queue

end

/-! ## Concrete claims -/

namespace Queue

open scoped CodeHashing PlainColumns

/-- A job that was never claimed is retired at its deadline. -/
theorem reached_claimSound_opened :
    ((reached QueueScenario.opened).ClaimSound (QueueScenario.claim 6) [] 200 ↔
      ∀ job ∈ (reached QueueScenario.opened).unclaimable [] 200, Retirable job 200) ∧
    (reached QueueScenario.opened).unclaimable [] 200 ≠ [] :=
  ⟨reached_claimSound_iff CodeHashing.collisionFree PlainColumns.keepsPlain
    QueueScenario.opened (QueueScenario.claim 6) [] 200 (by decide) (by decide),
    by decide +kernel⟩

/-- Once a snapshot attempt has failed and the job has passed its deadline unclaimed, the dead
letter of the job asks for the event of the failed attempt again. -/
theorem not_claimSound_putBack :
    (QueueScenario.putBack.map (·.2)).Pairwise (· ≤ ·) ∧
    ((reached QueueScenario.putBack).claim (QueueScenario.claim 6) [] 200).1 =
      .refused .conflict "Job queue audit conflicts" ∧
    ¬ (reached QueueScenario.putBack).ClaimSound (QueueScenario.claim 6) [] 200 := by
  have hconflict : ((reached QueueScenario.putBack).claim (QueueScenario.claim 6) [] 200).1 =
      .refused .conflict "Job queue audit conflicts" := by decide +kernel
  exact ⟨by decide, hconflict, fun h => h.not_conflict _ hconflict⟩

end Queue

end StonksPaper
