import Mathlib.Data.List.Chain
import StonksPaper.Cycles.Turns

/-!
# The progress of one cycle

Every command is a sequence of turns of the cycle. What the turns leave is an invariant of the run:
the loaded state is that of the last checkpoint, the checkpoints extend each other by one stage, a
leased job is in the hands of its latest holder, and nothing follows a terminal event.
-/

namespace StonksPaper

open Chain

section

variable [Hashing] [JsonColumn] {s s' : Queue} {run : WorkflowRunRow} {job row : JobRow}
  {now : UTCDateTime} {jobId runId : UUID} {command : RunPaperCycle}
  {state : PaperCycleState} {granted leases : List JobLease}
  {recorded states : List PaperCycleState}

namespace Cycle

/-! ## Commands as turns -/

theorem turn_deadLetterJob (hrows : Workflow.Rows s) (halone : Alone jobId runId s)
    (hjob : job ∈ s.jobs) (hunclaimable : Queue.Unclaimable now job)
    (h : s.deadLetterJob now job = .success s') : Turn jobId runId s [] [] s' := by
  obtain ⟨-, -, run, hrun, -, reason, -, hcan, rfl⟩ := Queue.deadLetterJob_eq_success.mp h
  obtain ⟨hmem, howner⟩ := Queue.run_of_eq_some hrun
  by_cases hid : job.jobId = jobId
  · have howned : job.runId = runId := (halone job hjob).mp hid
    subst hid
    subst howned
    exact .retired now (Table.get_of_mem hrows.jobs_unique hjob) hrun howner hunclaimable hcan
  · exact .apart (apart_committed halone hjob hmem howner
      (Queue.deadLettered_marks hunclaimable reason) hid) rfl

/-- The jobs that a claim retires are turns, or leave the cycle apart. -/
theorem turns_deadLetterUnclaimable (hrows : Workflow.Rows s) (halone : Alone jobId runId s)
    {locked : List UUID} (h : s.deadLetterUnclaimable locked now = .success s') :
    Turns jobId runId s [] [] s' ∧ Workflow.Rows s' ∧ Alone jobId runId s' := by
  have hrelated := Queue.related_of_deadLetterUnclaimable
    (R := fun s s' => Workflow.Rows s → Alone jobId runId s →
      Turn jobId runId s [] [] s' ∧ Workflow.Rows s')
    (fun s s' job hjob hunclaimable hdead hrows halone =>
      ⟨turn_deadLetterJob hrows halone hjob hunclaimable hdead,
        hrows.change (.quiet (Queue.quiet_of_deadLetterJob hjob hunclaimable hdead))⟩)
    hrows.jobs_unique h
  clear h
  induction hrelated with
  | refl => exact ⟨.refl, hrows, halone⟩
  | tail _ hstep ih =>
      obtain ⟨hturns, hrows', halone'⟩ := ih
      obtain ⟨hturn, hrows''⟩ := hstep hrows' halone'
      exact ⟨.tail hturns hrows' hturn, hrows'', hturn.alone halone'⟩

theorem turns_claim (hrows : Workflow.Rows s) (halone : Alone jobId runId s) (request : ClaimJob)
    (locked : List UUID) (now : UTCDateTime) :
    Turns jobId runId s (s.claim request locked now).1.toOption.toList []
      (s.claim request locked now).2 := by
  rcases Queue.claim_cases s request locked now with ⟨hsame, hnone⟩ | ⟨lease, h, hanswer⟩
  · rw [hsame, hnone]
    exact .refl
  · rw [hanswer]
    obtain ⟨retired, hretired, -, ⟨rfl, hsame⟩ | ⟨granted, job, hgrants, rfl⟩⟩ :=
      Queue.quiets_of_claimTransaction hrows.jobs_unique h
    · rw [hsame]
      exact (turns_deadLetterUnclaimable hrows halone hretired).1
    · obtain ⟨hturns, hrows', halone'⟩ := turns_deadLetterUnclaimable hrows halone hretired
      have hturn : Turn jobId runId retired [granted] [] (s.claim request locked now).2 := by
        by_cases hid : job.jobId = jobId
        · exact .leased hgrants hid
        · refine .apart (apart_grants halone' hgrants hid) ?_
          have hother : granted.jobId ≠ jobId := fun heq => hid (hgrants.lease_jobId.symm.trans heq)
          simp [Queue.leasesOf, hother]
      exact .tail hturns hrows' hturn

theorem turns_settles (hrows : Workflow.Rows s) (halone : Alone jobId runId s) {other : UUID}
    (h : Queue.Settles s other s') (hother : other ≠ jobId) : Turns jobId runId s [] [] s' :=
  Turn.turns hrows (.apart (apart_settles halone h hother) rfl)

theorem turns_kept {α : Type} {call : QueueCall (α × Queue)}
    (h : ∀ a s', call = .success (a, s') → Turns jobId runId s leases states s')
    (hfailed : call.toOption = none → leases = [] ∧ states = []) :
    Turns jobId runId s leases states (s.kept call) := by
  cases call with
  | success result => exact h result.1 result.2 rfl
  | failure e =>
      obtain ⟨rfl, rfl⟩ := hfailed rfl
      exact .refl
  | raised e =>
      obtain ⟨rfl, rfl⟩ := hfailed rfl
      exact .refl

theorem turns_quiet {α : Type} {call : QueueCall (α × Queue)}
    (h : ∀ a s', call = .success (a, s') → Turns jobId runId s [] [] s') :
    Turns jobId runId s [] [] (s.kept call) := turns_kept h fun _ => ⟨rfl, rfl⟩

theorem turns_operation (hrows : Workflow.Rows s) (halone : Alone jobId runId s)
    (op : TimedQueueOperation) (hof : OfCycle jobId runId (.workflow (.operation op))) :
    Turns jobId runId s (s.granted op).toList [] (s.step op) := by
  obtain ⟨op, now⟩ := op
  cases op with
  | create request =>
      refine turns_quiet fun record s' h => ?_
      rcases Queue.create_eq_success h with rfl | hinsert
      · exact .refl
      · refine Turn.turns hrows ?_
        by_cases hid : request.runId = runId
        · exact .created request hid hinsert
        · exact .apart (apart_insertRun hinsert hid) rfl
  | enqueue request =>
      have hboth : request.jobId = jobId ↔ request.runId = runId := hof
      refine turns_quiet fun record s' h => ?_
      rcases Queue.enqueue_eq_success h with rfl | hinsert
      · exact .refl
      · refine Turn.turns hrows ?_
        by_cases hid : request.jobId = jobId
        · exact .enqueued request hid (hboth.mp hid) hinsert
        · exact .apart (apart_insertJob hinsert hid fun heq => hid (hboth.mpr heq)) rfl
  | claim request locked => exact turns_claim hrows halone request locked now
  | complete request artifact =>
      exact turns_quiet fun _ _ h => turns_settles hrows halone (Queue.settles_of_complete h) hof
  | fail request =>
      exact turns_quiet fun _ _ h => turns_settles hrows halone (Queue.settles_of_fail h) hof
  | recordSnapshotFailure request context =>
      exact turns_quiet fun _ _ h =>
        turns_settles hrows halone (Queue.settles_of_recordSnapshotFailure h) hof
  | completeSnapshot request content =>
      exact turns_quiet fun _ _ h =>
        turns_settles hrows halone (Queue.settles_of_completeSnapshot h) hof

omit [JsonColumn] in
theorem cycle_of_holds (halone : Alone jobId runId s) (hid : command.lease.jobId = jobId)
    (h : s.Holds command now job run) : s.job jobId = some job ∧ s.run runId = some run ∧
      run.runId = job.runId ∧ run.inputHash = command.cycleInputHash := by
  obtain ⟨hmem, -, howner⟩ := owner_of_holds h
  have hjobId := (Queue.job_of_eq_some h.job_stored).2
  have howned : job.runId = runId := (halone job hmem).mp (hjobId.trans hid)
  have hlease : command.lease.runId = runId := h.active.1.symm.trans howned
  exact ⟨hid ▸ h.job_stored, hlease ▸ h.run_stored, howner,
    h.active.2.2.2.2.2.2.2.2.2.2.2.1⟩

theorem turns_checkpoint (hrows : Workflow.Rows s) (halone : Alone jobId runId s)
    (command : RunPaperCycle) (state : PaperCycleState) (expectedStateHash : Sha256)
    (now : UTCDateTime) : Turns jobId runId s []
      (checkpointed jobId s (.checkpoint command state expectedStateHash now)).toList
      (s.kept (s.checkpointCycle command state expectedStateHash now)) := by
  by_cases hid : command.lease.jobId = jobId
  · simp only [checkpointed, hid, if_true]
    refine turns_kept (fun returned s' h => ?_) fun hnone => ⟨rfl, by simp [hnone]⟩
    rw [h]
    obtain ⟨job, run, current, last, hholds, hload, hnext, hlast, hcan, rfl, rfl⟩ :=
      Queue.checkpointCycle_eq_success.mp h
    obtain ⟨hjob, hrun, howner, hinput⟩ := cycle_of_holds halone hid hholds
    have hmem := (Queue.job_of_eq_some hholds.job_stored).1
    have hfollows : Queue.NextState current returned current.stateHash := ⟨rfl, hnext.2⟩
    rw [Queue.posted_eq_written hrows.jobs_unique hmem]
    exact Turn.turns hrows (.written now hjob hrun howner
      (.checkpoint command returned hholds.active.2.2.1 hlast) hcan
      (hinput ▸ Queue.loadState_eq_success.mp hload)
        (.checkpoint command hinput.symm hfollows hlast))
  · simp only [checkpointed, hid, if_false]
    exact turns_quiet fun returned s' h =>
      Turn.turns hrows (.apart (apart_checkpoint hrows.jobs_unique halone hid h) rfl)

theorem turns_fail (hrows : Workflow.Rows s) (halone : Alone jobId runId s) (baseRetryDelay : ℤ)
    (command : RunPaperCycle) (error : Failure) (now : UTCDateTime) :
    Turns jobId runId s [] [] (s.kept (s.failCycle baseRetryDelay command error now)) := by
  refine turns_quiet fun result s' h => Turn.turns hrows ?_
  by_cases hid : command.lease.jobId = jobId
  · obtain ⟨job, run, state, hholds, hload, hcan, -, rfl⟩ := Queue.failCycle_eq_success h
    obtain ⟨hjob, hrun, howner, hinput⟩ := cycle_of_holds halone hid hholds
    refine .written now hjob hrun howner (.failure command state error _ now hholds.active.2.2.1)
      hcan (hinput ▸ Queue.loadState_eq_success.mp hload) (.marker ?_)
    show Queue.Marker (if _ then _ else _)
    split
    · decide
    · decide
  · exact .apart (apart_fail halone hid h) rfl

theorem turns_complete (hrows : Workflow.Rows s) (halone : Alone jobId runId s)
    (command : RunPaperCycle) (state : PaperCycleState) (artifact : ArtifactManifest)
    (now : UTCDateTime) :
    Turns jobId runId s [] [] (s.kept (s.completeCycle command state artifact now)) := by
  refine turns_quiet fun result s' h => ?_
  by_cases hid : command.lease.jobId = jobId
  · obtain ⟨job, run, hstored, hrunStored, ⟨-, -, rfl⟩ | ⟨-, hactive⟩⟩ :=
      Queue.completeCycle_eq_success.mp h
    · exact .refl
    · obtain ⟨hauthority, hload, -, -, -, registered, hcases, hcan, rfl, -⟩ :=
        Queue.completeActiveCycle_eq_success.mp hactive
      obtain ⟨hjob, hrun, howner, hinput⟩ :=
        cycle_of_holds halone hid ⟨hstored, hrunStored, hauthority⟩
      have hfiles := files_of_registers (Queue.registers_of_cases hcases)
      have hfiled := apart_of_files hfiles jobId runId
      have hload' : registered.Loads job run run.inputHash state := by
        have howned : run.runId = runId := (Queue.run_of_eq_some hrun).2
        refine (hinput ▸ Queue.loadState_eq_success.mp hload).congr ?_ ?_ rfl
        · rw [howned]
          exact hfiled.events
        · rw [howned]
          exact hfiled.outbox
      have hregistered : Workflow.Rows registered := by
        obtain ⟨hruns, -, hjobs, -⟩ := hfiles.others
        exact ⟨hruns ▸ hrows.runs_unique, hjobs ▸ hrows.jobs_unique, hjobs ▸ hrows.claimed⟩
      have happart : Turns jobId runId s [] [] registered := Turn.turns hrows (.apart hfiled rfl)
      exact .tail happart hregistered
        (.written now (hfiled.job.trans hjob) (hfiled.run.trans hrun) howner
          (.completion command state artifact now hauthority.2.2.1) hcan.append hload'
          (.marker (.inr (by decide : "paper_cycle.completed" ∈ terminalEvents))))
  · exact Turn.turns hrows (.apart (apart_complete halone hid h) rfl)

theorem turns_cancel (hrows : Workflow.Rows s) (halone : Alone jobId runId s)
    (request : CancelPaperCycle) (now : UTCDateTime) :
    Turns jobId runId s [] [] (s.kept (s.cancelCycle request now)) := by
  refine turns_quiet fun result s' h => ?_
  by_cases hid : request.runId = runId
  · obtain ⟨run, job, state, hrun, hjobs, hload, -, -, ⟨-, -, rfl⟩ | ⟨hcan, rfl⟩⟩ :=
      Queue.cancelCycle_eq_success.mp h
    · exact .refl
    · obtain ⟨hmem, howner, -⟩ := mem_cycleJobs hjobs
      have hjobId : job.jobId = jobId := (halone job hmem).mpr (howner.trans hid)
      have hjob : s.job jobId = some job := hjobId ▸ Table.get_of_mem hrows.jobs_unique hmem
      have hrunId := (Queue.run_of_eq_some hrun).2
      exact Turn.turns hrows (.written now hjob (hid ▸ hrun) (hrunId.trans howner.symm)
        (.cancellation request state now hcan.active) hcan.append
        (Queue.loadState_eq_success.mp hload)
        (.marker (.inr (by decide : "paper_cycle.cancelled" ∈ terminalEvents))))
  · exact Turn.turns hrows (.apart (apart_cancel halone hid h) rfl)

/-- Every command around a cycle takes turns of it, with the lease that it grants and the state
that it records. -/
theorem turns_step (hrows : Workflow.Rows s) (halone : Alone jobId runId s)
    (command : CycleCommand) (hof : OfCycle jobId runId command) :
    Turns jobId runId s (Cycle.granted s command).toList (checkpointed jobId s command).toList
      (step s command) := by
  cases command with
  | workflow command =>
      cases command with
      | operation op => exact turns_operation hrows halone op hof
      | transition request => exact Turn.turns hrows (.apart (apart_transition request hof) rfl)
  | checkpoint command state expectedStateHash now =>
      exact turns_checkpoint hrows halone command state expectedStateHash now
  | fail baseRetryDelay command error now =>
      exact turns_fail hrows halone baseRetryDelay command error now
  | complete command state artifact now =>
      exact turns_complete hrows halone command state artifact now
  | cancel request now => exact turns_cancel hrows halone request now

/-! ## What the turns leave -/

def Follows (current next : PaperCycleState) : Prop :=
  Queue.NextState current next current.stateHash

def Progression (run : WorkflowRunRow) (states : List PaperCycleState) : Prop :=
  List.IsChain Follows (.genesis run.runId run.inputHash :: states)

def latest (run : WorkflowRunRow) (states : List PaperCycleState) : PaperCycleState :=
  states.getLast?.getD (.genesis run.runId run.inputHash)

def Retired (runId : UUID) (s : Queue) : Prop :=
  ∃ last ∈ (s.eventsOf runId).getLast?, last.eventType = "job.dead_lettered"

def Ended (jobId : UUID) (s : Queue) : Prop :=
  ∃ job ∈ s.job jobId, ¬ job.status.Active

/-- A run with its checkpoints and the leases of its job. -/
structure Going (jobId runId : UUID) (s : Queue) (run : WorkflowRunRow)
    (granted : List JobLease) (recorded : List PaperCycleState) : Prop where
  run_stored : s.run runId = some run
  progression : Progression run recorded
  loads : (∀ job : JobRow, job.jobId =
    jobId → s.Loads job run run.inputHash (latest run recorded)) ∨
    Retired runId s ∧ Ended jobId s
  unended : ∀ event ∈ (s.eventsOf runId).dropLast, event.eventType ∉ terminalEvents
  ended : (∃ event ∈ s.eventsOf runId, event.eventType ∈ terminalEvents) → Ended jobId s
  held : ∀ job ∈ s.job jobId, job.status = .leased →
    ∃ lease ∈ (Queue.leasesOf jobId granted).getLast?, job.lease = .success lease

/-- Nothing of the cycle is there yet, or it is going on. -/
inductive Progress (jobId runId : UUID) (s : Queue) (granted : List JobLease)
    (recorded : List PaperCycleState) : Prop where
  | absent (hrun : s.run runId = none) (hjob : s.job jobId = none) (hevents : s.eventsOf runId = [])
      (hleases : Queue.leasesOf jobId granted = []) (hstates : recorded = [])
  | going (run : WorkflowRunRow) (h : Going jobId runId s run granted recorded)

omit [Hashing] [JsonColumn] in
theorem leasesOf_append_of_nil (granted : List JobLease) (h : Queue.leasesOf jobId leases = []) :
    Queue.leasesOf jobId (granted ++ leases) = Queue.leasesOf jobId granted := by
  have happend : Queue.leasesOf jobId (granted ++ leases) =
      Queue.leasesOf jobId granted ++ Queue.leasesOf jobId leases := List.filter_append ..
  rw [happend, h, List.append_nil]

omit [Hashing] [JsonColumn] in
theorem not_ended (hjob : s.job jobId = some job) (hactive : job.status.Active) :
    ¬ Ended jobId s := by
  intro hended
  obtain ⟨job', hjob', hinactive⟩ := hended
  obtain rfl := Option.some.inj (hjob.symm.trans hjob')
  exact hinactive hactive

/-- What an entry records goes on from the state that was loaded. -/
theorem advances_of_records {audit : CycleAudit} {current : PaperCycleState}
    (hplain : JsonColumn.KeepsPlain) (hentry : Queue.Entry run job audit row)
    (hrecords : Records run job current audit states) :
    Queue.Advances job run.inputHash current (s.storedCycleEvent run job audit now)
        (states.getLast?.getD current) ∧ List.IsChain Follows (current :: states) := by
  have hsame : stored audit.payload = audit.payload := hplain _ hentry.plain
  cases hrecords with
  | @checkpoint command next last hinput hnext hlast =>
      refine ⟨⟨fun _ => ⟨?_, hnext⟩, fun hother => absurd rfl hother⟩, ?_⟩
      · rw [← hinput]
        refine Queue.checkpointState_of_payload ?_ hlast
        exact hsame
      · exact .cons_cons hnext (.singleton next)
  | marker hmarker =>
      refine ⟨⟨fun hcheckpoint => ?_, fun _ => ⟨hmarker, rfl⟩⟩, .singleton current⟩
      have hnot : ¬ Queue.Marker "paper_cycle.stage_completed" := by decide
      exact absurd (hcheckpoint ▸ hmarker) hnot

omit [Hashing] [JsonColumn] in
theorem latest_append (run : WorkflowRunRow) (recorded states : List PaperCycleState) :
    latest run (recorded ++ states) = states.getLast?.getD (latest run recorded) := by
  unfold latest
  rw [List.getLast?_append]
  cases states.getLast? with
  | none => rfl
  | some last => rfl

omit [JsonColumn] in
theorem Progression.append (h : Progression run recorded)
    (hnext : List.IsChain Follows (latest run recorded :: states)) :
    Progression run (recorded ++ states) := by
  unfold Progression
  rw [← List.cons_append, List.isChain_append]
  refine ⟨h, hnext.tail, fun current hcurrent next hhead => ?_⟩
  rw [List.getLast?_cons] at hcurrent
  obtain rfl := Option.some.inj hcurrent
  exact hnext.rel_head? hhead

section

variable (h : Going jobId runId s run granted recorded)
include h

omit [JsonColumn] in
theorem Going.runId_eq : run.runId = runId := (Queue.run_of_eq_some h.run_stored).2

omit [JsonColumn] in
theorem Going.loads_of_active (hjob : s.job jobId = some job) (hactive : job.status.Active) :
    s.Loads job run run.inputHash (latest run recorded) := by
  rcases h.loads with hloads | ⟨-, hended⟩
  · exact hloads job (Queue.job_of_eq_some hjob).2
  · exact absurd hended (not_ended hjob hactive)

omit [JsonColumn] in
theorem Going.unended_of_active (hjob : s.job jobId = some job) (hactive : job.status.Active) :
    ∀ event ∈ s.eventsOf runId, event.eventType ∉ terminalEvents :=
  fun event hevent hterminal =>
    not_ended hjob hactive (h.ended ⟨event, hevent, hterminal⟩)

omit [JsonColumn] in
theorem Going.loads_congr (hevents : s'.eventsOf runId = s.eventsOf runId)
    (houtbox : Queue.KeepsOutbox s s' runId) (hended : Ended jobId s → Ended jobId s') :
    (∀ job : JobRow, job.jobId = jobId →
      s'.Loads job run run.inputHash (latest run recorded)) ∨ Retired runId s' ∧
      Ended jobId s' := by
  have hid := h.runId_eq
  subst hid
  rcases h.loads with hloads | ⟨hretired, hover⟩
  · exact .inl fun job hjob => (hloads job hjob).congr hevents houtbox rfl
  · refine .inr ⟨?_, hended hover⟩
    unfold Retired
    rw [hevents]
    exact hretired

omit [JsonColumn] in
theorem Going.apart (happart : Apart jobId runId s s')
    (hleases : Queue.leasesOf jobId leases = []) :
    Going jobId runId s' run (granted ++ leases) recorded where
  run_stored := happart.run.trans h.run_stored
  progression := h.progression
  loads := by
    refine h.loads_congr happart.events happart.outbox fun hended => ?_
    unfold Ended
    rw [happart.job]
    exact hended
  unended := by
    rw [happart.events]
    exact h.unended
  ended := by
    rw [happart.events]
    unfold Ended
    rw [happart.job]
    exact h.ended
  held := by
    rw [happart.job, leasesOf_append_of_nil granted hleases]
    exact h.held

/-- A job that arrives is the first one. -/
theorem Going.enqueued {request : EnqueueJob} (hid : request.jobId = jobId)
    (hinsert : s.insertJob request.row = .success s') :
    Going jobId runId s' run granted recorded := by
  obtain ⟨-, ⟨hfresh, -, -, -⟩, rfl⟩ := Queue.insertJob_eq_success.mp hinsert
  have hnone : s.job jobId = none := hid ▸ Table.get_eq_none.mpr hfresh
  have hnever : ¬ Ended jobId s := by
    intro hended
    obtain ⟨job, hjob, -⟩ := hended
    rw [hnone] at hjob
    cases hjob
  have hstored : Table.get (·.jobId)
      (s.jobs ++ [{ request.row with payload := stored request.row.payload }]) request.jobId =
      some { request.row with payload := stored request.row.payload } :=
    Table.get_concat_self (x := { request.row with payload := stored request.row.payload }) hfresh
  constructor
  · exact h.run_stored
  · exact h.progression
  · exact h.loads_congr rfl (Queue.keepsOutbox_refl s runId) fun hended => absurd hended hnever
  · exact h.unended
  · exact fun hterminal => absurd (h.ended hterminal) hnever
  · intro job hjob hleased
    subst hid
    obtain rfl := Option.some.inj (hstored.symm.trans hjob)
    cases hleased

/-- A lease that is granted is the latest one. -/
theorem Going.leased {request : ClaimJob} {lease : JobLease} (hrows : Workflow.Rows s)
    (hgrants : s.Grants request now lease s' job) (hid : job.jobId = jobId) :
    Going jobId runId s' run (granted ++ [lease]) recorded := by
  obtain ⟨-, -, rfl⟩ := Queue.updateJob_eq_success.mp hgrants.updated
  have hjob : s.job jobId = some job := hid ▸ Table.get_of_mem hrows.jobs_unique hgrants.stored
  have hactive : job.status.Active := by
    rcases hgrants.claimable.1 with hqueued | ⟨hleased, -⟩
    · exact .inl hqueued
    · exact .inr hleased
  have hnever := not_ended hjob hactive
  constructor
  · exact h.run_stored
  · exact h.progression
  · exact h.loads_congr rfl (Queue.keepsOutbox_refl s runId) fun hended => absurd hended hnever
  · exact h.unended
  · exact fun hterminal => absurd (h.ended hterminal) hnever
  · subst hid
    intro row hrow _
    have hstored : Table.get (·.jobId)
        (Table.update (·.jobId = job.jobId)
          (fun _ => Queue.updatedJob (job.leased request now) none) s.jobs) job.jobId =
        some (Queue.updatedJob (job.leased request now) none) := Table.get_update_self hjob rfl
    obtain rfl := Option.some.inj (hstored.symm.trans hrow)
    refine ⟨lease, ?_, hgrants.granted⟩
    rw [← hgrants.lease_jobId, Queue.leasesOf_concat_self, List.getLast?_concat]
    exact rfl

/-- The job that a claim retires has ended, and its run is loaded no more. -/
theorem Going.retired {reason : String} (hjob : s.job jobId = some job)
    (hunclaimable : Queue.Unclaimable now job) :
    Going jobId runId (s.committed run (Queue.deadLettered job reason now) now)
      (Queue.auditedRun run (Queue.deadLettered job reason now) now) granted recorded := by
  have hrunId := h.runId_eq
  have hid := (Queue.job_of_eq_some hjob).2
  have hmarks := Queue.deadLettered_marks hunclaimable reason
  have hloads := h.loads_of_active hjob hunclaimable.1
  subst hid
  subst hrunId
  have hevents : (s.committed run (Queue.deadLettered job reason now) now).eventsOf run.runId =
      s.eventsOf run.runId ++ [s.storedEvent run (Queue.deadLettered job reason now) now] := by
    have hconcat : (s.committed run (Queue.deadLettered job reason now) now).events =
        s.events ++ [s.storedEvent run (Queue.deadLettered job reason now) now] := rfl
    refine Queue.eventsOf_concat hconcat fun e (he : e ∈ s.eventsOf run.runId) => ?_
    have hle : e.sequence ≤ 1 + (s.eventsOf run.runId).length :=
      hloads.replays.linked.sequence_le RunEventRow.link he
    have hversion := hloads.version
    show e.sequence ≤ run.version + 1
    omega
  have hended : Ended job.jobId (s.committed run (Queue.deadLettered job reason now) now) := by
    refine ⟨_, Table.get_update_self hjob hmarks.jobId, ?_⟩
    show ¬ JobStatus.deadLetter.Active
    decide
  constructor
  · exact Table.get_update_self h.run_stored rfl
  · exact h.progression
  · refine .inr ⟨⟨s.storedEvent run (Queue.deadLettered job reason now) now, ?_, rfl⟩, hended⟩
    rw [hevents, List.getLast?_concat]
    exact rfl
  · rw [hevents, List.dropLast_concat]
    exact h.unended_of_active hjob hunclaimable.1
  · exact fun _ => hended
  · intro row hrow hleased
    obtain ⟨row', hrow', hinactive⟩ := hended
    obtain rfl := Option.some.inj (hrow.symm.trans hrow')
    exact absurd (.inr hleased) hinactive

/-- An entry of the store goes on from the latest state. -/
theorem Going.written {audit : CycleAudit} {current : PaperCycleState}
    (hplain : JsonColumn.KeepsPlain) (hjob : s.job jobId = some job)
    (hentry : Queue.Entry run job audit row) (hcan : s.CanAppend run job audit)
    (hloads : s.Loads job run run.inputHash current)
    (hrecords : Records run job current audit states) :
    Going jobId runId (s.written run job audit row now) (Queue.cycleRun run audit now)
      granted (recorded ++ states) := by
  have hrunId := h.runId_eq
  have hid := (Queue.job_of_eq_some hjob).2
  have hlatest : current = latest run recorded := by
    have hall := h.loads_of_active hjob hentry.active
    have hboth := (Queue.loadState_eq_success.mpr hloads).symm.trans
      (Queue.loadState_eq_success.mpr hall)
    exact Attempt.success.inj hboth
  have hextends : Queue.Extends s (s.written run job audit row now) run
      (Queue.cycleRun run audit now) (s.storedCycleEvent run job audit now) :=
    Queue.extends_written hplain hentry hcan
  have hevents := hextends.eventsOf hloads
  have hrecorded : Queue.Advances job run.inputHash current (s.storedCycleEvent run job audit now)
      (states.getLast?.getD current) ∧ List.IsChain Follows (current :: states) :=
    advances_of_records hplain hentry hrecords
  obtain ⟨hadvances, hchain⟩ := hrecorded
  subst hlatest
  subst hid
  subst hrunId
  have hactive := h.unended_of_active hjob hentry.active
  have hrow : (s.written run job audit row now).job job.jobId = some row := by
    show Table.get _ (Table.update _ _ _) _ = _
    rw [hentry.jobId]
    exact Table.get_update_self hjob hentry.jobId
  constructor
  · exact Table.get_update_self h.run_stored rfl
  · exact h.progression.append hchain
  · refine .inl fun other hother => ?_
    have hnext := hloads.extend hextends hother hadvances
    rw [← latest_append] at hnext
    exact hnext
  · rw [hevents, List.dropLast_concat]
    exact hactive
  · intro hterminal
    obtain ⟨event, hevent, htype⟩ := hterminal
    rw [hevents] at hevent
    rcases List.mem_append.mp hevent with hevent | hevent
    · exact absurd htype (hactive event hevent)
    · rw [List.mem_singleton.mp hevent] at htype
      exact ⟨row, hrow, hentry.terminal_iff.mp htype⟩
  · intro other hother hleased
    obtain rfl := Option.some.inj (hrow.symm.trans hother)
    obtain rfl := hentry.leased hleased
    exact h.held _ hjob hleased

end

omit [Hashing] [JsonColumn] in
theorem job_of_mem (hrows : Workflow.Rows s) (hjob : job ∈ s.jobs) (hid : job.jobId = jobId) :
    s.job jobId = some job := hid ▸ Table.get_of_mem hrows.jobs_unique hjob

/-- A turn keeps the progress of the cycle. -/
theorem Progress.turn (hplain : JsonColumn.KeepsPlain) (hrows : Workflow.Rows s)
    (h : Progress jobId runId s granted recorded) (hturn : Turn jobId runId s leases states s') :
    Progress jobId runId s' (granted ++ leases) (recorded ++ states) := by
  cases h with
  | absent hrun hjob hevents hleases hstates =>
      subst hstates
      cases hturn with
      | apart happart hnone =>
          refine .absent (happart.run.trans hrun) (happart.job.trans hjob)
            (happart.events.trans hevents) ?_ rfl
          rw [leasesOf_append_of_nil granted hnone]
          exact hleases
      | created request hid hinsert =>
          obtain ⟨⟨hfresh, -, -⟩, rfl⟩ := Queue.insertRun_eq_success.mp hinsert
          subst hid
          rw [List.append_nil]
          refine .going request.row ⟨Table.get_concat_self hfresh, .singleton _, .inl fun job _ =>
            Queue.loads_genesis hevents rfl, ?_, ?_, ?_⟩
          · show ∀ event ∈ (s.eventsOf request.runId).dropLast, _
            rw [hevents]
            exact List.forall_mem_nil _
          · intro hterminal
            obtain ⟨event, hevent, -⟩ := hterminal
            have hnone : event ∈ s.eventsOf request.runId := hevent
            rw [hevents] at hnone
            cases hnone
          · intro job hstored
            have hnone : s.job jobId = some job := hstored
            rw [hjob] at hnone
            cases hnone
      | enqueued request hid howner hinsert =>
          obtain ⟨-, ⟨-, -, hstored, -⟩, -⟩ := Queue.insertJob_eq_success.mp hinsert
          subst howner
          exact absurd hrun hstored
      | leased hgrants hid =>
          rw [job_of_mem hrows hgrants.stored hid] at hjob
          cases hjob
      | retired now hstored =>
          rw [hstored] at hjob
          cases hjob
      | written now hstored =>
          rw [hstored] at hjob
          cases hjob
  | going run hgoing =>
      cases hturn with
      | apart happart hnone =>
          rw [List.append_nil]
          exact .going run (hgoing.apart happart hnone)
      | created request hid hinsert =>
          obtain ⟨⟨hfresh, -, -⟩, -⟩ := Queue.insertRun_eq_success.mp hinsert
          have hnone : s.run runId = none := hid ▸ Table.get_eq_none.mpr hfresh
          rw [hgoing.run_stored] at hnone
          cases hnone
      | enqueued request hid howner hinsert =>
          rw [List.append_nil, List.append_nil]
          exact .going run (hgoing.enqueued hid hinsert)
      | leased hgrants hid =>
          rw [List.append_nil]
          exact .going run (hgoing.leased hrows hgrants hid)
      | retired now hstored hrun howner hunclaimable hcan =>
          obtain rfl := Option.some.inj (hgoing.run_stored.symm.trans hrun)
          rw [List.append_nil, List.append_nil]
          exact .going _ (hgoing.retired hstored hunclaimable)
      | written now hstored hrun howner hentry hcan hloads hrecords =>
          obtain rfl := Option.some.inj (hgoing.run_stored.symm.trans hrun)
          rw [List.append_nil]
          exact .going _ (hgoing.written hplain hstored hentry hcan hloads hrecords)

theorem Progress.turns (hplain : JsonColumn.KeepsPlain)
    (h : Progress jobId runId s granted recorded) (hturns : Turns jobId runId s leases states s') :
    Progress jobId runId s' (granted ++ leases) (recorded ++ states) := by
  induction hturns with
  | refl =>
      rw [List.append_nil, List.append_nil]
      exact h
  | tail _ hrows hturn ih =>
      rw [← List.append_assoc, ← List.append_assoc]
      exact ih.turn hplain hrows hturn

theorem Turns.alone (h : Turns jobId runId s leases states s') (halone : Alone jobId runId s) :
    Alone jobId runId s' := by
  induction h with
  | refl => exact halone
  | tail _ _ hturn ih => exact hturn.alone ih

/-- Once the job of a cycle has ended, every turn leaves the cycle apart. -/
theorem Turn.closed (hrows : Workflow.Rows s) (h : Turn jobId runId s leases states s')
    (hended : Ended jobId s) (hrun : s.run runId ≠ none) : Apart jobId runId s s' := by
  cases h with
  | apart happart hleases => exact happart
  | created request hid hinsert =>
      obtain ⟨⟨hfresh, -, -⟩, -⟩ := Queue.insertRun_eq_success.mp hinsert
      exact absurd (hid ▸ Table.get_eq_none.mpr hfresh) hrun
  | enqueued request hid howner hinsert =>
      obtain ⟨-, ⟨hfresh, -, -, -⟩, -⟩ := Queue.insertJob_eq_success.mp hinsert
      obtain ⟨job, hjob, -⟩ := hended
      have hnone : s.job jobId = none := hid ▸ Table.get_eq_none.mpr hfresh
      rw [hnone] at hjob
      cases hjob
  | leased hgrants hid =>
      refine absurd hended (not_ended (job_of_mem hrows hgrants.stored hid) ?_)
      exact hgrants.claimable.1.imp id And.left
  | retired now hjob hrun howner hunclaimable hcan =>
      exact absurd hended (not_ended hjob hunclaimable.1)
  | written now hjob hrun howner hentry hcan hloads hrecords =>
      exact absurd hended (not_ended hjob hentry.active)

theorem Turns.closed (h : Turns jobId runId s leases states s') (hended : Ended jobId s)
    (hrun : s.run runId ≠ none) : Apart jobId runId s s' := by
  induction h with
  | refl => exact apart_refl jobId runId _
  | tail _ hrows hturn ih =>
      refine ih.trans (hturn.closed hrows ?_ (ih.run ▸ hrun))
      unfold Ended
      rw [ih.job]
      exact hended

/-! ## Runs -/

/-- The leases that the commands grant, in their order. -/
def leasesOfRun : Queue → List CycleCommand → List JobLease
  | _, [] => []
  | s, command :: commands =>
      (Cycle.granted s command).toList ++ leasesOfRun (step s command) commands

/-- The states that the successful checkpoints of the job record, in their order. -/
def checkpointsOf (jobId : UUID) : Queue → List CycleCommand → List PaperCycleState
  | _, [] => []
  | s, command :: commands =>
      (checkpointed jobId s command).toList ++ checkpointsOf jobId (step s command) commands

theorem Progress.commands (hplain : JsonColumn.KeepsPlain) (hrows : Workflow.Rows s)
    (halone : Alone jobId runId s) (h : Progress jobId runId s granted recorded)
    (commands : List CycleCommand) (hof : ∀ command ∈ commands, OfCycle jobId runId command) :
    Progress jobId runId (Run.run step s commands) (granted ++ leasesOfRun s commands)
      (recorded ++ checkpointsOf jobId s commands) := by
  induction commands generalizing s granted recorded with
  | nil =>
      rw [leasesOfRun, checkpointsOf, List.append_nil, List.append_nil]
      exact h
  | cons command commands ih =>
      obtain ⟨hcommand, hcommands⟩ := List.forall_mem_cons.mp hof
      have hturns := turns_step hrows halone command hcommand
      rw [leasesOfRun, checkpointsOf, ← List.append_assoc, ← List.append_assoc]
      exact ih (rows_step hrows command) (hturns.alone halone) (h.turns hplain hturns) hcommands

def reachedLeases (commands : List CycleCommand) : List JobLease :=
  leasesOfRun Queue.migrated commands

def reachedCheckpoints (jobId : UUID) (commands : List CycleCommand) : List PaperCycleState :=
  checkpointsOf jobId Queue.migrated commands

omit [Hashing] [JsonColumn] in
theorem alone_migrated (jobId runId : UUID) : Alone jobId runId Queue.migrated :=
  fun _ h => by cases h

theorem progress_reached (hplain : JsonColumn.KeepsPlain) (commands : List CycleCommand)
    (hof : ∀ command ∈ commands, OfCycle jobId runId command) :
    Progress jobId runId (reached commands) (reachedLeases commands)
      (reachedCheckpoints jobId commands) := by
  have habsent : Progress jobId runId Queue.migrated [] [] := .absent rfl rfl rfl rfl rfl
  exact habsent.commands hplain Workflow.rows_migrated (alone_migrated jobId runId) commands hof

theorem alone_run (hrows : Workflow.Rows s) (halone : Alone jobId runId s)
    (commands : List CycleCommand) (hof : ∀ command ∈ commands, OfCycle jobId runId command) :
    Alone jobId runId (Run.run step s commands) := by
  induction commands generalizing s with
  | nil => exact halone
  | cons command commands ih =>
      obtain ⟨hcommand, hcommands⟩ := List.forall_mem_cons.mp hof
      exact ih (rows_step hrows command) ((turns_step hrows halone command hcommand).alone halone)
        hcommands

/-- Once its job has ended, no run of commands writes to the cycle. -/
theorem closed_run (hrows : Workflow.Rows s) (halone : Alone jobId runId s)
    (hended : Ended jobId s) (hrun : s.run runId ≠ none) (commands : List CycleCommand)
    (hof : ∀ command ∈ commands, OfCycle jobId runId command) :
    Apart jobId runId s (Run.run step s commands) := by
  induction commands generalizing s with
  | nil => exact apart_refl jobId runId s
  | cons command commands ih =>
      obtain ⟨hcommand, hcommands⟩ := List.forall_mem_cons.mp hof
      have hturns := turns_step hrows halone command hcommand
      have happart := hturns.closed hended hrun
      have hended' : Ended jobId (step s command) := by
        unfold Ended
        rw [happart.job]
        exact hended
      exact happart.trans (ih (rows_step hrows command) (hturns.alone halone) hended'
        (happart.run ▸ hrun) hcommands)

/-! ## The history of a cycle -/

omit [JsonColumn] in
/-- The state of the last checkpoint has as many stages as there are checkpoints. -/
theorem Progression.length_outputs (h : Progression run states) :
    (latest run states).outputs.length = states.length := by
  induction states using List.reverseRecOn with
  | nil => rfl
  | append_singleton states next ih =>
      unfold Progression at h
      rw [← List.cons_append, List.isChain_append] at h
      obtain ⟨hbefore, -, hlink⟩ := h
      have hnext : Follows (latest run states) next := by
        refine hlink (latest run states) ?_ next rfl
        rw [List.getLast?_cons]
        exact rfl
      have hlatest : latest run (states ++ [next]) = next := by
        rw [latest, List.getLast?_concat, Option.getD_some]
      rw [hlatest, hnext.2.2.2.1, ih hbefore, List.length_append, List.length_singleton]

omit [JsonColumn] in
/-- A run whose job a claim has retired is loaded no more. -/
theorem not_loads_of_retired (h : Retired run.runId s)
    (hloads : s.Loads job run run.inputHash state) :
    False := by
  obtain ⟨last, hlast, htype⟩ := h
  have hreplays := hloads.replays
  generalize s.eventsOf run.runId = events at hlast hreplays
  cases hreplays with
  | nil => cases hlast
  | @snoc current _ earlier event h hvalid hadvances =>
      rw [List.getLast?_concat] at hlast
      obtain rfl := Option.some.inj hlast
      have hother : event.eventType ≠ "paper_cycle.stage_completed" := by
        rw [htype]
        decide
      have hmarker := (hadvances.marker hother).1
      rw [htype] at hmarker
      exact absurd hmarker (by decide)

omit [JsonColumn] in
theorem Going.ended_of_retired (h : Going jobId runId s run granted recorded)
    (hretired : Retired runId s) : Ended jobId s := by
  rcases h.loads with hloads | ⟨-, hended⟩
  · -- What is loaded depends on the identifier of the job alone.
    have hany := hloads (EnqueueJob.row ⟨jobId, runId, "", dump "", "", 0, 0, 0, 0⟩) rfl
    exact (not_loads_of_retired (h.runId_eq.symm ▸ hretired) hany).elim
  · exact hended

/-- What a command of a worker presents, and when. -/
def presented : CycleCommand → Option (RunPaperCycle × UTCDateTime)
  | .checkpoint command _ _ now => some (command, now)
  | .fail _ command _ now => some (command, now)
  | .complete command _ _ now => some (command, now)
  | _ => none

omit [JsonColumn] in
theorem Going.holds (h : Going jobId runId s run granted recorded)
    (hid : command.lease.jobId = jobId)
    {owner : WorkflowRunRow} (hholds : s.Holds command now job owner) :
    Queue.FromLatestHolder granted jobId command.lease.leaseOwner command.lease.attemptGeneration
      command.lease.attemptNonce now False := by
  obtain ⟨-, -, hleased, hgeneration, hnonce, howner, hruns, -⟩ := hholds.active
  obtain ⟨lease, hlast, hlease⟩ := h.held job (hid ▸ hholds.job_stored) hleased
  obtain ⟨-, -, huntil, -, hdeadline⟩ := Queue.lease_fields hlease
  obtain ⟨⟨leaseUntil, hstored, hbefore⟩, hdeadlineAt⟩ := hruns
  obtain rfl := Option.some.inj (huntil.symm.trans hstored)
  refine ⟨lease, hlast, Queue.heldBy_of_lease hlease howner hgeneration hnonce, .inr ?_⟩
  exact ⟨hbefore, hdeadline ▸ hdeadlineAt⟩

omit [Hashing] [JsonColumn] in
theorem success_of_changes {α : Type} {call : QueueCall (α × Queue)} (h : s.kept call ≠ s) :
    ∃ a s', call = .success (a, s') ∧ s' ≠ s := by
  cases call with
  | success result => exact ⟨result.1, result.2, rfl, h⟩
  | failure e => exact absurd rfl h
  | raised e => exact absurd rfl h

/-- What changes the store under a lease of the job holds it. -/
theorem holds_of_changes {entry : RunPaperCycle × UTCDateTime} {changing : CycleCommand}
    (hpresented : presented changing = some entry) (hchanges : step s changing ≠ s) :
    ∃ job owner, s.Holds entry.1 entry.2 job owner := by
  cases changing with
  | workflow command => cases hpresented
  | cancel request now => cases hpresented
  | checkpoint command state expectedStateHash now =>
      obtain rfl := Option.some.inj hpresented
      obtain ⟨returned, s', hcall, -⟩ := success_of_changes hchanges
      obtain ⟨job, owner, -, -, hholds, -⟩ := Queue.checkpointCycle_eq_success.mp hcall
      exact ⟨job, owner, hholds⟩
  | fail baseRetryDelay command error now =>
      obtain rfl := Option.some.inj hpresented
      obtain ⟨result, s', hcall, -⟩ := success_of_changes hchanges
      obtain ⟨job, owner, -, hholds, -⟩ := Queue.failCycle_eq_success hcall
      exact ⟨job, owner, hholds⟩
  | complete command state artifact now =>
      obtain rfl := Option.some.inj hpresented
      obtain ⟨result, s', hcall, hchanged⟩ := success_of_changes hchanges
      obtain ⟨job, owner, hstored, hrun, ⟨-, -, hsame⟩ | ⟨-, hactive⟩⟩ :=
        Queue.completeCycle_eq_success.mp hcall
      · -- A completion that is repeated writes nothing.
        exact absurd hsame hchanged
      · obtain ⟨hauthority, -⟩ := Queue.completeActiveCycle_eq_success.mp hactive
        exact ⟨job, owner, hstored, hrun, hauthority⟩

/-- What the store of cycles guarantees for a run and its job after the commands. -/
structure CycleHistory (jobId runId : UUID) (commands : List CycleCommand) : Prop where
  progression : ∀ run ∈ (reached commands).run runId,
    Progression run (reachedCheckpoints jobId commands)
  stages : ∀ run ∈ (reached commands).run runId,
    (latest run (reachedCheckpoints jobId commands)).outputs.map (·.stage) =
      PaperCycleStage.all.take (reachedCheckpoints jobId commands).length
  loaded : ∀ run ∈ (reached commands).run runId, ∀ job : JobRow, job.jobId = jobId → ∀ state,
    (reached commands).loadState job run run.inputHash = .success state ↔
      ¬ Retired runId (reached commands) ∧ state = latest run (reachedCheckpoints jobId commands)
  unended : ∀ event ∈ ((reached commands).eventsOf runId).dropLast, event.eventType ∉ terminalEvents
  closed : ∀ more, (∀ command ∈ more, OfCycle jobId runId command) →
    (∃ event ∈ (reached commands).eventsOf runId, event.eventType ∈ terminalEvents) ∨
      Retired runId (reached commands) →
        Apart jobId runId (reached commands) (reached (commands ++ more))
  writer : ∀ command, ∀ entry ∈ presented command, entry.1.lease.jobId = jobId →
    step (reached commands) command ≠ reached commands →
    Queue.FromLatestHolder (reachedLeases commands) jobId entry.1.lease.leaseOwner
      entry.1.lease.attemptGeneration entry.1.lease.attemptNonce entry.2 False

end Cycle

end

namespace Cycle

theorem cycle_history [Hashing] [JsonColumn] (hplain : JsonColumn.KeepsPlain)
    (jobId runId : UUID) (commands : List CycleCommand)
    (hof : ∀ command ∈ commands, OfCycle jobId runId command) :
    CycleHistory jobId runId commands := by
  have hprogress := progress_reached hplain commands hof
  have hrows := rows_reached commands
  have halone := alone_run Workflow.rows_migrated (alone_migrated jobId runId) commands hof
  cases hprogress with
  | absent hrun hjob hevents hleases hstates =>
      have hnone : ∀ run, run ∉ (reached commands).run runId := by
        intro run hstored
        rw [hrun] at hstored
        cases hstored
      constructor
      · exact fun run hstored => absurd hstored (hnone run)
      · exact fun run hstored => absurd hstored (hnone run)
      · exact fun run hstored => absurd hstored (hnone run)
      · rw [hevents]
        exact List.forall_mem_nil _
      · intro more _ hover
        rcases hover with ⟨event, hevent, -⟩ | ⟨last, hlast, -⟩
        · rw [hevents] at hevent
          cases hevent
        · rw [hevents] at hlast
          cases hlast
      · intro command entry hentry hid hchanges
        obtain ⟨job, owner, hholds⟩ := holds_of_changes hentry hchanges
        have hstored := hholds.job_stored
        rw [hid, hjob] at hstored
        cases hstored
  | going run h =>
      have hrunId := h.runId_eq
      constructor
      · intro run' hstored
        obtain rfl := Option.some.inj (h.run_stored.symm.trans hstored)
        exact h.progression
      · intro run' hstored
        obtain rfl := Option.some.inj (h.run_stored.symm.trans hstored)
        have hcanonical := (latest run (reachedCheckpoints jobId commands)).canonical
        rw [CanonicalOutputs, h.progression.length_outputs] at hcanonical
        exact hcanonical
      · intro run' hstored job hid state
        obtain rfl := Option.some.inj (h.run_stored.symm.trans hstored)
        rw [Queue.loadState_eq_success]
        constructor
        · intro hloads
          have hretired : ¬ Retired runId (reached commands) :=
            fun hretired => not_loads_of_retired (hrunId.symm ▸ hretired) hloads
          rcases h.loads with hlatest | ⟨hretired', -⟩
          · have hboth := (Queue.loadState_eq_success.mpr hloads).symm.trans
              (Queue.loadState_eq_success.mpr (hlatest job hid))
            exact ⟨hretired, Attempt.success.inj hboth⟩
          · exact absurd hretired' hretired
        · intro hlatest
          obtain ⟨hretired, rfl⟩ := hlatest
          rcases h.loads with hloads | ⟨hretired', -⟩
          · exact hloads job hid
          · exact absurd hretired' hretired
      · exact h.unended
      · intro more hmore hover
        have hended : Ended jobId (reached commands) := by
          rcases hover with hterminal | hretired
          · exact h.ended hterminal
          · exact h.ended_of_retired hretired
        have hstored : (reached commands).run runId ≠ none := by
          rw [h.run_stored]
          exact Option.some_ne_none run
        rw [reached_append]
        exact closed_run hrows halone hended hstored more hmore
      · intro command entry hentry hid hchanges
        obtain ⟨job, owner, hholds⟩ := holds_of_changes hentry hchanges
        exact h.holds hid hholds

end Cycle

/-! ## A cycle that is retried -/

namespace PaperCycleScenario

section

variable [Hashing]

def cycleInput : Payload := .dict [("cycle_id", dump "daily")]

def inputHash : Sha256 := stablePayloadHash cycleInput

def request : CreateWorkflowRun :=
  ⟨3, "paper_fund_cycle", 0, "policy", "daily", inputHash, "owner", 0⟩

def job : EnqueueJob :=
  ⟨31, 3, "paper_fund_cycle", .dict [("cycle_input_hash", dump inputHash)], "daily", 0, 100, 3, 1⟩

/-- What a worker presents in its attempt. -/
def attempt (owner : String) (number : ℕ) (nonce : Nonce) (leaseUntil : UTCDateTime) :
    RunPaperCycle where
  lease := {
    jobId := 31
    runId := 3
    jobType := "paper_fund_cycle"
    payload := job.payload
    attemptGeneration := number
    attemptNonce := nonce
    leaseOwner := owner
    leaseUntil := leaseUntil
    attempts := number
    deadlineAt := 100 }
  cycleInput := cycleInput

def genesis : PaperCycleState := .genesis 3 inputHash

/-- The state after the first stage. -/
def evidence : PaperCycleState where
  runId := 3
  cycleInputHash := inputHash
  outputs := [⟨.evidence, [⟨"evidence", "filing", 7, by decide, by decide⟩], by decide⟩]
  canonical := by decide
  executed := by decide

/-- The lease of the first worker has passed when its checkpoint arrives; the second one records
the stage. -/
def retried : List CycleCommand :=
  [.workflow (.operation (.create request, 0)), .workflow (.operation (.enqueue job, 1)),
    .workflow (.operation (.claim ⟨"first", 10, 5⟩ [], 10)),
    .workflow (.operation (.claim ⟨"second", 30, 6⟩ [], 20)),
    .checkpoint (attempt "first" 1 5 20) evidence genesis.stateHash 25,
    .checkpoint (attempt "second" 2 6 50) evidence genesis.stateHash 26]

end

open scoped CodeHashing PlainColumns

theorem cycle_history_retried :
    Cycle.CycleHistory 31 3 retried ∧ Cycle.reachedCheckpoints 31 retried = [evidence] ∧
      (Cycle.reachedLeases retried).length = 2 :=
  ⟨Cycle.cycle_history PlainColumns.keepsPlain 31 3 retried (by decide +kernel), by decide +kernel,
    by decide +kernel⟩

end PaperCycleScenario

end StonksPaper
