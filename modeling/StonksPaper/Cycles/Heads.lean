import StonksPaper.Cycles.Effects
import StonksPaper.Jobs.Kept

/-!
# Audit heads

Every writer but one appends an event when it raises the version of a run. The transition of the
workflow store raises the version alone: from then on the head of the run is behind its version, and
every operation that asks for a valid audit head is refused.
-/

namespace StonksPaper

open Chain

section

variable [Hashing] [JsonColumn] {s s' : Queue} {run run' : WorkflowRunRow} {event : RunEventRow}

namespace Cycle

/-! ## What a write does to a run and its events -/

/-- An event is appended to a run, and the run goes on to it. -/
structure Appends (s s' : Queue) (run run' : WorkflowRunRow) (event : RunEventRow) : Prop where
  stored : run ∈ s.runs
  same : run'.runId = run.runId
  version : run'.version = run.version + 1
  owner : event.runId = run.runId
  sequence : event.sequence = run.version + 1
  previous : event.previousHash = s.previousHash run.runId
  hashed : JsonColumn.KeepsPlain → event.eventHash =
    eventHash event.eventId event.sequence event.previousHash event.payload
  updated : event.occurredAt = run'.updatedAt
  runs : s'.runs = Table.update (·.runId = run.runId) (fun _ => run') s.runs
  events : s'.events = s.events ++ [event]

inductive HeadStep (s s' : Queue) : Prop where
  | kept (hruns : s'.runs = s.runs) (hevents : s'.events = s.events)
  | created (run : WorkflowRunRow) (hfresh : Table.Fresh (·.runId) run.runId s.runs)
      (hversion : run.version = 1) (hruns : s'.runs = s.runs ++ [run])
      (hevents : s'.events = s.events)
  | appended (run run' : WorkflowRunRow) (event : RunEventRow) (h : Appends s s' run run' event)

theorem appends_committed {job : JobRow} {t : Queue.Transition} {now : UTCDateTime}
    (hrun : run ∈ s.runs) (hmarks : t.Marks job) :
    Appends s (s.committed run t now) run (Queue.auditedRun run t now)
      (s.storedEvent run t now) where
  stored := hrun
  same := rfl
  version := rfl
  owner := rfl
  sequence := rfl
  previous := rfl
  hashed := fun hplain => by
    have hsame : stored t.payload = t.payload := hplain _ hmarks.plain
    show _ = eventHash _ _ _ (stored t.payload)
    rw [hsame]
    rfl
  updated := rfl
  runs := rfl
  events := rfl

theorem appends_written {job row : JobRow} {audit : CycleAudit} {now : UTCDateTime}
    (hrun : run ∈ s.runs) (hentry : Queue.Entry run job audit row) :
    Appends s (s.written run job audit row now) run (Queue.cycleRun run audit now)
      (s.storedCycleEvent run job audit now) where
  stored := hrun
  same := rfl
  version := rfl
  owner := rfl
  sequence := rfl
  previous := rfl
  hashed := fun hplain => by
    have hsame : stored audit.payload = audit.payload := hplain _ hentry.plain
    show _ = eventHash _ _ _ (stored audit.payload)
    rw [hsame]
    rfl
  updated := rfl
  runs := rfl
  events := rfl

theorem headStep_of_write (h : Write s s') : HeadStep s s' := by
  cases h with
  | queue hchange =>
      cases hchange with
      | quiet hquiet =>
          cases hquiet with
          | run request hinsert =>
              obtain ⟨⟨hfresh, -, -⟩, rfl⟩ := Queue.insertRun_eq_success.mp hinsert
              exact .created request.row hfresh rfl rfl rfl
          | job request hinsert =>
              obtain ⟨-, -, rfl⟩ := Queue.insertJob_eq_success.mp hinsert
              exact .kept rfl rfl
          | artifact row hinsert =>
              obtain ⟨-, rfl⟩ := Queue.insertArtifact_eq_success.mp hinsert
              exact .kept rfl rfl
          | transition now hjob hrun howner hmarks hcan =>
              exact .appended _ _ _ (appends_committed hrun hmarks)
      | lease request hjob hclaimable hupdate =>
          obtain ⟨-, -, rfl⟩ := Queue.updateJob_eq_success.mp hupdate
          exact .kept rfl rfl
  | entry now hjob hrun howner hentry hcan hchecks =>
      exact .appended _ _ _ (appends_written hrun hentry)

omit [Hashing] [JsonColumn] in
theorem eventsOf_congr (h : s'.events = s.events) (runId : UUID) :
    s'.eventsOf runId = s.eventsOf runId := by
  unfold Queue.eventsOf
  rw [h]

omit [Hashing] [JsonColumn] in
theorem length_eventsOf (s : Queue) (runId : UUID) :
    (s.eventsOf runId).length = (s.events.filter (·.runId = runId)).length :=
  (sorted_perm _ _).length_eq

theorem Appends.length_eventsOf (h : Appends s s' run run' event) (runId : UUID) :
    (s'.eventsOf runId).length =
      (s.eventsOf runId).length + if run.runId = runId then 1 else 0 := by
  rw [Cycle.length_eventsOf, Cycle.length_eventsOf, h.events, List.filter_append,
    List.length_append]
  by_cases hid : run.runId = runId
  · rw [if_pos hid]
    simp [h.owner, hid]
  · rw [if_neg hid]
    simp [h.owner, hid]

/-! ## Rows -/

theorem rows_written {job row : JobRow} {audit : CycleAudit} {now : UTCDateTime}
    (h : Workflow.Rows s) (hjob : job ∈ s.jobs) (hentry : Queue.Entry run job audit row) :
    Workflow.Rows (s.written run job audit row now) := by
  refine ⟨h.runs_unique.update fun r hr => hr.symm, h.jobs_unique.update fun r hr => hr.symm, ?_⟩
  refine Table.forall_mem_update (fun r hr _ => h.claimed r hr) fun _ _ _ hleased => ?_
  have hsame := hentry.leased hleased
  rw [hsame]
  exact h.claimed job hjob (hsame ▸ hleased)

theorem rows_write (h : Workflow.Rows s) (hwrite : Write s s') : Workflow.Rows s' := by
  cases hwrite with
  | queue hchange => exact h.change hchange
  | entry now hjob hrun howner hentry hcan hchecks => exact rows_written h hjob hentry

theorem rows_writes (h : Workflow.Rows s) (hwrites : Writes s s') : Workflow.Rows s' := by
  induction hwrites with
  | refl => exact h
  | tail _ hwrite ih => exact rows_write ih hwrite

omit [Hashing] [JsonColumn] in
/-- A command that moves a run is the transition that does it. -/
theorem moved_of_moves {command : CycleCommand} (h : Moves s command) :
    ∃ request current, command = .workflow (.transition request) ∧
      s.run request.runId = some current ∧ current.version = request.expectedVersion := by
  cases command with
  | workflow command =>
      cases command with
      | operation op => exact absurd h id
      | transition request =>
          obtain ⟨result, hresult⟩ := h
          obtain ⟨current, hrun, -, hversion, -, -⟩ :=
            Workflow.transition_eq_success.mp hresult
          exact ⟨request, current, rfl, hrun, hversion⟩
  | checkpoint command state expectedStateHash now => exact absurd h id
  | fail baseRetryDelay command error now => exact absurd h id
  | complete command state artifact now => exact absurd h id
  | cancel request now => exact absurd h id

theorem rows_step (h : Workflow.Rows s) (command : CycleCommand) :
    Workflow.Rows (step s command) := by
  by_cases hmoves : Moves s command
  · obtain ⟨request, -, rfl, -⟩ := moved_of_moves hmoves
    exact h.transition request
  · exact rows_writes h (writes_step h.jobs_unique hmoves)

theorem rows_reached (commands : List CycleCommand) : Workflow.Rows (reached commands) :=
  Run.invariant_run (I := Workflow.Rows) (fun _ command hrows => rows_step hrows command)
    Workflow.rows_migrated commands

/-! ## Versions and events -/

/-- Versions that are not behind the events. -/
structure Counted (s : Queue) : Prop where
  events_le : ∀ run ∈ s.runs, 1 + (s.eventsOf run.runId).length ≤ run.version
  attributed : ∀ event ∈ s.events, ∃ run ∈ s.runs, run.runId = event.runId

omit [Hashing] [JsonColumn] in
theorem eventsOf_eq_nil (hattributed : ∀ event ∈ s.events, ∃ run ∈ s.runs, run.runId = event.runId)
    {runId : UUID} (hfresh : Table.Fresh (·.runId) runId s.runs) : s.eventsOf runId = [] := by
  rw [List.eq_nil_iff_forall_not_mem]
  intro event hevent
  obtain ⟨hstored, howner⟩ := Queue.mem_eventsOf.mp hevent
  obtain ⟨owner, hmem, hid⟩ := hattributed event hstored
  exact hfresh owner hmem (hid.trans howner)

omit [Hashing] [JsonColumn] in
theorem counted_migrated : Counted Queue.migrated := by
  constructor
  · intro run hrun
    cases hrun
  · intro event hevent
    cases hevent

theorem Counted.headStep (h : Counted s) (hstep : HeadStep s s') : Counted s' := by
  cases hstep with
  | kept hruns hevents =>
      constructor
      · rw [hruns]
        intro run hrun
        rw [eventsOf_congr hevents]
        exact h.events_le run hrun
      · rw [hevents, hruns]
        exact h.attributed
  | created run hfresh hversion hruns hevents =>
      constructor
      · rw [hruns]
        intro r hr
        rw [eventsOf_congr hevents]
        rcases List.mem_append.mp hr with hr | hr
        · exact h.events_le r hr
        · obtain rfl := List.mem_singleton.mp hr
          rw [eventsOf_eq_nil h.attributed hfresh, hversion]
          exact le_rfl
      · rw [hevents, hruns]
        intro event hevent
        obtain ⟨owner, hmem, hid⟩ := h.attributed event hevent
        exact ⟨owner, List.mem_append_left _ hmem, hid⟩
  | appended run run' event happends =>
      constructor
      · rw [happends.runs]
        refine Table.forall_mem_update (fun r hr hne => ?_) fun _ _ _ => ?_
        · rw [happends.length_eventsOf, if_neg fun heq => hne heq.symm]
          exact h.events_le r hr
        · have hle := h.events_le run happends.stored
          rw [happends.length_eventsOf, if_pos happends.same.symm, happends.same,
            happends.version]
          omega
      · rw [happends.events, happends.runs]
        intro e he
        refine Table.exists_mem_update (fun r hr hsame hid => ?_) ?_
        · exact (happends.same.trans hsame.symm).trans hid
        · rcases List.mem_append.mp he with he | he
          · exact h.attributed e he
          · rw [List.mem_singleton.mp he]
            exact ⟨run, happends.stored, happends.owner.symm⟩

theorem counted_writes (h : Counted s) (hwrites : Writes s s') : Counted s' := by
  induction hwrites with
  | refl => exact h
  | tail _ hwrite ih => exact ih.headStep (headStep_of_write hwrite)

/-! ## Without a transition of the workflow store -/

structure Chained (s : Queue) : Prop where
  headed : ∀ run ∈ s.runs, s.Headed run
  hashed : ∀ event ∈ s.events, event.eventHash =
    eventHash event.eventId event.sequence event.previousHash event.payload

omit [JsonColumn] in
theorem chained_migrated : Chained Queue.migrated := by
  constructor
  · intro run hrun
    cases hrun
  · intro event hevent
    cases hevent

omit [Hashing] [JsonColumn] in
theorem headed_of_no_events (h : s.eventsOf run.runId = []) (hversion : run.version = 1) :
    s.Headed run := by
  constructor
  · rw [h]
    trivial
  · rw [h, hversion]
    rfl
  · rw [h]
    intro last hlast
    cases hlast

omit [Hashing] [JsonColumn] in
theorem headed_congr {row : WorkflowRunRow} (h : s.Headed run)
    (hevents : s'.eventsOf row.runId = s.eventsOf run.runId) (hversion : row.version = run.version)
    (hupdated : row.updatedAt = run.updatedAt) : s'.Headed row := by
  constructor
  · rw [hevents]
    exact h.linked
  · rw [hevents, hversion]
    exact h.version
  · rw [hevents, hupdated]
    exact h.updated

/-- The run that an event is appended to has it as its head. -/
theorem Appends.headed (h : Appends s s' run run' event) (hheaded : s.Headed run) :
    s'.Headed run' := by
  have hlast : ∀ e ∈ s.eventsOf event.runId, e.sequence ≤ event.sequence := by
    intro e he
    rw [h.owner] at he
    have hle := hheaded.sequence_le he
    rw [h.sequence]
    omega
  have hevents : s'.eventsOf run'.runId = s.eventsOf run.runId ++ [event] := by
    rw [h.same, ← h.owner]
    exact Queue.eventsOf_concat h.events hlast
  constructor
  · rw [hevents, linked_concat]
    refine ⟨hheaded.linked, ?_, ?_⟩
    · show event.sequence = _
      rw [h.sequence, hheaded.version]
    · show event.previousHash = _
      rw [h.previous, hheaded.previousHash_eq]
  · rw [hevents, List.length_append, List.length_singleton, h.version, hheaded.version]
    omega
  · rw [hevents, List.getLast?_concat]
    intro last hlast
    obtain rfl := Option.some.inj hlast
    exact h.updated

theorem Chained.headStep (h : Chained s) (hcounted : Counted s) (hplain : JsonColumn.KeepsPlain)
    (hstep : HeadStep s s') : Chained s' := by
  cases hstep with
  | kept hruns hevents =>
      constructor
      · rw [hruns]
        intro run hrun
        exact headed_congr (h.headed run hrun) (eventsOf_congr hevents _) rfl rfl
      · rw [hevents]
        exact h.hashed
  | created run hfresh hversion hruns hevents =>
      constructor
      · rw [hruns]
        intro r hr
        rcases List.mem_append.mp hr with hr | hr
        · exact headed_congr (h.headed r hr) (eventsOf_congr hevents _) rfl rfl
        · obtain rfl := List.mem_singleton.mp hr
          refine headed_of_no_events ?_ hversion
          rw [eventsOf_congr hevents]
          exact eventsOf_eq_nil hcounted.attributed hfresh
      · rw [hevents]
        exact h.hashed
  | appended run run' event happends =>
      constructor
      · rw [happends.runs]
        refine Table.forall_mem_update (fun r hr hne => ?_) fun _ _ _ =>
          happends.headed (h.headed run happends.stored)
        have hother : event.runId ≠ r.runId := fun heq => hne (heq.symm.trans happends.owner)
        exact headed_congr (h.headed r hr)
          (Queue.eventsOf_concat_of_ne happends.events hother) rfl rfl
      · rw [happends.events]
        intro e he
        rcases List.mem_append.mp he with he | he
        · exact h.hashed e he
        · rw [List.mem_singleton.mp he]
          exact happends.hashed hplain

theorem Chained.writes (h : Chained s) (hcounted : Counted s) (hplain : JsonColumn.KeepsPlain)
    (hwrites : Writes s s') : Chained s' := by
  have hboth : Counted s' ∧ Chained s' := by
    induction hwrites with
    | refl => exact ⟨hcounted, h⟩
    | tail _ hwrite ih =>
        have hstep := headStep_of_write hwrite
        exact ⟨ih.1.headStep hstep, ih.2.headStep ih.1 hplain hstep⟩
  exact hboth.2

omit [JsonColumn] in
/-- The head of a chained run is accepted. -/
theorem Chained.requireValidAuditHead (h : Chained s) (hrun : run ∈ s.runs) :
    s.requireValidAuditHead run = .success () := by
  have hheaded := h.headed run hrun
  unfold Queue.requireValidAuditHead
  cases hlast : (s.eventsOf run.runId).getLast? with
  | none =>
      have hversion := hheaded.version
      rw [List.getLast?_eq_none_iff.mp hlast] at hversion
      exact QueueCall.valid_of hversion _
  | some last =>
      have hsequence : last.sequence = 1 + (s.eventsOf run.runId).length :=
        hheaded.linked.sequence_last RunEventRow.link hlast
      have hversion : last.sequence = run.version := hsequence.trans hheaded.version.symm
      have hchain : s.EventChainIsValid run last.eventId :=
        ⟨hheaded.linked, fun e he => h.hashed e (Queue.mem_eventsOf.mp he).1,
          ⟨last, List.mem_of_getLast? hlast, rfl⟩,
          ⟨last, hlast, hversion, hheaded.updated last hlast⟩⟩
      show (QueueCall.valid _ _ >>= fun _ => QueueCall.valid _ _) = _
      rw [QueueCall.valid_of hversion.symm, Attempt.success_bind, QueueCall.valid_of hchain]

/-! ## After a transition of the workflow store -/

def Detached (s : Queue) (runId : UUID) : Prop :=
  ∃ run ∈ s.runs, run.runId = runId ∧ 1 + (s.eventsOf runId).length < run.version

theorem Detached.headStep {runId : UUID} (h : Detached s runId)
    (hunique : Table.Unique (·.runId) s.runs) (hstep : HeadStep s s') : Detached s' runId := by
  obtain ⟨run, hrun, hid, hahead⟩ := h
  cases hstep with
  | kept hruns hevents =>
      refine ⟨run, hruns ▸ hrun, hid, ?_⟩
      rw [eventsOf_congr hevents]
      exact hahead
  | created created hfresh hversion hruns hevents =>
      refine ⟨run, hruns ▸ List.mem_append_left _ hrun, hid, ?_⟩
      rw [eventsOf_congr hevents]
      exact hahead
  | appended owner owner' event happends =>
      by_cases hsame : run.runId = owner.runId
      · obtain rfl := hunique.eq hrun happends.stored hsame
        refine ⟨owner', ?_, happends.same.trans hid, ?_⟩
        · rw [happends.runs]
          exact Table.mem_update.mpr ⟨run, hrun, (if_pos rfl).symm⟩
        · rw [happends.length_eventsOf, if_pos hid, happends.version]
          omega
      · refine ⟨run, ?_, hid, ?_⟩
        · rw [happends.runs]
          exact Table.mem_update.mpr ⟨run, hrun, (if_neg hsame).symm⟩
        · rw [happends.length_eventsOf, if_neg fun heq => hsame (hid.trans heq.symm)]
          exact hahead

theorem detached_writes {runId : UUID} (h : Detached s runId) (hrows : Workflow.Rows s)
    (hwrites : Writes s s') : Workflow.Rows s' ∧ Detached s' runId := by
  induction hwrites with
  | refl => exact ⟨hrows, h⟩
  | tail _ hwrite ih =>
      exact ⟨rows_write ih.1 hwrite, ih.2.headStep ih.1.runs_unique (headStep_of_write hwrite)⟩

omit [Hashing] [JsonColumn] in
theorem transition_moves {request : TransitionRun} {current : WorkflowRunRow}
    (hrun : s.run request.runId = some current) (h : (s.transition request).Succeeds) :
    s.kept (s.transition request) = { s with
      runs := Table.update (·.runId = current.runId)
        (fun _ => current.transitioned request) s.runs } := by
  obtain ⟨⟨row, next⟩, hresult⟩ := h
  obtain ⟨found, hfound, -, -, rfl, rfl⟩ := Workflow.transition_eq_success.mp hresult
  obtain rfl := Option.some.inj (hrun.symm.trans hfound)
  rw [hresult]
  rfl

omit [Hashing] [JsonColumn] in
theorem Counted.transition (h : Counted s) (request : TransitionRun) :
    Counted (s.kept (s.transition request)) := by
  rcases Workflow.transition_cases s request with ⟨hsame, -⟩ | ⟨current, hrun, -, hversion,
    hupdated⟩
  · rw [hsame]
    exact h
  · obtain ⟨hmem, -⟩ := Queue.run_of_eq_some hrun
    rw [hupdated]
    constructor
    · refine Table.forall_mem_update (fun r hr _ => h.events_le r hr) fun _ _ _ => ?_
      have hle := h.events_le current hmem
      show 1 + (s.eventsOf current.runId).length ≤ request.expectedVersion + 1
      omega
    · intro event hevent
      exact Table.exists_mem_update (fun r _ hsame hid => hsame.symm.trans hid)
        (h.attributed event hevent)

omit [Hashing] [JsonColumn] in
theorem Detached.transition {runId : UUID} (h : Detached s runId)
    (hunique : Table.Unique (·.runId) s.runs) (request : TransitionRun) :
    Detached (s.kept (s.transition request)) runId := by
  rcases Workflow.transition_cases s request with ⟨hsame, -⟩ | ⟨current, hrun, -, hversion,
    hupdated⟩
  · rw [hsame]
    exact h
  · obtain ⟨hmem, -⟩ := Queue.run_of_eq_some hrun
    obtain ⟨run, hstored, hid, hahead⟩ := h
    rw [hupdated]
    by_cases hsame : run.runId = current.runId
    · obtain rfl := hunique.eq hstored hmem hsame
      refine ⟨run.transitioned request, Table.mem_update.mpr ⟨run, hstored, (if_pos rfl).symm⟩,
        hid, ?_⟩
      show 1 + (s.eventsOf runId).length < request.expectedVersion + 1
      omega
    · exact ⟨run, Table.mem_update.mpr ⟨run, hstored, (if_neg hsame).symm⟩, hid, hahead⟩

theorem counted_step (h : Counted s) (hrows : Workflow.Rows s) (command : CycleCommand) :
    Counted (step s command) := by
  by_cases hmoves : Moves s command
  · obtain ⟨request, -, rfl, -⟩ := moved_of_moves hmoves
    exact h.transition request
  · exact counted_writes h (writes_step hrows.jobs_unique hmoves)

theorem counted_reached (commands : List CycleCommand) : Counted (reached commands) :=
  (Run.invariant_run (I := fun s => Workflow.Rows s ∧ Counted s)
    (fun _ command h => ⟨rows_step h.1 command, counted_step h.2 h.1 command⟩)
    ⟨Workflow.rows_migrated, counted_migrated⟩ commands).2

theorem detached_step {runId : UUID} (h : Detached s runId) (hrows : Workflow.Rows s)
    (command : CycleCommand) : Detached (step s command) runId := by
  by_cases hmoves : Moves s command
  · obtain ⟨request, -, rfl, -⟩ := moved_of_moves hmoves
    exact h.transition hrows.runs_unique request
  · exact (detached_writes h hrows (writes_step hrows.jobs_unique hmoves)).2

theorem detached_run {runId : UUID} (h : Detached s runId) (hrows : Workflow.Rows s)
    (commands : List CycleCommand) : Detached (Run.run step s commands) runId :=
  (Run.invariant_run (I := fun s => Workflow.Rows s ∧ Detached s runId)
    (fun _ command h => ⟨rows_step h.1 command, detached_step h.2 h.1 command⟩)
    ⟨hrows, h⟩ commands).2

theorem detached_of_moves (h : Counted s) {command : CycleCommand} (hmoves : Moves s command) :
    ∃ runId, Detached (step s command) runId := by
  obtain ⟨request, current, rfl, hrun, hversion⟩ := moved_of_moves hmoves
  obtain ⟨hmem, -⟩ := Queue.run_of_eq_some hrun
  refine ⟨current.runId, ?_⟩
  show Detached (s.kept (s.transition request)) current.runId
  rw [transition_moves hrun hmoves]
  refine ⟨current.transitioned request, Table.mem_update.mpr ⟨current, hmem, (if_pos rfl).symm⟩,
    rfl, ?_⟩
  have hle := h.events_le current hmem
  show 1 + (s.eventsOf current.runId).length < request.expectedVersion + 1
  omega

/-! ## Audit heads -/

def AuditHeads (s : Queue) : Prop :=
  ∀ run ∈ s.runs, s.Headed run ∧ s.requireValidAuditHead run = .success ()

omit [JsonColumn] in
theorem not_auditHeads_of_detached {runId : UUID} (h : Detached s runId) : ¬ AuditHeads s := by
  intro hheads
  obtain ⟨run, hrun, rfl, hahead⟩ := h
  have hversion := (hheads run hrun).1.version
  omega

/-- The audit heads are kept exactly as long as the workflow store carries out no transition. -/
theorem auditHeads_iff (hplain : JsonColumn.KeepsPlain) (commands : List CycleCommand) :
    AuditHeads (reached commands) ↔
      Run.Meets step (fun s command => ¬ Moves s command) Queue.migrated commands := by
  constructor
  · intro hheads
    rw [Run.meets_iff]
    intro before command after hsplit hmoves
    obtain ⟨runId, hdetached⟩ := detached_of_moves (counted_reached before) hmoves
    have hlater := detached_run hdetached (rows_step (rows_reached before) command) after
    refine not_auditHeads_of_detached (?_ : Detached _ runId) hheads
    rw [hsplit, reached_append]
    exact hlater
  · intro hmeets
    have hkept : (Workflow.Rows (reached commands) ∧ Counted (reached commands)) ∧
        Chained (reached commands) :=
      hmeets.invariant (I := fun s => (Workflow.Rows s ∧ Counted s) ∧ Chained s)
        (fun s command h hmoves => ⟨⟨rows_step h.1.1 command, counted_step h.1.2 h.1.1 command⟩,
          h.2.writes h.1.2 hplain (writes_step h.1.1.jobs_unique hmoves)⟩)
        ⟨⟨Workflow.rows_migrated, counted_migrated⟩, chained_migrated⟩
    intro run hrun
    exact ⟨hkept.2.headed run hrun, hkept.2.requireValidAuditHead hrun⟩

end Cycle

end

/-! ## A run that is moved -/

namespace ResearchScenario

open scoped CodeHashing PlainColumns

/-- The workflow store marks the run as running before its first job is claimed. -/
def moved : List CycleCommand :=
  [.workflow (.operation (.create request, 0)), .workflow (.operation (.enqueue firstJob, 1)),
    .workflow (.transition ⟨2, 1, .running, 5⟩),
    .workflow (.operation (.claim ⟨"worker", 30, 5⟩ [], 10))]

def movedFailure : FailJob := ⟨21, "worker", 1, 5, .internalError, "worker_failed"⟩

theorem auditHeads_iff_moved : Cycle.AuditHeads (Cycle.reached moved) ↔
    Run.Meets Cycle.step (fun s command => ¬ Cycle.Moves s command) Queue.migrated moved :=
  Cycle.auditHeads_iff PlainColumns.keepsPlain moved

/-- The head of the run is refused, and its job can neither be completed nor be failed. -/
theorem moved_head_detached :
    (∃ run ∈ (Cycle.reached moved).runs,
      (Cycle.reached moved).requireValidAuditHead run ≠ .success ()) ∧
      ¬ ((Cycle.reached moved).complete completion (some artifact) 20).Succeeds ∧
      ¬ ((Cycle.reached moved).fail movedFailure 20).Succeeds := by
  decide +kernel

end ResearchScenario

end StonksPaper
