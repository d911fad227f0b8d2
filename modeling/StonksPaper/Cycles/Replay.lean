import Mathlib.Data.List.Induction
import StonksPaper.Cycles.Heads

/-!
# Rebuilding the state of a cycle

The loop of `_load_state` as a chain of rounds. What it accepts is linked and counted by the version
of the run, so an event that is appended at the head is one more round.
-/

namespace StonksPaper

open Chain

section

variable [Hashing] {s s' : Queue} {run run' : WorkflowRunRow} {job job' : JobRow}
  {event : RunEventRow} {cycleInputHash : Sha256} {state current next candidate : PaperCycleState}

namespace Queue

/-! ## One round -/

/-- What `_validate_event` asks of the event at a position. -/
structure ValidEvent (s : Queue) (runId : UUID) (event : RunEventRow) (sequence : ℕ)
    (previousHash : Option Sha256) : Prop where
  position : event.sequence = sequence
  previous : event.previousHash = previousHash
  hashed : event.eventHash = eventHash event.eventId sequence previousHash event.payload
  posted : ∃ outbox ∈ s.outboxOf runId sequence, outbox.topic = event.eventType ∧
    outbox.payload = event.payload ∧ outbox.createdAt = event.occurredAt

theorem validateEvent_eq_success {sequence : ℕ} {previousHash : Option Sha256} {u : Unit} :
    s.validateEvent run event sequence previousHash = .success u ↔
      s.ValidEvent run.runId event sequence previousHash := by
  simp only [validateEvent, Attempt.bind_eq_success, QueueCall.accepted_eq_success, exists_const]
  constructor
  · rintro ⟨⟨hsequence, hprevious, hhash⟩, hposted⟩
    exact ⟨hsequence, hprevious, hhash, hposted⟩
  · intro h
    exact ⟨⟨h.position, h.previous, h.hashed⟩, h.posted⟩

def Marker (eventType : String) : Prop :=
  eventType = "paper_cycle.retry_scheduled" ∨ eventType ∈ terminalEvents

instance (eventType : String) : Decidable (Marker eventType) :=
  inferInstanceAs (Decidable (_ ∨ _))

/-- The state after an event: a checkpoint replaces it, a marker keeps it. -/
structure Advances (job : JobRow) (cycleInputHash : Sha256) (current : PaperCycleState)
    (event : RunEventRow) (next : PaperCycleState) : Prop where
  checkpoint : event.eventType = "paper_cycle.stage_completed" →
    checkpointState event job cycleInputHash = .success next ∧
      NextState current next current.stateHash
  marker : event.eventType ≠ "paper_cycle.stage_completed" → Marker event.eventType ∧ next = current

theorem replayEvent_eq_success {replay after : Replay} :
    s.replayEvent run job cycleInputHash replay event = .success after ↔
      s.ValidEvent run.runId event replay.expectedSequence replay.previousHash ∧
        Advances job cycleInputHash replay.state event after.state ∧
        after.previousHash = some event.eventHash ∧
        after.expectedSequence = replay.expectedSequence + 1 := by
  simp only [replayEvent, requireNextState, Attempt.bind_eq_success, validateEvent_eq_success,
    exists_const]
  refine and_congr_right fun _ => ?_
  obtain ⟨afterState, afterHash, afterSequence⟩ := after
  by_cases hcheckpoint : event.eventType = "paper_cycle.stage_completed"
  · simp only [hcheckpoint, if_true, Attempt.bind_eq_success, QueueCall.accepted_eq_success,
      Attempt.pure_eq, Attempt.success.injEq, Replay.mk.injEq, exists_const]
    constructor
    · rintro ⟨candidate, hread, hnext, rfl, rfl, rfl⟩
      exact ⟨⟨fun _ => ⟨hread, hnext⟩, fun hother => absurd hcheckpoint hother⟩, rfl, rfl⟩
    · rintro ⟨hadvances, rfl, rfl⟩
      obtain ⟨hread, hnext⟩ := hadvances.checkpoint hcheckpoint
      exact ⟨afterState, hread, hnext, rfl, rfl, rfl⟩
  · simp only [hcheckpoint, if_false, Attempt.bind_eq_success, QueueCall.accepted_eq_success,
      Attempt.pure_eq, Attempt.success.injEq, Replay.mk.injEq, exists_const]
    constructor
    · rintro ⟨hmarker, rfl, rfl, rfl⟩
      exact ⟨⟨fun h => absurd h hcheckpoint, fun _ => ⟨hmarker, rfl⟩⟩, rfl, rfl⟩
    · rintro ⟨hadvances, rfl, rfl⟩
      obtain ⟨hmarker, rfl⟩ := hadvances.marker hcheckpoint
      exact ⟨hmarker, rfl, rfl, rfl⟩

/-! ## The loop -/

/-- The rounds of the loop, from a state and the events before them. -/
inductive Replays (s : Queue) (runId : UUID) (job : JobRow) (cycleInputHash : Sha256) :
    PaperCycleState → List RunEventRow → PaperCycleState → Prop where
  | nil (state : PaperCycleState) : Replays s runId job cycleInputHash state [] state
  | snoc {start current next : PaperCycleState} {events : List RunEventRow} {event : RunEventRow}
      (h : Replays s runId job cycleInputHash start events current)
      (hvalid : s.ValidEvent runId event (events.length + 2)
        (headHash RunEventRow.link none events))
      (hadvances : Advances job cycleInputHash current event next) :
      Replays s runId job cycleInputHash start (events ++ [event]) next

/-- The loop accepts exactly the rounds that follow each other. -/
theorem foldlM_replayEvent_eq_success {start : PaperCycleState} {events : List RunEventRow}
    {replay : Replay} :
    events.foldlM (s.replayEvent run job cycleInputHash) ⟨start, none, 2⟩ = .success replay ↔
      s.Replays run.runId job cycleInputHash start events replay.state ∧
        replay.previousHash = headHash RunEventRow.link none events ∧
        replay.expectedSequence = events.length + 2 := by
  induction events using List.reverseRecOn generalizing replay with
  | nil =>
      obtain ⟨state, previousHash, expectedSequence⟩ := replay
      simp only [List.foldlM_nil, Attempt.pure_eq, Attempt.success.injEq, Replay.mk.injEq,
        headHash_nil, List.length_nil]
      constructor
      · rintro ⟨rfl, rfl, rfl⟩
        exact ⟨.nil start, rfl, rfl⟩
      · rintro ⟨h, rfl, rfl⟩
        refine ⟨?_, rfl, rfl⟩
        generalize hevents : ([] : List RunEventRow) = events at h
        cases h with
        | nil => rfl
        | snoc h hvalid hadvances => simp at hevents
  | append_singleton events event ih =>
      simp only [List.foldlM_append, List.foldlM_cons, List.foldlM_nil, Attempt.bind_eq_success,
        Attempt.pure_eq, Attempt.success.injEq, replayEvent_eq_success, headHash_concat,
        List.length_append, List.length_singleton]
      constructor
      · rintro ⟨before, hbefore, after, ⟨hvalid, hadvances, hhash, hsequence⟩, rfl⟩
        obtain ⟨hreplays, hprevious, hexpected⟩ := ih.mp hbefore
        rw [hexpected, hprevious] at hvalid
        refine ⟨.snoc hreplays hvalid hadvances, hhash, ?_⟩
        omega
      · rintro ⟨h, hhash, hsequence⟩
        generalize hevents : events ++ [event] = all at h
        cases h with
        | nil => simp at hevents
        | @snoc current _ earlier last h hvalid hadvances =>
            obtain ⟨rfl, heq⟩ := List.append_inj' hevents rfl
            obtain rfl := List.singleton_inj.mp heq
            refine ⟨⟨current, headHash RunEventRow.link none events, events.length + 2⟩,
              ih.mpr ⟨h, rfl, rfl⟩, replay, ⟨hvalid, hadvances, hhash, ?_⟩, rfl⟩
            show replay.expectedSequence = events.length + 2 + 1
            omega

theorem Replays.linked {runId : UUID} {start : PaperCycleState} {events : List RunEventRow}
    (h : s.Replays runId job cycleInputHash start events state) :
    Linked RunEventRow.link 1 none events := by
  induction h with
  | nil => trivial
  | snoc h hvalid hadvances ih =>
      refine (linked_concat _).mpr ⟨ih, ?_, hvalid.previous⟩
      have hsequence := hvalid.position
      show RunEventRow.sequence _ = _
      omega

/-- The position of an outbox row is not taken from it by later ones. -/
def KeepsOutbox (s s' : Queue) (runId : UUID) : Prop :=
  ∀ sequence outbox, s.outboxOf runId sequence = some outbox →
    s'.outboxOf runId sequence = some outbox

omit [Hashing] in
theorem keepsOutbox_refl (s : Queue) (runId : UUID) : KeepsOutbox s s runId := fun _ _ h => h

omit [Hashing] in
theorem keepsOutbox_of_append {outbox : List OutboxRow} (h : s'.outbox = s.outbox ++ outbox)
    (runId : UUID) : KeepsOutbox s s' runId := by
  intro sequence row hrow
  unfold outboxOf at hrow ⊢
  rw [h, List.find?_append, hrow]
  rfl

theorem ValidEvent.mono {runId : UUID} {sequence : ℕ} {previousHash : Option Sha256}
    (h : s.ValidEvent runId event sequence previousHash) (houtbox : KeepsOutbox s s' runId) :
    s'.ValidEvent runId event sequence previousHash := by
  obtain ⟨outbox, hstored, hmatches⟩ := h.posted
  exact ⟨h.position, h.previous, h.hashed, outbox, houtbox _ _ hstored, hmatches⟩

theorem Advances.congr (h : Advances job cycleInputHash current event next)
    (hid : job'.jobId = job.jobId) : Advances job' cycleInputHash current event next := by
  refine ⟨fun hcheckpoint => ?_, h.marker⟩
  obtain ⟨hread, hnext⟩ := h.checkpoint hcheckpoint
  refine ⟨?_, hnext⟩
  unfold checkpointState at hread ⊢
  rw [hid]
  exact hread

theorem Replays.mono {runId : UUID} {start : PaperCycleState} {events : List RunEventRow}
    (h : s.Replays runId job cycleInputHash start events state) (houtbox : KeepsOutbox s s' runId)
    (hid : job'.jobId = job.jobId) : s'.Replays runId job' cycleInputHash start events state := by
  induction h with
  | nil => exact .nil _
  | snoc h hvalid hadvances ih => exact .snoc ih (hvalid.mono houtbox) (hadvances.congr hid)

/-! ## The loaded state -/

/-- A state that is loaded: the rounds lead to it, and the run is at their end. -/
structure Loads (s : Queue) (job : JobRow) (run : WorkflowRunRow) (cycleInputHash : Sha256)
    (state : PaperCycleState) : Prop where
  replays : s.Replays run.runId job cycleInputHash (.genesis run.runId cycleInputHash)
    (s.eventsOf run.runId) state
  version : run.version = (s.eventsOf run.runId).length + 1
  updated : ∀ last ∈ (s.eventsOf run.runId).getLast?, run.updatedAt = last.occurredAt

theorem loadState_eq_success :
    s.loadState job run cycleInputHash = .success state ↔ s.Loads job run cycleInputHash state := by
  simp only [loadState, Attempt.bind_eq_success, QueueCall.accepted_eq_success, Attempt.pure_eq,
    Attempt.success.injEq, foldlM_replayEvent_eq_success, exists_const]
  constructor
  · rintro ⟨replay, ⟨hreplays, -, hsequence⟩, hversion, hupdated, rfl⟩
    refine ⟨hreplays, ?_, hupdated⟩
    omega
  · intro h
    refine ⟨⟨state, headHash RunEventRow.link none (s.eventsOf run.runId),
      (s.eventsOf run.runId).length + 2⟩, ⟨h.replays, rfl, rfl⟩, ?_, h.updated, rfl⟩
    have hversion := h.version
    show run.version = (s.eventsOf run.runId).length + 2 - 1
    omega

theorem Loads.congr (h : s.Loads job run cycleInputHash state)
    (hevents : s'.eventsOf run.runId = s.eventsOf run.runId)
    (houtbox : KeepsOutbox s s' run.runId) (hid : job'.jobId = job.jobId) :
    s'.Loads job' run cycleInputHash state := by
  constructor
  · rw [hevents]
    exact h.replays.mono houtbox hid
  · rw [hevents]
    exact h.version
  · rw [hevents]
    exact h.updated

theorem loads_genesis (hevents : s.eventsOf run.runId = []) (hversion : run.version = 1) :
    s.Loads job run cycleInputHash (.genesis run.runId cycleInputHash) := by
  constructor
  · rw [hevents]
    exact .nil _
  · rw [hevents, hversion]
    rfl
  · rw [hevents]
    intro last hlast
    cases hlast

theorem Loads.previousHash_eq (_h : s.Loads job run cycleInputHash state) :
    s.previousHash run.runId = headHash RunEventRow.link none (s.eventsOf run.runId) := by
  unfold previousHash
  cases hlast : (s.eventsOf run.runId).getLast? with
  | none => rw [List.getLast?_eq_none_iff.mp hlast, Option.map_none, headHash_nil]
  | some last => exact (headHash_of_getLast RunEventRow.link none hlast).symm

/-- An event at the head of the run. -/
structure Extends (s s' : Queue) (run run' : WorkflowRunRow) (event : RunEventRow) : Prop where
  runId : run'.runId = run.runId
  version : run'.version = run.version + 1
  updated : run'.updatedAt = event.occurredAt
  owner : event.runId = run.runId
  events : s'.events = s.events ++ [event]
  valid : s'.ValidEvent run.runId event (run.version + 1) (s.previousHash run.runId)
  outbox : KeepsOutbox s s' run.runId

theorem Extends.eventsOf (h : Extends s s' run run' event)
    (hloads : s.Loads job run cycleInputHash state) :
    s'.eventsOf run.runId = s.eventsOf run.runId ++ [event] := by
  rw [← h.owner]
  refine eventsOf_concat h.events fun e he => ?_
  rw [h.owner] at he
  have hle : e.sequence ≤ 1 + (s.eventsOf run.runId).length :=
    hloads.replays.linked.sequence_le RunEventRow.link he
  have hsequence := h.valid.position
  have hversion := hloads.version
  omega

/-- An event at the head is one more round. -/
theorem Loads.extend (hloads : s.Loads job run cycleInputHash current)
    (h : Extends s s' run run' event) (hid : job'.jobId = job.jobId)
    (hadvances : Advances job cycleInputHash current event next) :
    s'.Loads job' run' cycleInputHash next := by
  have hevents := h.eventsOf hloads
  have hvalid := h.valid
  rw [hloads.previousHash_eq, hloads.version] at hvalid
  constructor
  · rw [h.runId, hevents]
    exact .snoc (hloads.replays.mono h.outbox hid) hvalid (hadvances.congr hid)
  · rw [h.runId, hevents, h.version, hloads.version, List.length_append, List.length_singleton]
  · rw [h.runId, hevents, List.getLast?_concat]
    intro last hlast
    rw [← Option.some.inj hlast]
    exact h.updated

/-! ## Entries -/

/-- A checkpoint that may follow is read back as it was written. -/
theorem checkpointState_of_payload {command : RunPaperCycle} {last : PaperCycleStageOutput}
    (hpayload : event.payload = (checkpointAudit job command state last.stage).payload)
    (hlast : state.outputs.getLast? = some last) :
    checkpointState event job command.cycleInputHash = .success state := by
  have hschema : event.payload.get "schema" = some (dump "paper-cycle-checkpoint/1.0.0") := by
    rw [hpayload]
    simp [checkpointAudit]
  have hjob : event.payload.get "job_id" = some (dump job.jobId) := by
    rw [hpayload]
    simp [checkpointAudit]
  have hinput : event.payload.get "cycle_input_hash" = some (dump command.cycleInputHash) := by
    rw [hpayload]
    simp [checkpointAudit]
  have hstage : event.payload.get "stage" = some (dump last.stage.value) := by
    rw [hpayload]
    simp [checkpointAudit]
  have hstate : event.payload.get "state" = some (dump state) := by
    rw [hpayload]
    simp [checkpointAudit]
  have hhash : event.payload.get "state_hash" = some (dump state.stateHash) := by
    rw [hpayload]
    simp [checkpointAudit]
  have hobject : ((some (dump state)).bind (·.entries?)).isSome = true := by
    rw [PaperCycleState.dump_eq]
    simp
  have hparsed : (some (dump state)).bind PaperCycleState.parse = some state := by
    rw [Option.bind_some, PaperCycleState.parse_dump]
  unfold checkpointState
  simp only [Attempt.bind_eq_success, QueueCall.accepted_eq_success,
    QueueCall.orRaised_eq_success, Attempt.pure_eq, Attempt.success.injEq, exists_const]
  refine ⟨⟨hschema, hjob, hinput, ?_, ?_, ?_⟩, state, ?_, ⟨hhash, last, hlast, hstage⟩, rfl⟩
  · rw [hhash]
    simp [dump]
  · rw [hstage]
    simp [dump]
  · rw [hstate]
    exact hobject
  · rw [hstate]
    exact hparsed

variable [JsonColumn] {audit : CycleAudit} {row : JobRow} {now : UTCDateTime}

/-- An entry is an event at the head of its run. -/
theorem extends_written (hplain : JsonColumn.KeepsPlain)
    (hentry : Entry run job audit row) (hcan : s.CanAppend run job audit) :
    Extends s (s.written run job audit row now) run (cycleRun run audit now)
      (s.storedCycleEvent run job audit now) := by
  have hsame : stored audit.payload = audit.payload := hplain _ hentry.plain
  have houtbox : (s.written run job audit row now).outboxOf run.runId (run.version + 1) =
      some (storedCycleOutbox run job audit now) := by
    have hnone : s.outboxOf run.runId (run.version + 1) = none := by
      refine List.find?_eq_none.mpr fun outbox houtbox hselected => ?_
      have hfields := of_decide_eq_true hselected
      refine hcan.outbox_sequence_fresh outbox houtbox ?_
      show (outbox.aggregateType, outbox.aggregateId, outbox.sequence) = _
      rw [hfields.1, hfields.2.1, hfields.2.2]
    unfold outboxOf at hnone ⊢
    show (s.outbox ++ [storedCycleOutbox run job audit now]).find? _ = _
    rw [List.find?_append, hnone]
    simp [storedCycleOutbox, cycleOutbox]
  have hvalid : (s.written run job audit row now).ValidEvent run.runId
      (s.storedCycleEvent run job audit now) (run.version + 1) (s.previousHash run.runId) := by
    refine ⟨rfl, rfl, ?_, storedCycleOutbox run job audit now, houtbox, rfl, rfl, rfl⟩
    show eventHash _ _ _ audit.payload = eventHash _ _ _ (stored audit.payload)
    rw [hsame]
    rfl
  exact ⟨rfl, rfl, rfl, rfl, rfl, hvalid, keepsOutbox_of_append rfl _⟩

end Queue

end

end StonksPaper
