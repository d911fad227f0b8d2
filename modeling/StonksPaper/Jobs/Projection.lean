import StonksPaper.Jobs.Workflow

/-!
# The event stream of a research run

`adapters/postgres/gui_research.py` stores no events. Every read computes them from the rows of the
run and of its job, and from the result that the job names.
-/

namespace StonksPaper

inductive PipelineStatus where
  | succeeded
  | degraded
  | failed
deriving DecidableEq, Repr

inductive KronosStatus where
  | succeeded
  | failed
deriving DecidableEq, Repr

def KronosStatus.value : KronosStatus → String
  | succeeded => "succeeded"
  | failed => "failed"

inductive AlphaStatus where
  | blocked
  | mapped
deriving DecidableEq, Repr

def AlphaStatus.value : AlphaStatus → String
  | blocked => "blocked"
  | mapped => "mapped"

structure KronosResearchOutcome where
  status : KronosStatus
  alphaStatus : AlphaStatus
deriving DecidableEq

structure ResearchWorkerResult where
  pipelineStatus : PipelineStatus
  kronos : Option KronosResearchOutcome
deriving DecidableEq

def ResearchWorkerResult.status (self : ResearchWorkerResult) : PipelineStatus :=
  if self.pipelineStatus = .failed then .failed
  else if self.pipelineStatus = .degraded ∨
      ∃ outcome ∈ self.kronos, outcome.status = .failed then .degraded
  else self.pipelineStatus

/-- The artifact store: the content under a digest, and what `model_validate_json` makes of it. -/
class ResearchArtifacts where
  read : Sha256 → QueueCall (Option ResearchWorkerResult)

structure CanonicalRunEvent where
  eventId : UUID
  runId : UUID
  sequence : ℕ
  eventType : String
  payload : Payload
  occurredAt : UTCDateTime
  eventHash : Sha256
deriving DecidableEq

/-- One of the `values` of `_project_events`. -/
structure ProjectedValue where
  eventType : String
  stage : String
  occurredAt : UTCDateTime
  extra : List Payload
deriving DecidableEq

/-- `job.attempts > 0 or job.status != "queued"`. -/
def JobRow.Started (self : JobRow) : Prop := 0 < self.attempts ∨ self.status ≠ .queued

instance (self : JobRow) : Decidable self.Started := inferInstanceAs (Decidable (_ ∨ _))

namespace Gui

def kronosEventPayload (result : Option ResearchWorkerResult) : List Payload :=
  (result.bind (·.kronos)).elim [] fun outcome =>
    [dump outcome.status.value, dump outcome.alphaStatus.value]

/-- The event type of a run that has succeeded, by the status of its result. -/
def terminalType : PipelineStatus → String
  | .succeeded => "research.succeeded"
  | .degraded => "research.degraded"
  | .failed => "research.failed"

/-- The last value of `_project_events`. -/
def terminalValue (run : WorkflowRunRow) (result : Option ResearchWorkerResult) :
    Option ProjectedValue :=
  match run.status with
  | .succeeded =>
      let status := result.elim .failed (·.status)
      some ⟨terminalType status, if status = .failed then "failed" else "report", run.updatedAt,
        kronosEventPayload result⟩
  | .failed => some ⟨"research.failed", "failed", run.updatedAt, []⟩
  | .cancelled => some ⟨"research.cancelled", "cancelled", run.updatedAt, []⟩
  | _ => none

/-- The `values` of `_project_events`. -/
def projectedValues (run : WorkflowRunRow) (job : JobRow) (result : Option ResearchWorkerResult) :
    List ProjectedValue :=
  [⟨"research.queued", "queued", run.createdAt, []⟩] ++
    (if job.Started then [⟨"research.running", "research", job.updatedAt, []⟩] else []) ++
    (terminalValue run result).toList

section

variable [Hashing]

def event (runId : UUID) (sequence : ℕ) (value : ProjectedValue) : CanonicalRunEvent :=
  let eventId := uuid5 (.record "stonks:gui-research"
    [dump runId, dump sequence, dump value.eventType])
  let payload := Payload.record "payload" (dump value.stage :: value.extra)
  { eventId := eventId
    runId := runId
    sequence := sequence
    eventType := value.eventType
    payload := payload
    occurredAt := value.occurredAt
    eventHash := stablePayloadHash (.record "event" [dump eventId, dump runId, dump sequence,
      dump value.eventType, payload, dump value.occurredAt]) }

def projectEvents (run : WorkflowRunRow) (job : JobRow) (result : Option ResearchWorkerResult) :
    List CanonicalRunEvent :=
  ((projectedValues run job result).zipIdx 1).map fun value => event run.runId value.2 value.1

end

end Gui

namespace Queue

variable (s : Queue)

/-- `_run_state`: a research run of the principal, and its only job. -/
def runState (principal : String) (runId : UUID) : QueueCall (WorkflowRunRow × JobRow) :=
  match s.run runId, s.jobs.filter (·.runId = runId) with
  | some run, [job] => do
      .accepted (run.ownerSubject = principal ∧ run.runType = "research_report" ∧
        job.jobType = "research_pipeline") .forbidden
        "Research run is outside the local principal scope"
      return (run, job)
  | _, _ => .refused .notFound "Research run was not found"

def researchResult [ResearchArtifacts] (job : JobRow) : QueueCall (Option ResearchWorkerResult) :=
  match job.resultArtifactHash with
  | none => return none
  | some contentHash => do
      let content ← ResearchArtifacts.read contentHash
      let result ← .orRefused .conflict "Research result artifact is invalid" content
      return some result

variable [Hashing] [ResearchArtifacts]

/-- The events that `PostgresGuiResearchFacade.events` answers from. -/
def eventStream (principal : String) (runId : UUID) : QueueCall (List CanonicalRunEvent) := do
  let (run, job) ← s.runState principal runId
  let result ← researchResult job
  .accepted (¬ (run.status = .succeeded ∧ result = none)) .conflict
    "Research terminal artifact is unavailable"
  return Gui.projectEvents run job result

/-- `PostgresGuiResearchFacade.events`. -/
def researchEvents (principal : String) (runId : UUID) (afterSequence limit : ℕ) :
    QueueCall (List CanonicalRunEvent) := do
  let projected ← s.eventStream principal runId
  return (projected.filter (afterSequence < ·.sequence)).take limit

end Queue

/-! ## What two reads show -/

/-- How a run that is over has ended, by its status and by its result. -/
inductive Ending where
  | finished (status : PipelineStatus) (kronos : Option KronosResearchOutcome)
  | cancelled
deriving DecidableEq

def WorkflowRunRow.ending (self : WorkflowRunRow) (result : Option ResearchWorkerResult) :
    Option Ending :=
  match self.status with
  | .succeeded => some (.finished (result.elim .failed (·.status)) (result.bind (·.kronos)))
  | .failed => some (.finished .failed none)
  | .cancelled => some .cancelled
  | _ => none

namespace Gui

/-- The value that shows an ending. -/
def endingValue (occurredAt : UTCDateTime) : Ending → ProjectedValue
  | .finished status kronos =>
      ⟨terminalType status, if status = .failed then "failed" else "report", occurredAt,
        kronos.elim [] fun outcome => [dump outcome.status.value, dump outcome.alphaStatus.value]⟩
  | .cancelled => ⟨"research.cancelled", "cancelled", occurredAt, []⟩

theorem terminalValue_eq (run : WorkflowRunRow) (result : Option ResearchWorkerResult) :
    terminalValue run result = (run.ending result).map (endingValue run.updatedAt) := by
  unfold terminalValue WorkflowRunRow.ending
  cases run.status with
  | succeeded => rfl
  | failed => rfl
  | cancelled => rfl
  | pending => rfl
  | running => rfl
  | degraded => rfl

theorem kronos_inj {x y : Option KronosResearchOutcome}
    (h : (x.elim [] fun outcome => [dump outcome.status.value, dump outcome.alphaStatus.value]) =
      y.elim [] fun outcome => [dump outcome.status.value, dump outcome.alphaStatus.value]) :
    x = y := by
  cases x with
  | none =>
      cases y with
      | none => rfl
      | some outcome => simp at h
  | some outcome =>
      cases y with
      | none => simp at h
      | some other =>
          obtain ⟨status, alpha⟩ := outcome
          obtain ⟨status', alpha'⟩ := other
          simp only [Option.elim_some, List.cons.injEq, dump_string_inj, and_true] at h
          have hstatus : status = status' := by
            cases status <;> cases status' <;> simp_all [KronosStatus.value]
          have halpha : alpha = alpha' := by
            cases alpha <;> cases alpha' <;> simp_all [AlphaStatus.value]
          rw [hstatus, halpha]

/-- The value tells how the run ended, and when. -/
theorem endingValue_inj {at₁ at₂ : UTCDateTime} {x y : Ending} :
    endingValue at₁ x = endingValue at₂ y ↔ x = y ∧ at₁ = at₂ := by
  constructor
  · intro h
    have htype := congrArg ProjectedValue.eventType h
    have hextra := congrArg ProjectedValue.extra h
    have htime := congrArg ProjectedValue.occurredAt h
    cases x with
    | cancelled =>
        cases y with
        | cancelled => exact ⟨rfl, htime⟩
        | finished status kronos => cases status <;> simp [endingValue, terminalType] at htype
    | finished status kronos =>
        cases y with
        | cancelled => cases status <;> simp [endingValue, terminalType] at htype
        | finished status' kronos' =>
            have hstatus : status = status' := by
              cases status <;> cases status' <;> simp_all [endingValue, terminalType]
            exact ⟨by rw [hstatus, kronos_inj hextra], htime⟩
  · rintro ⟨rfl, rfl⟩
    rfl

theorem endingValue_ne_running (occurredAt started : UTCDateTime) (x : Ending) :
    endingValue occurredAt x ≠ ⟨"research.running", "research", started, []⟩ := by
  intro h
  have htype := congrArg ProjectedValue.eventType h
  cases x with
  | cancelled => simp [endingValue] at htype
  | finished status kronos => cases status <;> simp [endingValue, terminalType] at htype

/-- What a later read has to find so that it shows again what an earlier one has shown. -/
structure ShowsAgain (run : WorkflowRunRow) (job : JobRow) (result : Option ResearchWorkerResult)
    (run' : WorkflowRunRow) (job' : JobRow) (result' : Option ResearchWorkerResult) : Prop where
  started : job.Started → job'.updatedAt = job.updatedAt
  ended : run.ending result ≠ none →
    run'.ending result' = run.ending result ∧ run'.updatedAt = run.updatedAt ∧
      (job'.Started → job.Started)

instance (run : WorkflowRunRow) (job : JobRow) (result : Option ResearchWorkerResult)
    (run' : WorkflowRunRow) (job' : JobRow) (result' : Option ResearchWorkerResult) :
    Decidable (ShowsAgain run job result run' job' result') :=
  decidable_of_iff _ ⟨fun h => ⟨h.1, h.2⟩, fun h => And.intro h.started h.ended⟩

variable {run run' : WorkflowRunRow} {job job' : JobRow}
  {result result' : Option ResearchWorkerResult}

theorem projectedValues_prefix_iff (hcreated : run'.createdAt = run.createdAt)
    (hstarted : job.Started → job'.Started) :
    projectedValues run job result <+: projectedValues run' job' result' ↔
      ShowsAgain run job result run' job' result' := by
  unfold projectedValues
  rw [terminalValue_eq, terminalValue_eq, hcreated, List.append_assoc, List.append_assoc,
    List.prefix_append_right_inj]
  by_cases hbefore : job.Started
  · -- both reads show the start
    have hafter := hstarted hbefore
    rw [if_pos hbefore, if_pos hafter, List.singleton_append, List.singleton_append,
      List.cons_prefix_cons]
    constructor
    · rintro ⟨hrunning, hending⟩
      have htime := congrArg ProjectedValue.occurredAt hrunning
      refine ⟨fun _ => htime.symm, fun hover => ?_⟩
      obtain ⟨x, hx⟩ := Option.ne_none_iff_exists'.mp hover
      rw [hx, Option.map_some, Option.toList_some] at hending
      cases hy : run'.ending result' with
      | none =>
          rw [hy] at hending
          simp at hending
      | some y =>
          rw [hy, Option.map_some, Option.toList_some, List.cons_prefix_cons] at hending
          obtain ⟨hsame, hat⟩ := endingValue_inj.mp hending.1
          exact ⟨by rw [hx, hsame], hat.symm, fun _ => hbefore⟩
    · intro h
      refine ⟨by rw [h.started hbefore], ?_⟩
      cases hx : run.ending result with
      | none => exact List.nil_prefix
      | some x =>
          obtain ⟨hsame, hat, -⟩ := h.ended (by rw [hx]; exact Option.some_ne_none x)
          have hlast : (run'.ending result').map (endingValue run'.updatedAt) =
              (run.ending result).map (endingValue run.updatedAt) := by rw [hsame, hat]
          exact ⟨[], by rw [hlast, hx, List.append_nil]⟩
  · -- the earlier read does not show it
    rw [if_neg hbefore, List.nil_append]
    constructor
    · intro h
      refine ⟨fun hstart => absurd hstart hbefore, fun hover => ?_⟩
      obtain ⟨x, hx⟩ := Option.ne_none_iff_exists'.mp hover
      rw [hx, Option.map_some, Option.toList_some] at h
      by_cases hafter : job'.Started
      · rw [if_pos hafter, List.singleton_append, List.cons_prefix_cons] at h
        exact absurd h.1 (endingValue_ne_running _ _ x)
      · rw [if_neg hafter, List.nil_append] at h
        cases hy : run'.ending result' with
        | none =>
            rw [hy] at h
            simp at h
        | some y =>
            rw [hy, Option.map_some, Option.toList_some, List.cons_prefix_cons] at h
            obtain ⟨hsame, hat⟩ := endingValue_inj.mp h.1
            exact ⟨by rw [hx, hsame], hat.symm, fun hstart => absurd hstart hafter⟩
    · intro h
      cases hx : run.ending result with
      | none => exact List.nil_prefix
      | some x =>
          obtain ⟨hsame, hat, hlate⟩ := h.ended (by rw [hx]; exact Option.some_ne_none x)
          have hlast : (run'.ending result').map (endingValue run'.updatedAt) =
              (run.ending result).map (endingValue run.updatedAt) := by rw [hsame, hat]
          rw [if_neg fun hstart => hbefore (hlate hstart), hlast, hx]
          exact ⟨[], List.append_nil _⟩

theorem map_zipIdx_prefix_iff {α β : Type} {f : α × ℕ → β}
    (hf : ∀ n a b, f (a, n) = f (b, n) → a = b) {xs ys : List α} {n : ℕ} :
    (xs.zipIdx n).map f <+: (ys.zipIdx n).map f ↔ xs <+: ys := by
  induction xs generalizing ys n with
  | nil => simp
  | cons x xs ih =>
      cases ys with
      | nil => simp
      | cons y ys =>
          rw [List.zipIdx_cons, List.zipIdx_cons, List.map_cons, List.map_cons,
            List.cons_prefix_cons, List.cons_prefix_cons, ih]
          exact and_congr_left fun _ => ⟨hf n x y, congrArg fun a => f (a, n)⟩

variable [Hashing]

theorem event_inj {runId : UUID} {sequence : ℕ} {x y : ProjectedValue}
    (h : event runId sequence x = event runId sequence y) : x = y := by
  have htype : x.eventType = y.eventType := congrArg CanonicalRunEvent.eventType h
  have htime : x.occurredAt = y.occurredAt := congrArg CanonicalRunEvent.occurredAt h
  have hpayload := congrArg CanonicalRunEvent.payload h
  simp only [event, Payload.record_inj, List.cons.injEq, dump_string_inj, true_and] at hpayload
  obtain ⟨type, stage, occurredAt, extra⟩ := x
  obtain ⟨type', stage', occurredAt', extra'⟩ := y
  obtain ⟨rfl, rfl⟩ := hpayload
  obtain rfl : type = type' := htype
  obtain rfl : occurredAt = occurredAt' := htime
  rfl

theorem projectEvents_prefix_iff (hid : run'.runId = run.runId)
    (hcreated : run'.createdAt = run.createdAt) (hstarted : job.Started → job'.Started) :
    projectEvents run job result <+: projectEvents run' job' result' ↔
      ShowsAgain run job result run' job' result' := by
  unfold projectEvents
  rw [hid, map_zipIdx_prefix_iff fun n a b h => event_inj h]
  exact projectedValues_prefix_iff hcreated hstarted

end Gui

end StonksPaper
