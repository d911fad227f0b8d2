import StonksPaper.Base.Run
import StonksPaper.Base.Table
import StonksPaper.Domain.Strategy

/-!
# The strategy registry

`strategy_repository.py`, and the constraints and triggers of its tables. A strategy is a row that
a transition updates with a compare-and-set; each mutation appends one event to the strategy's hash
chain. Evaluation reports are stored once and never changed.
-/

namespace StonksPaper

open Chain

/-! ## Rows -/

/-- A row of `strategy_registry`; the columns of the manifest are its record. -/
structure StrategyRegistryRow where
  manifest : StrategyManifest
  manifestHash : Sha256
  state : PromotionState
  evaluationReportId : Option UUID
  evaluationHash : Option Sha256
  version : ℕ
  createdAt : UTCDateTime
  updatedAt : UTCDateTime
deriving DecidableEq

structure StrategyEvaluationReportRow where
  reportId : UUID
  strategyId : String
  strategyVersion : String
  strategyManifestHash : Sha256
  datasetSnapshotId : UUID
  dataHash : Sha256
  runtimeHash : Sha256
  evaluationPolicyHash : Sha256
  evaluationHash : Sha256
  reportArtifactHash : Sha256
  passed : Bool
  calibration : ConfidenceCalibration
  validUntil : UTCDateTime
  payload : EvaluationReport
  createdAt : UTCDateTime
deriving DecidableEq

structure DatasetSnapshotRow where
  snapshotId : UUID
  contentHash : Sha256
  asOf : UTCDateTime
  cutoffAt : UTCDateTime
deriving DecidableEq

structure StrategyRegistry where
  artifacts : List Sha256
  snapshots : List DatasetSnapshotRow
  strategies : List StrategyRegistryRow
  reports : List StrategyEvaluationReportRow
  events : List StrategyAuditEvent

def StrategyRegistry.migrated : StrategyRegistry := ⟨[], [], [], [], []⟩

/-- Whether a report that was dumped into its JSON column validates again: a metric such as `1E+64`
is written with more digits than are read. -/
class ReportColumn where
  readable : EvaluationReport → Bool

namespace StrategyRegistryRow

def key (self : StrategyRegistryRow) : StrategyKey := self.manifest.key

/-- `_entry_from_row`, without its validators. -/
def entry (self : StrategyRegistryRow) : StrategyRegistryEntry where
  manifest := self.manifest
  state := self.state
  evaluationReportId := self.evaluationReportId
  evaluationHash := self.evaluationHash
  version := self.version
  createdAt := self.createdAt
  updatedAt := self.updatedAt

def entryFromRow (self : StrategyRegistryRow) : Call StrategyRegistryEntry := do
  self.entry.validate
  return self.entry

end StrategyRegistryRow

def StrategyEvaluationReportRow.evaluationFromRow [ReportColumn]
    (self : StrategyEvaluationReportRow) : Call EvaluationReport := do
  raiseUnless (ReportColumn.readable self.payload = true) "stored evaluation report is invalid"
  return self.payload

/-- `_evaluation_matches_registry`. -/
def EvaluationReport.MatchesRegistry (self : EvaluationReport) (registry : StrategyRegistryRow) :
    Prop :=
  self.strategyId = registry.manifest.strategyId ∧
  self.strategyVersion = registry.manifest.strategyVersion ∧
  self.strategyManifestHash = registry.manifestHash ∧
  self.runtimeHash = registry.manifest.runtimeHash

instance (report : EvaluationReport) (registry : StrategyRegistryRow) :
    Decidable (report.MatchesRegistry registry) := inferInstanceAs (Decidable (_ ∧ _))

/-- `_evaluation_allows_target`. -/
def EvaluationReport.AllowsTarget (self : EvaluationReport) (target : PromotionState)
    (occurredAt : UTCDateTime) : Prop :=
  match target with
  | .shadow | .paperEligible => self.passed = true ∧ occurredAt < self.validUntil
  | .rejected => self.passed = false
  | _ => True

instance EvaluationReport.decidableAllowsTarget (self : EvaluationReport)
    (target : PromotionState) (occurredAt : UTCDateTime) :
    Decidable (self.AllowsTarget target occurredAt) := by
  unfold EvaluationReport.AllowsTarget
  split <;> exact inferInstance

/-- `except IntegrityError: rollback(); return _failure(CONFLICT, message)`. -/
def flushed {α : Type} (message : String) : Call α → Call α :=
  Attempt.absorb fun
    | .databaseError _ => some { code := .conflict, message := message }
    | _ => none

@[simp] theorem flushed_eq_success {α : Type} {m : String} {x : Call α} {a : α} :
    flushed m x = .success a ↔ x = .success a := Attempt.absorb_eq_success

section

variable [Hashing]

/-- `_registry_row`, as the trigger of the table stamps it. -/
def StrategyManifest.registryRow (self : StrategyManifest) (now : UTCDateTime) :
    StrategyRegistryRow where
  manifest := self
  manifestHash := self.manifestHash
  state := .draft
  evaluationReportId := none
  evaluationHash := none
  version := 1
  createdAt := now
  updatedAt := now

/-- `_evaluation_row`. -/
def EvaluationReport.row (self : EvaluationReport) : StrategyEvaluationReportRow where
  reportId := self.reportId
  strategyId := self.strategyId
  strategyVersion := self.strategyVersion
  strategyManifestHash := self.strategyManifestHash
  datasetSnapshotId := self.datasetSnapshotId
  dataHash := self.dataHash
  runtimeHash := self.runtimeHash
  evaluationPolicyHash := self.evaluationPolicyHash
  evaluationHash := self.evaluationHash
  reportArtifactHash := self.reportArtifactRef
  passed := self.passed
  calibration := self.calibration
  validUntil := self.validUntil
  payload := self
  createdAt := self.createdAt

namespace StrategyMutation

def eventId (self : StrategyMutation) : UUID :=
  uuid5 (dump (stablePayloadHash (.record "event" self.identity)))

/-- The event that `_new_event` builds. -/
def event (self : StrategyMutation) : StrategyAuditEvent where
  toStrategyMutation := self
  eventId := self.eventId
  eventHash := stablePayloadHash (.record "event" (self.identity ++ [dump self.eventId]))

def newEvent (self : StrategyMutation) : Call StrategyAuditEvent := do
  self.event.validate
  return self.event

end StrategyMutation

namespace StrategyRegistry

variable (s : StrategyRegistry)

/-! ## Reading -/

def strategy (key : StrategyKey) : Option StrategyRegistryRow := Table.get (·.key) s.strategies key

def report (reportId : UUID) : Option StrategyEvaluationReportRow :=
  Table.get (·.reportId) s.reports reportId

def snapshot (snapshotId : UUID) : Option DatasetSnapshotRow :=
  Table.get (·.snapshotId) s.snapshots snapshotId

def eventsOf (key : StrategyKey) : List StrategyAuditEvent :=
  sorted (·.sequence) (s.events.filter (·.key = key))

def listEvents (key : StrategyKey) : Call (List StrategyAuditEvent) := do
  failUnless (s.eventsOf key ≠ []) .notFound "Strategy audit events were not found"
  failUnless (Linked StrategyAuditEvent.link 0 none (s.eventsOf key) ∧
    ∀ event ∈ s.eventsOf key, event.eventHash = event.calculateEventHash) .conflict
      "Strategy audit chain is invalid"
  return s.eventsOf key

/-- The latest event is the one that the row shows. -/
def ProjectedBy (row : StrategyRegistryRow) (latest : StrategyAuditEvent) : Prop :=
  latest.sequence = row.version ∧ latest.toState = row.state ∧
    latest.evaluationReportId = row.evaluationReportId ∧ latest.evaluationHash = row.evaluationHash

instance (row : StrategyRegistryRow) (latest : StrategyAuditEvent) :
    Decidable (ProjectedBy row latest) := inferInstanceAs (Decidable (_ ∧ _))

def validateCurrentAudit (registry : StrategyRegistryRow) : Call StrategyAuditEvent :=
  match s.listEvents registry.key with
  | .success events => do
      let latest ← orFail .conflict "Strategy audit is unavailable" events.getLast?
      failUnless (ProjectedBy registry latest) .conflict "Strategy audit projection mismatch"
      return latest
  | .failure _ => fail .conflict "Strategy audit is unavailable"
  | .raised e => .raised e

/-! ## Statements -/

/-- The insertion of a strategy. -/
def insertStrategy (row : StrategyRegistryRow) : Call StrategyRegistry := do
  guardUnless (Table.Fresh (·.key) row.key s.strategies ∧
    Table.Fresh (·.manifest.manifestId) row.manifest.manifestId s.strategies ∧
    Table.Fresh (·.manifestHash) row.manifestHash s.strategies ∧
    row.manifest.sourceArtifactRef ∈ s.artifacts) "strategy_registry constraints"
  return { s with strategies := s.strategies ++ [row] }

def insertReport (row : StrategyEvaluationReportRow) : Call StrategyRegistry := do
  guardUnless (Table.Fresh (·.reportId) row.reportId s.reports ∧
    Table.Fresh (·.evaluationHash) row.evaluationHash s.reports ∧
    s.strategy (row.strategyId, row.strategyVersion) ≠ none ∧
    s.snapshot row.datasetSnapshotId ≠ none ∧ row.reportArtifactHash ∈ s.artifacts)
      "strategy_evaluation_report constraints"
  return { s with reports := s.reports ++ [row] }

/-- `validate_strategy_audit_chain`. -/
def ChainAllows (event : StrategyAuditEvent) : Prop :=
  match (s.eventsOf event.key).getLast? with
  | none => event.sequence = 1 ∧ event.previousHash = none
  | some prior =>
      event.sequence = prior.sequence + 1 ∧ event.sequence ≠ 1 ∧
        event.previousHash = some prior.eventHash

instance (event : StrategyAuditEvent) : Decidable (s.ChainAllows event) := by
  unfold ChainAllows
  split <;> exact inferInstance

def insertEvent (event : StrategyAuditEvent) : Call StrategyRegistry := do
  guardUnless (Table.Fresh (·.eventId) event.eventId s.events ∧
    Table.Fresh (·.eventHash) event.eventHash s.events ∧ s.strategy event.key ≠ none ∧
    s.ChainAllows event) "strategy_audit_event constraints"
  return { s with events := s.events ++ [event] }

/-- `require_strategy_audit_event`, which the commit checks for each row that was mutated. -/
def HasAudit (expectedFrom : Option PromotionState) (row : StrategyRegistryRow) : Prop :=
  ∃ event ∈ s.events, event.key = row.key ∧ event.sequence = row.version ∧
    event.fromState = expectedFrom ∧ event.toState = row.state ∧
    event.evaluationReportId = row.evaluationReportId ∧
    event.evaluationHash = row.evaluationHash ∧ event.occurredAt = row.updatedAt

instance (expectedFrom : Option PromotionState) (row : StrategyRegistryRow) :
    Decidable (s.HasAudit expectedFrom row) := inferInstanceAs (Decidable (∃ _ ∈ _, _))

/-! ## Registrations -/

/-- The event of a registration. -/
def registered (row : StrategyRegistryRow) : StrategyMutation where
  strategyId := row.manifest.strategyId
  strategyVersion := row.manifest.strategyVersion
  sequence := 1
  eventType := "strategy.registered"
  fromState := none
  toState := .draft
  reasonCode := "strategy_registered"
  actor := "system:registry"
  evaluationReportId := none
  evaluationHash := none
  occurredAt := row.updatedAt
  previousHash := none

/-- A registration at the time `now` of the database. -/
def register (manifest : StrategyManifest) (now : UTCDateTime) :
    Call (StrategyMutationResult × StrategyRegistry) := do
  manifest.validate
  match s.strategy manifest.key with
  | some existing => do
      failUnless (existing.manifest = manifest) .conflict "Strategy identity already exists"
      let events ← s.listEvents manifest.key
      let event ← orFail .conflict "Strategy audit is unavailable" events.head?
      let entry ← existing.entryFromRow
      return (⟨entry, event⟩, s)
  | none => do
      let row := manifest.registryRow now
      let posted ← flushed "Strategy registration conflicted" (s.insertStrategy row)
      let event ← (registered row).newEvent
      let posted ← flushed "Strategy registration conflicted" (posted.insertEvent event)
      let entry ← row.entryFromRow
      guardUnless (posted.HasAudit none row) "trg_strategy_mutation_has_audit"
      return (⟨entry, event⟩, posted)

variable [ReportColumn]

def registerEvaluation (report : EvaluationReport) :
    Call (EvaluationReport × StrategyRegistry) := do
  report.validate
  let registry ← orFail .notFound "Strategy was not found"
    (s.strategy (report.strategyId, report.strategyVersion))
  let _ ← s.validateCurrentAudit registry
  failUnless (report.MatchesRegistry registry) .conflict "Evaluation strategy binding mismatch"
  let snapshot ← orFail .notFound "Evaluation snapshot was not found"
    (s.snapshot report.datasetSnapshotId)
  failUnless (snapshot.contentHash = report.dataHash ∧ snapshot.asOf ≤ report.asOf ∧
    snapshot.cutoffAt ≤ report.asOf) .conflict "Evaluation snapshot binding mismatch"
  match s.report report.reportId with
  | some existing => do
      let persisted ← existing.evaluationFromRow
      failUnless (persisted = report ∧ existing.evaluationHash = report.evaluationHash) .conflict
        "Evaluation report id already exists"
      return (persisted, s)
  | none => do
      failUnless (Table.Fresh (·.evaluationHash) report.evaluationHash s.reports) .conflict
        "Evaluation hash already exists"
      let posted ← flushed "Evaluation registration conflicted" (s.insertReport report.row)
      return (report, posted)

/-! ## Transitions -/

/-- The readings of the database clock in a transition: for its own check, in the trigger's check,
and for the row. -/
structure TransitionClock where
  validationAt : UTCDateTime
  checkedAt : UTCDateTime
  updatedAt : UTCDateTime

def resolveTransitionEvaluation (request : StrategyTransitionRequest)
    (registry : StrategyRegistryRow) : Call (Option EvaluationReport) :=
  match request.evaluationReportId with
  | none => return none
  | some reportId => do
      let row ← orFail .notFound "Evaluation report was not found" (s.report reportId)
      let report ← row.evaluationFromRow
      failUnless (request.evaluationHash = some row.evaluationHash ∧
        report.MatchesRegistry registry) .conflict "Evaluation report binding mismatch"
      return some report

/-- The row that `_apply_transition_update` writes. -/
def transitioned (current : StrategyRegistryRow) (request : StrategyTransitionRequest)
    (reportId : Option UUID) (evaluationHash : Option Sha256) (updatedAt : UTCDateTime) :
    StrategyRegistryRow :=
  { current with
    state := request.targetState
    evaluationReportId := reportId
    evaluationHash := evaluationHash
    version := request.expectedVersion + 1
    updatedAt := updatedAt }

def EvaluatedState : PromotionState → Prop
  | .draft | .evaluating => False
  | _ => True

instance : (state : PromotionState) → Decidable (EvaluatedState state)
  | .draft | .evaluating => isFalse not_false
  | .rejected | .shadow | .paperEligible | .suspended | .retired => isTrue trivial

/-- The report that a row names, as the trigger checks it. -/
def ReportAllows (checkedAt : UTCDateTime) (row : StrategyRegistryRow) (reportId : UUID) : Prop :=
  ∃ stored ∈ s.report reportId, row.evaluationHash = some stored.evaluationHash ∧
    (stored.strategyId, stored.strategyVersion) = row.key ∧
    stored.strategyManifestHash = row.manifestHash ∧
    stored.runtimeHash = row.manifest.runtimeHash ∧
    (row.state = .shadow ∨ row.state = .paperEligible →
      stored.passed = true ∧ checkedAt < stored.validUntil)

instance (checkedAt : UTCDateTime) (row : StrategyRegistryRow) (reportId : UUID) :
    Decidable (s.ReportAllows checkedAt row reportId) := by
  unfold ReportAllows
  exact inferInstance

/-- `validate_strategy_registry_mutation`, for an update. -/
def UpdateAllowed (checkedAt : UTCDateTime) (old new : StrategyRegistryRow) : Prop :=
  new.version = old.version + 1 ∧ old.state.canTransition new.state ∧
    (new.evaluationReportId = none ↔ new.evaluationHash = none) ∧
    (EvaluatedState new.state → new.evaluationReportId ≠ none) ∧
    ∀ reportId ∈ new.evaluationReportId, s.ReportAllows checkedAt new reportId

instance (checkedAt : UTCDateTime) (old new : StrategyRegistryRow) :
    Decidable (s.UpdateAllowed checkedAt old new) := inferInstanceAs (Decidable (_ ∧ _))

def applyTransitionUpdate (current : StrategyRegistryRow) (request : StrategyTransitionRequest)
    (reportId : Option UUID) (evaluationHash : Option Sha256) (clock : TransitionClock) :
    Call (StrategyRegistryRow × StrategyRegistry) := do
  failUnless (current.version = request.expectedVersion ∧ current.state = request.currentState)
    .conflict "Strategy version changed concurrently"
  let row := transitioned current request reportId evaluationHash clock.updatedAt
  guardUnless (s.UpdateAllowed clock.checkedAt current row) "validate_strategy_registry_mutation"
  return (row, { s with
    strategies := Table.update (·.key = current.key) (fun _ => row) s.strategies })

/-- The event of a transition. -/
def promoted (request : StrategyTransitionRequest) (row : StrategyRegistryRow)
    (previous : StrategyAuditEvent) : StrategyMutation where
  strategyId := request.strategyId
  strategyVersion := request.strategyVersion
  sequence := request.expectedVersion + 1
  eventType := "strategy." ++ request.targetState.value
  fromState := some request.currentState
  toState := request.targetState
  reasonCode := request.reasonCode
  actor := request.actor
  evaluationReportId := row.evaluationReportId
  evaluationHash := row.evaluationHash
  occurredAt := row.updatedAt
  previousHash := some previous.eventHash

/-- `_append_transition_event`, and the commit. -/
def appendTransitionEvent (request : StrategyTransitionRequest) (row : StrategyRegistryRow) :
    Call (StrategyMutationResult × StrategyRegistry) := do
  let previous ← orFail .conflict "Strategy audit chain is inconsistent"
    (s.eventsOf request.key).getLast?
  failUnless (previous.sequence = request.expectedVersion) .conflict
    "Strategy audit chain is inconsistent"
  let event ← (promoted request row previous).newEvent
  let posted ← flushed "Strategy audit append conflicted" (s.insertEvent event)
  let entry ← row.entryFromRow
  guardUnless (posted.HasAudit (some request.currentState) row) "trg_strategy_mutation_has_audit"
  return (⟨entry, event⟩, posted)

def transition (request : StrategyTransitionRequest) (clock : TransitionClock) :
    Call (StrategyMutationResult × StrategyRegistry) := do
  request.validate
  let current ← orFail .notFound "Strategy was not found" (s.strategy request.key)
  let _ ← s.validateCurrentAudit current
  failUnless (current.version = request.expectedVersion ∧ current.state = request.currentState ∧
    request.currentState.canTransition request.targetState) .conflict
      "Strategy CAS precondition failed"
  let report ← s.resolveTransitionEvaluation request current
  failUnless (∀ r ∈ report, r.AllowsTarget request.targetState clock.validationAt) .conflict
    "Evaluation does not allow promotion"
  let reportId := report.elim current.evaluationReportId (some ·.reportId)
  let evaluationHash := report.elim current.evaluationHash (some ·.evaluationHash)
  let (row, posted) ← s.applyTransitionUpdate current request reportId evaluationHash clock
  posted.appendTransitionEvent request row

/-! ## Runs -/

inductive Command where
  | register (manifest : StrategyManifest) (now : UTCDateTime)
  | registerEvaluation (report : EvaluationReport)
  | transition (request : StrategyTransitionRequest) (clock : TransitionClock)
  /-- Other parts of the program store an artifact or a dataset snapshot. -/
  | addArtifact (contentHash : Sha256)
  | addSnapshot (snapshot : DatasetSnapshotRow)

/-- What the transaction of a command leaves. -/
def outcome (s : StrategyRegistry) : Command → Call StrategyRegistry
  | .register manifest now => do
      let registered ← s.register manifest now
      return registered.2
  | .registerEvaluation report => do
      let registered ← s.registerEvaluation report
      return registered.2
  | .transition request clock => do
      let mutated ← s.transition request clock
      return mutated.2
  | .addArtifact contentHash => return { s with artifacts := s.artifacts ++ [contentHash] }
  | .addSnapshot snapshot => do
      guardUnless (Table.Fresh (·.snapshotId) snapshot.snapshotId s.snapshots)
        "dataset_snapshot_pkey"
      return { s with snapshots := s.snapshots ++ [snapshot] }

def step (s : StrategyRegistry) (command : Command) : StrategyRegistry :=
  ((s.outcome command).toOption).getD s

def reached (commands : List Command) : StrategyRegistry := Run.run step migrated commands

end StrategyRegistry

end

end StonksPaper
