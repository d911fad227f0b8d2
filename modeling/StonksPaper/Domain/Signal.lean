import StonksPaper.Domain.Risk

/-!
# Signals and their eligibility

`strategy.py`, `evaluation.py`, `signal.py` and the candidates of `portfolio_construction.py`. A
signal counts when the registered strategy and a passed evaluation are bound to it by their hashes.
-/

namespace StonksPaper

open Chain

abbrev ArtifactRef := Sha256

/-- `^[0-9]+\.[0-9]+\.[0-9]+$`. -/
def isVersion (text : String) : Bool :=
  let parts := text.toList.splitOn '.'
  parts.length == 3 && parts.all fun part =>
    !part.isEmpty && part.all fun c => '0' ≤ c && c ≤ '9'

def checkCode (text : String) : Call Unit :=
  raiseUnless (isCheckCode text = true) "String should match the code pattern"

def versionText (text : String) : Call Unit :=
  raiseUnless (isVersion text = true) "String should match the version pattern"

/-! ## Strategies -/

inductive StrategyKind where
  | deterministic
  | forecastMapper
  | opinionMapper
  | quantModel
deriving DecidableEq, Repr

inductive PromotionState where
  | draft
  | evaluating
  | rejected
  | shadow
  | paperEligible
  | suspended
  | retired
deriving DecidableEq, Repr

instance : Dump StrategyKind := ⟨fun k => .int (k.ctorIdx : ℕ)⟩

structure StrategyManifest where
  manifestId : UUID
  strategyId : String
  strategyVersion : String
  kind : StrategyKind
  sourceArtifactRef : ArtifactRef
  runtimeHash : Sha256
  featureSpecHash : Sha256
  labelSpecHash : Sha256
  universeSpecHash : Sha256
  costModelHash : Sha256
  splitPolicyHash : Sha256
  parametersHash : Sha256
  owner : String
  deterministic : Bool
  createdAt : UTCDateTime
deriving DecidableEq

def StrategyManifest.validate (self : StrategyManifest) : Call Unit := do
  checkCode self.strategyId
  versionText self.strategyVersion
  checkCode self.owner

def StrategyManifest.manifestHash [Hashing] (self : StrategyManifest) : Sha256 :=
  stablePayloadHash <| .record "StrategyManifest"
    [dump self.strategyId, dump self.strategyVersion, dump self.kind, dump self.sourceArtifactRef,
      dump self.runtimeHash, dump self.featureSpecHash, dump self.labelSpecHash,
      dump self.universeSpecHash, dump self.costModelHash, dump self.splitPolicyHash,
      dump self.parametersHash, dump self.owner, dump self.deterministic]

structure StrategyRegistryEntry where
  manifest : StrategyManifest
  state : PromotionState
  evaluationReportId : Option UUID
  evaluationHash : Option Sha256
  version : ℕ
  createdAt : UTCDateTime
  updatedAt : UTCDateTime
deriving DecidableEq

def StrategyRegistryEntry.validate (self : StrategyRegistryEntry) : Call Unit := do
  atLeast 1 self.version
  raiseUnless (self.evaluationReportId ≠ none ↔ self.evaluationHash ≠ none)
    "evaluation report id and hash must be bound together"
  raiseUnless (self.state ≠ .draft ∧ self.state ≠ .evaluating → self.evaluationReportId ≠ none)
    "post-evaluation strategy state requires evaluation binding"
  raiseUnless (self.createdAt ≤ self.updatedAt) "strategy update cannot precede creation"

/-! ## Evaluations -/

inductive ConfidenceCalibration where
  | uncalibrated
  | calibrated
deriving DecidableEq, Repr

/-- The kinds of check, in the order of their values. -/
inductive EvaluationCheckKind where
  | baselineComparison
  | calibration
  | costSensitivity
  | drawdown
  | leakage
  | overfitting
  | pointInTime
  | reproducibility
  | survivorship
deriving DecidableEq, Repr

def EvaluationCheckKind.all : List EvaluationCheckKind :=
  [.baselineComparison, .calibration, .costSensitivity, .drawdown, .leakage, .overfitting,
    .pointInTime, .reproducibility, .survivorship]

inductive EvaluationCheckStatus where
  | passed
  | failed
  | notApplicable
deriving DecidableEq, Repr

instance : Dump ConfidenceCalibration := ⟨fun c => .int (c.ctorIdx : ℕ)⟩
instance : Dump EvaluationCheckKind := ⟨fun k => .int (k.ctorIdx : ℕ)⟩
instance : Dump EvaluationCheckStatus := ⟨fun s => .int (s.ctorIdx : ℕ)⟩

structure EvaluationCheck where
  kind : EvaluationCheckKind
  status : EvaluationCheckStatus
  reasonCodes : List String
  detailsArtifactRef : Option ArtifactRef
deriving DecidableEq

structure EvaluationMetric where
  name : String
  value : Decimal
  unit : String
  segment : String
deriving DecidableEq

instance : Dump EvaluationCheck :=
  ⟨fun c => .record "EvaluationCheck"
    [dump c.kind, dump c.status, dump c.reasonCodes, dump c.detailsArtifactRef]⟩

instance : Dump EvaluationMetric :=
  ⟨fun m => .record "EvaluationMetric" [dump m.name, dump m.value, dump m.unit, dump m.segment]⟩

structure EvaluationReport where
  reportId : UUID
  strategyId : String
  strategyVersion : String
  strategyManifestHash : Sha256
  datasetSnapshotId : UUID
  dataHash : Sha256
  runtimeHash : Sha256
  evaluationPolicyHash : Sha256
  asOf : UTCDateTime
  windowStart : UTCDateTime
  windowEnd : UTCDateTime
  checks : List EvaluationCheck
  metrics : List EvaluationMetric
  calibration : ConfidenceCalibration
  baselineIds : List String
  reportArtifactRef : ArtifactRef
  validUntil : UTCDateTime
  createdAt : UTCDateTime
  passed : Bool
deriving DecidableEq

/-- Checks, metrics and baselines are stored in the order that their validators sort them to. -/
def EvaluationReport.validate (self : EvaluationReport) : Call Unit := do
  checkCode self.strategyId
  versionText self.strategyVersion
  maxLength 64 self.checks.length
  atLeast 1 self.metrics.length
  maxLength 512 self.metrics.length
  atLeast 1 self.baselineIds.length
  maxLength 64 self.baselineIds.length
  raiseUnless (self.checks.map (·.kind)).Nodup "evaluation checks must be unique"
  raiseUnless (self.metrics.map fun m => (m.name, m.segment)).Nodup
    "evaluation metrics must be unique per segment"
  raiseUnless (self.baselineIds.Nodup ∧ ∀ b ∈ self.baselineIds, ¬ isBlank b)
    "baseline ids must be unique and non-blank"
  raiseUnless (∀ kind ∈ EvaluationCheckKind.all, kind ∈ self.checks.map (·.kind))
    "mandatory evaluation checks are missing"
  raiseUnless (self.passed → (∀ check ∈ self.checks, check.status = .passed) ∧
    self.calibration = .calibrated) "passed evaluation requires passed checks and calibration"
  raiseUnless (self.windowStart < self.windowEnd ∧ self.windowEnd ≤ self.asOf)
    "evaluation report has an invalid point-in-time window"
  raiseUnless (self.asOf ≤ self.createdAt ∧ self.createdAt < self.validUntil)
    "evaluation report has an invalid validity timeline"

def EvaluationReport.evaluationHash [Hashing] (self : EvaluationReport) : Sha256 :=
  stablePayloadHash <| .record "EvaluationReport"
    [dump self.strategyId, dump self.strategyVersion, dump self.strategyManifestHash,
      dump self.datasetSnapshotId, dump self.dataHash, dump self.runtimeHash,
      dump self.evaluationPolicyHash, dump self.asOf, dump self.windowStart, dump self.windowEnd,
      dump self.checks, dump self.metrics, dump self.calibration, dump self.baselineIds,
      dump self.passed]

/-! ## Signals -/

inductive SignalDirection where
  | long
  | short
  | neutral
deriving DecidableEq, Repr

inductive SignalSource where
  | deterministic
  | forecast
  | opinion
deriving DecidableEq, Repr

structure AlphaSignal where
  signalId : UUID
  strategyId : String
  strategyVersion : String
  instrumentId : UUID
  asOf : UTCDateTime
  generatedAt : UTCDateTime
  staleAt : UTCDateTime
  expiresAt : UTCDateTime
  horizon : String
  value : Decimal
  confidence : Decimal
  calibration : ConfidenceCalibration
  direction : SignalDirection
  source : SignalSource
  strategyManifestHash : Sha256
  datasetSnapshotId : UUID
  dataHash : Sha256
  runtimeHash : Sha256
  evaluationPolicyHash : Sha256
  rawOutputArtifactRef : ArtifactRef
  evaluationReportId : Option UUID
  evaluationHash : Option Sha256
  evidenceRefs : List UUID
  forecastRefs : List UUID
  reasonCodes : List String
deriving DecidableEq

/-- The direction that a signed value has. -/
def SignalDirection.matches (direction : SignalDirection) (value : Decimal) : Prop :=
  match direction with
  | .long => 0 < value
  | .short => value < 0
  | .neutral => value = 0

instance SignalDirection.decidableMatches (direction : SignalDirection) (value : Decimal) :
    Decidable (direction.matches value) := by
  unfold SignalDirection.matches
  split <;> exact inferInstance

def AlphaSignal.validate (self : AlphaSignal) : Call Unit := do
  checkCode self.strategyId
  versionText self.strategyVersion
  raiseUnless (1 ≤ self.horizon.length ∧ self.horizon.length ≤ 128)
    "String should have between 1 and 128 characters"
  raiseUnless (-1 ≤ self.value ∧ self.value ≤ 1) "value must be between -1 and 1"
  unitDecimal self.confidence
  raiseUnless (self.evidenceRefs.Nodup ∧ self.forecastRefs.Nodup ∧ self.reasonCodes.Nodup)
    "signal references and reason codes must be unique"
  raiseUnless (∀ code ∈ self.reasonCodes, ¬ isBlank code) "signal reason codes must not be blank"
  raiseUnless (self.asOf ≤ self.generatedAt ∧ self.generatedAt < self.staleAt ∧
    self.staleAt < self.expiresAt) "signal freshness timeline is invalid"
  raiseUnless (self.direction.matches self.value) "signal direction does not match signed value"
  raiseUnless (self.evaluationReportId ≠ none ↔ self.evaluationHash ≠ none)
    "signal evaluation id and hash must be bound together"
  raiseUnless (self.source = .forecast → self.forecastRefs ≠ [])
    "forecast-derived alpha requires a forecast reference"

structure PortfolioSignalCandidate where
  signal : AlphaSignal
  registry : StrategyRegistryEntry
  evaluation : EvaluationReport
deriving DecidableEq

/-! ## Eligibility -/

section

variable [Hashing]

/-- `_strategy_binding_matches`. -/
def AlphaSignal.BoundToStrategy (signal : AlphaSignal) (registry : StrategyRegistryEntry) : Prop :=
  signal.strategyId = registry.manifest.strategyId ∧
  signal.strategyVersion = registry.manifest.strategyVersion ∧
  signal.strategyManifestHash = registry.manifest.manifestHash ∧
  signal.runtimeHash = registry.manifest.runtimeHash

instance (signal : AlphaSignal) (registry : StrategyRegistryEntry) :
    Decidable (signal.BoundToStrategy registry) := inferInstanceAs (Decidable (_ ∧ _))

/-- `_evaluation_binding_matches`. -/
def AlphaSignal.BoundToEvaluation (signal : AlphaSignal) (registry : StrategyRegistryEntry)
    (evaluation : EvaluationReport) : Prop :=
  signal.evaluationReportId = some evaluation.reportId ∧
  signal.evaluationHash = some evaluation.evaluationHash ∧
  registry.evaluationReportId = some evaluation.reportId ∧
  registry.evaluationHash = some evaluation.evaluationHash ∧
  signal.strategyId = evaluation.strategyId ∧
  signal.strategyVersion = evaluation.strategyVersion ∧
  signal.strategyManifestHash = evaluation.strategyManifestHash ∧
  signal.runtimeHash = evaluation.runtimeHash ∧
  signal.evaluationPolicyHash = evaluation.evaluationPolicyHash

instance (signal : AlphaSignal) (registry : StrategyRegistryEntry)
    (evaluation : EvaluationReport) : Decidable (signal.BoundToEvaluation registry evaluation) :=
  inferInstanceAs (Decidable (_ ∧ _))

/-- `_ineligibility_reason`, for a signal whose registry entry and report are at hand. -/
def ineligibilityReason (signal : AlphaSignal) (registry : StrategyRegistryEntry)
    (evaluation : EvaluationReport) (at_ : UTCDateTime) : Option String :=
  if signal.expiresAt ≤ at_ then some "signal_expired"
  else if signal.staleAt ≤ at_ then some "signal_stale"
  else if signal.calibration ≠ .calibrated then some "uncalibrated"
  else if registry.state ≠ .paperEligible then some "strategy_not_paper_eligible"
  else if ¬ signal.BoundToStrategy registry then some "strategy_binding_mismatch"
  else if evaluation.passed = false then some "evaluation_not_passed"
  else if evaluation.validUntil ≤ at_ then some "evaluation_expired"
  else if ¬ signal.BoundToEvaluation registry evaluation then some "evaluation_binding_mismatch"
  else none

/-- `evaluate_signal_eligibility(...).eligible`. -/
def PortfolioSignalCandidate.Eligible (self : PortfolioSignalCandidate) (at_ : UTCDateTime) :
    Prop := ineligibilityReason self.signal self.registry self.evaluation at_ = none

instance (self : PortfolioSignalCandidate) (at_ : UTCDateTime) : Decidable (self.Eligible at_) :=
  inferInstanceAs (Decidable (_ = _))

end

end StonksPaper
