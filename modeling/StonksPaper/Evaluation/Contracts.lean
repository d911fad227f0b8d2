import StonksPaper.Base.Significant
import StonksPaper.Domain.Signal

/-!
# Contracts of an evaluation

`application/evaluation/contracts.py` and the request of `domain/evaluation.py`. Returns are
computed in the default context of `decimal`, which keeps 28 significant digits of every result.
-/

namespace StonksPaper

open Chain

namespace Evaluation

/-! ## The default context of `decimal` -/

def rounded (x : Decimal) : Decimal := Significant.round 28 x

theorem rounded_mono : Monotone rounded := Significant.round_mono (by omega)

/-- `x ** 2`: the power is rounded to three digits more, and then to those of the context. -/
def square (x : Decimal) : Decimal := rounded (Significant.round 31 (x * x))

/-- The square root, to 28 significant digits. -/
def decimalSqrt (x : Decimal) : Decimal :=
  if x ≤ 0 then 0
  else
    let quantum : ℚ := 10 ^ ((Significant.exponent x).fdiv 2 - 27)
    let scaled := x / (quantum * quantum)
    let root := Nat.sqrt ⌊scaled⌋.toNat
    let middle : ℚ := (root + 1 / 2) * (root + 1 / 2)
    if scaled < middle ∨ scaled = middle ∧ root % 2 = 0 then root * quantum
    else (root + 1) * quantum

/-- `sum(values, Decimal(0))`. -/
def decimalSum (values : List Decimal) : Decimal :=
  values.foldl (fun total value => rounded (total + value)) 0

/-- `Decimal("0.000000000001")`. -/
def evaluationQuantum : Decimal := 1 / 1000000000000

/-- The result of `quantize` must fit the precision. -/
def quantize (value : Decimal) : Call Decimal :=
  let result := Quantum.halfEvenTo value evaluationQuantum
  if |result| < 10000000000000000 then return result
  else .raised (.decimalException "quantize result has too many digits for current context")

def mean (values : List Decimal) : Call Decimal :=
  if values = [] then .raised (.valueError "cannot calculate mean of empty values")
  else return rounded (decimalSum values / values.length)

def position (predictedReturn : Decimal) : Decimal :=
  if 0 < predictedReturn then 1 else if predictedReturn < 0 then -1 else 0

end Evaluation

/-! ## Data -/

inductive AvailabilityCertainty where
  | proven
  | unknown
deriving DecidableEq, Repr

structure EvaluationObservation where
  observationId : UUID
  instrumentId : UUID
  eventAt : UTCDateTime
  featureAvailableAt : UTCDateTime
  predictionAt : UTCDateTime
  outcomeAt : UTCDateTime
  labelAvailableAt : UTCDateTime
  universeKnownAt : UTCDateTime
  availabilityCertainty : AvailabilityCertainty
  inHistoricalUniverse : Bool
  predictedReturn : Decimal
  actualReturn : Decimal
  benchmarkReturn : Decimal
  directionProbability : Decimal
  turnover : Decimal
  realized_ge : -1 ≤ actualReturn ∧ -1 ≤ benchmarkReturn
  probability_unit : 0 ≤ directionProbability ∧ directionProbability ≤ 1
  turnover_nonneg : 0 ≤ turnover
deriving DecidableEq

/-- A dataset that its validators have accepted. -/
structure EvaluationDataset where
  datasetSnapshotId : UUID
  dataHash : Sha256
  asOf : UTCDateTime
  universeArtifactRef : ArtifactRef
  observations : List EvaluationObservation
  counted : 2 ≤ observations.length ∧ observations.length ≤ 1000000
  unique : (observations.map (·.observationId)).Nodup
  ordered : observations.Pairwise fun earlier later => earlier.predictionAt < later.predictionAt
deriving DecidableEq

/-- `^[a-z][a-z0-9_.-]{0,127}/[0-9]+\.[0-9]+\.[0-9]+$`. -/
def isCandidateId (text : String) : Bool :=
  match text.toList.splitOn '/' with
  | [name, version] => isCheckCode (String.ofList name) && isVersion (String.ofList version)
  | _ => false

structure CandidatePredictionSeries where
  candidateId : String
  predictions : List Decimal
deriving DecidableEq

def CandidatePredictionSeries.validate (self : CandidatePredictionSeries) : Call Unit := do
  raiseUnless (isCandidateId self.candidateId = true) "String should match the candidate pattern"
  atLeast 2 self.predictions.length
  maxLength 1000000 self.predictions.length

/-- A policy that its validators have accepted. -/
structure EvaluationPolicy where
  minimumObservations : ℕ
  trainSize : ℕ
  testSize : ℕ
  stepSize : ℕ
  purgeObservations : ℕ
  embargoObservations : ℕ
  minimumSplits : ℕ
  cpcvGroups : ℕ
  maxPbo : Decimal
  feeBps : Decimal
  slippageBps : Decimal
  costMultipliers : List Decimal
  minimumNetAlpha : Decimal
  maximumDrawdown : Decimal
  maximumBrierScore : Decimal
  maximumCalibrationError : Decimal
  calibrationBuckets : ℕ
  reportValidDays : ℕ
  sizes : (2 ≤ minimumObservations ∧ minimumObservations ≤ 1000000) ∧
    (2 ≤ trainSize ∧ trainSize ≤ 1000000) ∧ (1 ≤ testSize ∧ testSize ≤ 1000000) ∧
    (1 ≤ stepSize ∧ stepSize ≤ 1000000)
  gaps : purgeObservations ≤ 100000 ∧ embargoObservations ≤ 100000
  splits : 1 ≤ minimumSplits ∧ minimumSplits ≤ 10000
  groups : 4 ≤ cpcvGroups ∧ cpcvGroups ≤ 8
  limits : (0 ≤ maxPbo ∧ maxPbo ≤ 1) ∧ (0 ≤ maximumDrawdown ∧ maximumDrawdown ≤ 1) ∧
    (0 ≤ maximumBrierScore ∧ maximumBrierScore ≤ 1) ∧
    (0 ≤ maximumCalibrationError ∧ maximumCalibrationError ≤ 1)
  costs : 0 ≤ feeBps ∧ 0 ≤ slippageBps
  multipliers : (1 ≤ costMultipliers.length ∧ costMultipliers.length ≤ 16) ∧
    (∀ value ∈ costMultipliers, 0 < value) ∧ SortedUnique costMultipliers ∧
    1 ∈ costMultipliers
  buckets : 2 ≤ calibrationBuckets ∧ calibrationBuckets ≤ 20
  days : 1 ≤ reportValidDays ∧ reportValidDays ≤ 3650

def EvaluationPolicy.policyHash [Hashing] (self : EvaluationPolicy) : Sha256 :=
  stablePayloadHash <| .record "EvaluationPolicy"
    [dump self.minimumObservations, dump self.trainSize, dump self.testSize, dump self.stepSize,
      dump self.purgeObservations, dump self.embargoObservations, dump self.minimumSplits,
      dump self.cpcvGroups, dump self.maxPbo, dump self.feeBps, dump self.slippageBps,
      dump self.costMultipliers, dump self.minimumNetAlpha, dump self.maximumDrawdown,
      dump self.maximumBrierScore, dump self.maximumCalibrationError,
      dump self.calibrationBuckets, dump self.reportValidDays]

structure WalkForwardSplit where
  splitId : ℕ
  trainObservationIds : List UUID
  testObservationIds : List UUID
  purgeObservations : ℕ
  embargoObservations : ℕ
deriving DecidableEq, Repr

/-- `EvaluationAuditSummary`: the three audits, each of which has passed. -/
structure EvaluationAuditSummary where
  pointInTimePassed : Bool := true
  leakagePassed : Bool := true
  survivorshipPassed : Bool := true
deriving DecidableEq, Repr

structure EvaluationRequest where
  requestId : UUID
  manifest : StrategyManifest
  datasetSnapshotId : UUID
  snapshotArtifactRef : ArtifactRef
  dataHash : Sha256
  asOf : UTCDateTime
  windowStart : UTCDateTime
  windowEnd : UTCDateTime
  evaluationPolicyHash : Sha256
  requestedAt : UTCDateTime
  deadlineAt : UTCDateTime
  timeline : windowStart < windowEnd ∧ windowEnd ≤ asOf ∧ asOf ≤ requestedAt ∧
    requestedAt < deadlineAt
deriving DecidableEq

end StonksPaper
