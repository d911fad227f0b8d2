import Mathlib.Data.Prod.Lex
import StonksPaper.Evaluation.Contracts

/-!
# Contracts of the quant lab

`Bar` and `BarSeries` of `market_data.py`, and the dataset of `quant_lab.py`. A value whose
validators have run carries what they have checked. A conversion can also fail on a subscript, which
is not a `ValueError`.
-/

namespace StonksPaper

open Chain

/-! ## Market data -/

inductive DataQualityStatus where
  | available
  | missing
  | notSupported
  | fallback
  | stale
  | estimated
  | partial_
  | fetchFailed
  | conflict
deriving DecidableEq, Repr

structure DataQuality where
  status : DataQualityStatus
  completeness : Decimal
  unit : 0 ≤ completeness ∧ completeness ≤ 1

structure Bar where
  eventTime : UTCDateTime
  availableAt : UTCDateTime
  observedAt : UTCDateTime
  open_ : Decimal
  high : Decimal
  low : Decimal
  close : Decimal
  volume : Decimal
  volume_nonneg : 0 ≤ volume
  ranges : (low ≤ open_ ∧ open_ ≤ high) ∧ low ≤ close ∧ close ≤ high
  observed : availableAt ≤ observedAt

structure BarSeries where
  instrumentId : UUID
  interval : String
  asOf : UTCDateTime
  quality : DataQuality
  bars : List Bar
  ascending : bars.Pairwise fun previous current => previous.eventTime < current.eventTime
  available : ∀ bar ∈ bars, bar.availableAt ≤ asOf

/-! ## Specifications -/

inductive QuantFeatureName where
  | return1
  | return5
  | volatility5
  | volumeChange1
deriving DecidableEq, Repr

def QuantFeatureName.value : QuantFeatureName → String
  | return1 => "return_1"
  | return5 => "return_5"
  | volatility5 => "volatility_5"
  | volumeChange1 => "volume_change_1"

instance : Dump QuantFeatureName := ⟨fun name => dump name.value⟩

structure QuantFeatureSpec where
  names : List QuantFeatureName
  lookbackBars : ℕ
  counted : 1 ≤ names.length ∧ names.length ≤ 32
  lookback : 2 ≤ lookbackBars ∧ lookbackBars ≤ 512
  unique : names.Nodup
  return5_reach : .return5 ∈ names → 6 ≤ lookbackBars
  volatility5_reach : .volatility5 ∈ names → 6 ≤ lookbackBars
deriving DecidableEq

def QuantFeatureSpec.specHash [Hashing] (self : QuantFeatureSpec) : Sha256 :=
  stablePayloadHash <| .record "QuantFeatureSpec" [dump self.names, dump self.lookbackBars]

structure QuantLabelSpec where
  horizonBars : ℕ
  horizon : 1 ≤ horizonBars ∧ horizonBars ≤ 64
deriving DecidableEq

/-- The name of the label is always `forward_return`. -/
def QuantLabelSpec.specHash [Hashing] (self : QuantLabelSpec) : Sha256 :=
  stablePayloadHash <| .record "QuantLabelSpec" [dump "forward_return", dump self.horizonBars]

structure QuantUniverseSpec where
  instrumentIds : List UUID
  historicalMembershipArtifactRef : ArtifactRef
  counted : 1 ≤ instrumentIds.length ∧ instrumentIds.length ≤ 10000
  unique : instrumentIds.Nodup
deriving DecidableEq

/-! ## Conversions -/

/-- The exceptions of a conversion. -/
inductive ConversionException where
  | valueError (message : String)
  | arithmeticError (message : String)
  | indexError
deriving DecidableEq, Repr

abbrev Conversion (α : Type) := Attempt Failure ConversionException α

namespace Conversion

def require (c : Prop) [Decidable c] (message : String) : Conversion Unit :=
  Attempt.require c (.valueError message)

@[simp] theorem require_eq_success {c : Prop} [Decidable c] {message : String} {u : Unit} :
    require c message = .success u ↔ c := Attempt.require_eq_success

def orRaise {α : Type} (error : ConversionException) : Option α → Conversion α
  | some a => .success a
  | none => .raised error

@[simp] theorem orRaise_eq_success {α : Type} {error : ConversionException} {x : Option α} {a : α} :
    orRaise error x = .success a ↔ x = some a := by
  cases x <;> simp [orRaise]

end Conversion

/-! ## Datasets -/

structure QuantDatasetRow where
  rowId : UUID
  instrumentId : UUID
  eventAt : UTCDateTime
  featureAvailableAt : UTCDateTime
  labelOutcomeAt : UTCDateTime
  labelAvailableAt : UTCDateTime
  historicalUniverseKnownAt : UTCDateTime
  inHistoricalUniverse : Bool
  features : List Decimal
  label : Decimal
deriving DecidableEq

/-- `_parse_decimal` of a number that an operation has rounded to 28 digits: it has no place after
the sixty-fourth, and is refused only when it is too large. -/
def decimalString (value : Decimal) : Conversion Unit :=
  Conversion.require (|value| < 10 ^ 65) "Decimal input exceeds supported bounds"

def QuantDatasetRow.validate (self : QuantDatasetRow) : Conversion Unit := do
  Conversion.require (self.inHistoricalUniverse = true) "Input should be True"
  Conversion.require (1 ≤ self.features.length ∧ self.features.length ≤ 32)
    "Tuple should have between 1 and 32 items"
  self.features.forM decimalString
  decimalString self.label

structure QuantDatasetArtifact where
  datasetSnapshotId : UUID
  sourceSnapshotArtifactRef : ArtifactRef
  sourceDataHash : Sha256
  asOf : UTCDateTime
  featureSpec : QuantFeatureSpec
  labelSpec : QuantLabelSpec
  universeSpec : QuantUniverseSpec
  rows : List QuantDatasetRow
deriving DecidableEq

def RowIsPointInTime (value : QuantDatasetRow) (asOf : UTCDateTime) : Prop :=
  (value.eventAt ≤ value.featureAvailableAt ∧ value.featureAvailableAt ≤ asOf) ∧
    (value.eventAt < value.labelOutcomeAt ∧ value.labelOutcomeAt ≤ value.labelAvailableAt ∧
      value.labelAvailableAt ≤ asOf) ∧
    value.historicalUniverseKnownAt ≤ value.eventAt

instance (value : QuantDatasetRow) (asOf : UTCDateTime) : Decidable (RowIsPointInTime value asOf) :=
  inferInstanceAs (Decidable (_ ∧ _))

def QuantDatasetRow.key (self : QuantDatasetRow) : Lex (UTCDateTime × UUID) :=
  toLex (self.eventAt, self.instrumentId)

/-- `validate_rows`, after the bounds of the tuple. -/
def QuantDatasetArtifact.validate (self : QuantDatasetArtifact) : Conversion Unit := do
  Conversion.require (2 ≤ self.rows.length ∧ self.rows.length ≤ 1000000)
    "Tuple should have between 2 and 1000000 items"
  Conversion.require
    ((self.rows.map (·.rowId)).Nodup ∧
      (self.rows.IsChain fun previous current => previous.key < current.key) ∧
      (∀ value ∈ self.rows, value.instrumentId ∈ self.universeSpec.instrumentIds) ∧
      ∀ value ∈ self.rows, value.features.length = self.featureSpec.names.length)
    "quant dataset feature, identity, or ordering is invalid"
  Conversion.require (∀ value ∈ self.rows, RowIsPointInTime value self.asOf)
    "quant dataset failed point-in-time validation"

theorem QuantDatasetArtifact.pairwise_of_validate {artifact : QuantDatasetArtifact} {u : Unit}
    (h : artifact.validate = .success u) :
    artifact.rows.Pairwise fun previous current => previous.key < current.key := by
  simp only [QuantDatasetArtifact.validate, Attempt.bind_eq_success] at h
  obtain ⟨_, -, _, hrows, -⟩ := h
  have hchain := (Conversion.require_eq_success.mp hrows).2.1
  exact List.isChain_iff_pairwise.mp hchain

end StonksPaper
