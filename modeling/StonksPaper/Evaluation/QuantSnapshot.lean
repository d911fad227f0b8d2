import StonksPaper.Base.Aligned
import StonksPaper.Base.Subscript
import StonksPaper.Evaluation.QuantLab

/-!
# Quant datasets from market snapshots

`quant_snapshot.py`. The features of a row read the bars through a function, so that what they read
can be restricted: they never leave the window that the specification promises, and never reach a
negative position. The dataset checks that the features were available at its own time, but not that
they were available before the outcome.
-/

namespace StonksPaper

open Chain Evaluation

structure QuantInstrumentHistory where
  instrumentId : UUID
  series : BarSeries
  historicalUniverseKnownAt : UTCDateTime
  inHistoricalUniverse : Bool
  identity : instrumentId = series.instrumentId

structure QuantSnapshotConversionRequest where
  datasetSnapshotId : UUID
  sourceSnapshotArtifactRef : ArtifactRef
  sourceDataHash : Sha256
  asOf : UTCDateTime
  featureSpec : QuantFeatureSpec
  labelSpec : QuantLabelSpec
  universeSpec : QuantUniverseSpec
  histories : List QuantInstrumentHistory

namespace QuantSnapshot

def allowedQuality : List DataQualityStatus := [.available, .fallback]

/-! ## Features -/

/-- `bars[index]`. -/
def read (bars : List Bar) (index : ℤ) : Conversion Bar :=
  Conversion.orRaise .indexError (Subscript.get bars index)

/-- `later / earlier - 1`. -/
def change (later earlier : Decimal) : Conversion Decimal :=
  if earlier = 0 then .raised (.arithmeticError "division by zero")
  else return rounded (rounded (later / earlier) - 1)

def closeChange (bars : ℤ → Conversion Bar) (later earlier : ℤ) : Conversion Decimal := do
  let last ← bars later
  let first ← bars earlier
  change last.close first.close

def populationDeviation (values : List Decimal) : Decimal :=
  let average := rounded (decimalSum values / values.length)
  let squares := values.map fun value => square (rounded (value - average))
  decimalSqrt (rounded (decimalSum squares / values.length))

def feature (bars : ℤ → Conversion Bar) (index : ℤ) : QuantFeatureName → Conversion Decimal
  | .return1 => closeChange bars index (index - 1)
  | .return5 => closeChange bars index (index - 5)
  | .volatility5 => do
      let returns ← (List.range 5).mapM fun offset : ℕ =>
        closeChange bars (index - 4 + offset) (index - 4 + offset - 1)
      return populationDeviation returns
  | .volumeChange1 => do
      let last ← bars index
      let first ← bars (index - 1)
      change last.volume first.volume

/-! ## Rows -/

def row [Hashing] (request : QuantSnapshotConversionRequest) (history : QuantInstrumentHistory)
    (index : ℤ) : Conversion QuantDatasetRow := do
  let bars := history.series.bars
  let event ← read bars index
  let outcome ← read bars (index + request.labelSpec.horizonBars)
  let features ← request.featureSpec.names.mapM (feature (read bars) index)
  let identity := stablePayloadHash <| .record "quant-row" [dump request.datasetSnapshotId,
    dump history.instrumentId, dump event.eventTime, dump request.featureSpec.specHash,
    dump request.labelSpec.specHash]
  let window := Subscript.slice bars (index - request.featureSpec.lookbackBars + 1) (index + 1)
  let featureAvailableAt ← Conversion.orRaise (.valueError "max() iterable argument is empty")
    (window.map (·.availableAt)).max?
  let label ← change outcome.close event.close
  let value : QuantDatasetRow :=
    { rowId := uuid5 (dump identity)
      instrumentId := history.instrumentId
      eventAt := event.eventTime
      featureAvailableAt := featureAvailableAt
      labelOutcomeAt := outcome.eventTime
      labelAvailableAt := outcome.availableAt
      historicalUniverseKnownAt := history.historicalUniverseKnownAt
      inHistoricalUniverse := true
      features := features
      label := label }
  value.validate
  return value

def historyRows [Hashing] (request : QuantSnapshotConversionRequest)
    (history : QuantInstrumentHistory) : Conversion (List QuantDatasetRow) :=
  let first := request.featureSpec.lookbackBars - 1
  let stop := history.series.bars.length - request.labelSpec.horizonBars
  (List.range' first (stop - first)).mapM fun index : ℕ => row request history index

/-! ## The conversion -/

def HistoryIsValid (request : QuantSnapshotConversionRequest) (history : QuantInstrumentHistory) :
    Prop :=
  let series := history.series
  let bars := series.bars
  let required := request.featureSpec.lookbackBars + request.labelSpec.horizonBars
  history.inHistoricalUniverse = true ∧ bars ≠ [] ∧ required ≤ bars.length ∧
    history.instrumentId = series.instrumentId ∧
    (∀ bar ∈ bars.head?, history.historicalUniverseKnownAt ≤ bar.eventTime) ∧
    series.asOf = request.asOf ∧ series.interval = "1d" ∧
    series.quality.status ∈ allowedQuality ∧ series.quality.completeness = 1 ∧
    (∀ value ∈ bars, 0 < value.close ∧ value.eventTime ≤ value.availableAt ∧
      value.availableAt ≤ request.asOf) ∧
    (bars.IsChain fun previous current => ¬ current.eventTime ≤ previous.eventTime) ∧
    (.volumeChange1 ∉ request.featureSpec.names ∨ ∀ value ∈ bars, 0 < value.volume)

instance (request : QuantSnapshotConversionRequest) (history : QuantInstrumentHistory) :
    Decidable (HistoryIsValid request history) := inferInstanceAs (Decidable (_ ∧ _))

def RequestIsValid (request : QuantSnapshotConversionRequest) : Prop :=
  let identifiers := request.histories.map (·.instrumentId)
  request.histories ≠ [] ∧ identifiers.Nodup ∧
    (identifiers ⊆ request.universeSpec.instrumentIds ∧
      request.universeSpec.instrumentIds ⊆ identifiers) ∧
    ∀ value ∈ request.histories, HistoryIsValid request value

instance (request : QuantSnapshotConversionRequest) : Decidable (RequestIsValid request) :=
  inferInstanceAs (Decidable (_ ∧ _))

def failure (message : String) : Failure := { code := .invalidInput, message := message }

/-- `except (ArithmeticError, ValueError)`. -/
def conversionFailed : ConversionException → Option Failure
  | .valueError _ => some (failure "Canonical quant snapshot conversion failed")
  | .arithmeticError _ => some (failure "Canonical quant snapshot conversion failed")
  | .indexError => none

def convertQuantSnapshot [Hashing] (request : QuantSnapshotConversionRequest) :
    Conversion QuantDatasetArtifact :=
  if ¬ RequestIsValid request then .failure (failure "Canonical quant snapshot input is invalid")
  else Attempt.absorb conversionFailed do
    let rows ← request.histories.mapM (historyRows request)
    let artifact : QuantDatasetArtifact :=
      { datasetSnapshotId := request.datasetSnapshotId
        sourceSnapshotArtifactRef := request.sourceSnapshotArtifactRef
        sourceDataHash := request.sourceDataHash
        asOf := request.asOf
        featureSpec := request.featureSpec
        labelSpec := request.labelSpec
        universeSpec := request.universeSpec
        rows := sorted (·.key) rows.flatten }
    artifact.validate
    return artifact

/-! ## What a row reads -/

variable {request other : QuantSnapshotConversionRequest} {history changed : QuantInstrumentHistory}
  {artifact : QuantDatasetArtifact} {value otherValue : QuantDatasetRow} {name : QuantFeatureName}
  {bars bars' : ℤ → Conversion Bar} {index : ℕ}

theorem read_natCast (bars : List Bar) :
    read bars index = Conversion.orRaise .indexError bars[index]? := by
  rw [read, Subscript.get_natCast]

theorem closeChange_congr {later earlier : ℤ} (hlater : bars later = bars' later)
    (hearlier : bars earlier = bars' earlier) :
    closeChange bars later earlier = closeChange bars' later earlier := by
  rw [closeChange, closeChange, hlater, hearlier]

/-- A feature reads the window of its specification, and nothing else. -/
theorem feature_congr {spec : QuantFeatureSpec} {index : ℤ} (hname : name ∈ spec.names)
    (h : ∀ k, index - spec.lookbackBars < k → k ≤ index → bars k = bars' k) :
    feature bars index name = feature bars' index name := by
  have htwo := spec.lookback.1
  cases name with
  | return1 => exact closeChange_congr (h _ (by omega) (by omega)) (h _ (by omega) (by omega))
  | return5 =>
      have hsix := spec.return5_reach hname
      exact closeChange_congr (h _ (by omega) (by omega)) (h _ (by omega) (by omega))
  | volatility5 =>
      have hsix := spec.volatility5_reach hname
      have hreturns : ∀ offset ∈ List.range 5,
          closeChange bars (index - 4 + offset) (index - 4 + offset - 1) =
            closeChange bars' (index - 4 + offset) (index - 4 + offset - 1) := by
        intro offset hoffset
        have hlt := List.mem_range.mp hoffset
        exact closeChange_congr (h _ (by omega) (by omega)) (h _ (by omega) (by omega))
      simp only [feature]
      rw [Attempt.mapM_congr hreturns]
  | volumeChange1 =>
      simp only [feature]
      rw [h index (by omega) (by omega), h (index - 1) (by omega) (by omega)]

def guarded (allowed : ℤ → Prop) [DecidablePred allowed] (bars : List Bar) (index : ℤ) :
    Conversion Bar :=
  if allowed index then read bars index else .raised .indexError

theorem feature_guarded {spec : QuantFeatureSpec} {allowed : ℤ → Prop} [DecidablePred allowed]
    {bars : List Bar} {index : ℤ} (hname : name ∈ spec.names)
    (h : ∀ k, index - spec.lookbackBars < k → k ≤ index → allowed k) :
    feature (guarded allowed bars) index name = feature (read bars) index name := by
  apply feature_congr hname
  intro k hlow hhigh
  exact if_pos (h k hlow hhigh)

/-! ## What a row says -/

/-- The history has a row at the index. -/
def HasRow (request : QuantSnapshotConversionRequest) (history : QuantInstrumentHistory)
    (index : ℕ) : Prop :=
  request.featureSpec.lookbackBars - 1 ≤ index ∧
    index + request.labelSpec.horizonBars < history.series.bars.length

/-- The place of a row: its instrument, and the bar of which it is. -/
def IsOf (history : QuantInstrumentHistory) (index : ℕ) (value : QuantDatasetRow) : Prop :=
  value.instrumentId = history.instrumentId ∧
    history.series.bars[index]?.map (·.eventTime) = some value.eventAt

instance (history : QuantInstrumentHistory) (index : ℕ) : DecidablePred (IsOf history index) :=
  fun _ => inferInstanceAs (Decidable (_ ∧ _))

theorem IsOf.key_eq (h : IsOf history index value) (hother : IsOf history index otherValue) :
    value.key = otherValue.key := by
  have htime := Option.some.inj (h.2.symm.trans hother.2)
  rw [QuantDatasetRow.key, QuantDatasetRow.key, h.1, hother.1, htime]

/-- The bars that a row reads: those of its window, and the one of its outcome. -/
structure SameWindow (request : QuantSnapshotConversionRequest)
    (history changed : QuantInstrumentHistory) (index : ℕ) : Prop where
  window : ∀ k, index < k + request.featureSpec.lookbackBars → k ≤ index →
    history.series.bars[k]? = changed.series.bars[k]?
  outcome : history.series.bars[index + request.labelSpec.horizonBars]? =
    changed.series.bars[index + request.labelSpec.horizonBars]?

/-- What a row says about its instrument at its time. -/
structure SameFacts (value otherValue : QuantDatasetRow) : Prop where
  features : value.features = otherValue.features
  label : value.label = otherValue.label
  eventAt : value.eventAt = otherValue.eventAt
  featureAvailableAt : value.featureAvailableAt = otherValue.featureAvailableAt
  labelOutcomeAt : value.labelOutcomeAt = otherValue.labelOutcomeAt
  labelAvailableAt : value.labelAvailableAt = otherValue.labelAvailableAt

/-- What a row is made of: two bars, and the window up to the first of them. -/
structure RowOf (request : QuantSnapshotConversionRequest) (history : QuantInstrumentHistory)
    (index : ℕ) (event outcome : Bar) (value : QuantDatasetRow) : Prop where
  event_eq : history.series.bars[index]? = some event
  outcome_eq : history.series.bars[index + request.labelSpec.horizonBars]? = some outcome
  instrumentId : value.instrumentId = history.instrumentId
  eventAt : value.eventAt = event.eventTime
  labelOutcomeAt : value.labelOutcomeAt = outcome.eventTime
  labelAvailableAt : value.labelAvailableAt = outcome.availableAt
  features : request.featureSpec.names.mapM (feature (read history.series.bars) index) =
    .success value.features
  label : change outcome.close event.close = .success value.label
  available : ((Subscript.slice history.series.bars
    ((index + 1 - request.featureSpec.lookbackBars : ℕ) : ℤ) ((index + 1 : ℕ) : ℤ)).map
      (·.availableAt)).max? = some value.featureAvailableAt

theorem rowOf_of_success [Hashing] (hfirst : request.featureSpec.lookbackBars - 1 ≤ index)
    (h : row request history index = .success value) :
    ∃ event outcome, RowOf request history index event outcome value := by
  have hlookback := request.featureSpec.lookback.1
  have hstart : (index : ℤ) - request.featureSpec.lookbackBars + 1 =
      ((index + 1 - request.featureSpec.lookbackBars : ℕ) : ℤ) := by omega
  have hstop : (index : ℤ) + 1 = ((index + 1 : ℕ) : ℤ) := by omega
  have houtcome : (index : ℤ) + request.labelSpec.horizonBars =
      ((index + request.labelSpec.horizonBars : ℕ) : ℤ) := by omega
  simp only [row, hstart, hstop, houtcome, read_natCast, Attempt.bind_eq_success,
    Conversion.orRaise_eq_success, Attempt.pure_eq, Attempt.success.injEq] at h
  obtain ⟨event, hevent, outcome, hout, features, hfeatures, available, havailable, label, hlabel,
    _, -, rfl⟩ := h
  exact ⟨event, outcome, hevent, hout, rfl, rfl, rfl, rfl, hfeatures, hlabel, havailable⟩

section

variable {event outcome otherEvent otherOutcome : Bar}

theorem RowOf.isOf (h : RowOf request history index event outcome value) :
    IsOf history index value := by
  refine ⟨h.instrumentId, ?_⟩
  rw [h.event_eq, Option.map_some, h.eventAt]

/-- Rows over the same window say the same. -/
theorem RowOf.sameFacts (hfirst : request.featureSpec.lookbackBars - 1 ≤ index)
    (h : RowOf request history index event outcome value)
    (hother : RowOf other changed index otherEvent otherOutcome otherValue)
    (hfeature : other.featureSpec = request.featureSpec)
    (hlabel : other.labelSpec = request.labelSpec)
    (hsame : SameWindow request history changed index) : SameFacts value otherValue := by
  have hlookback := request.featureSpec.lookback.1
  have hevent : event = otherEvent := by
    have hboth := hsame.window index (by omega) le_rfl
    rw [h.event_eq, hother.event_eq] at hboth
    exact Option.some.inj hboth
  have houtcome : outcome = otherOutcome := by
    have hboth := hsame.outcome
    have hothers := hother.outcome_eq
    rw [hlabel] at hothers
    rw [h.outcome_eq, hothers] at hboth
    exact Option.some.inj hboth
  subst hevent houtcome
  refine ⟨?_, ?_, h.eventAt.trans hother.eventAt.symm, ?_,
    h.labelOutcomeAt.trans hother.labelOutcomeAt.symm,
    h.labelAvailableAt.trans hother.labelAvailableAt.symm⟩
  · have hloop : request.featureSpec.names.mapM (feature (read history.series.bars) index) =
        request.featureSpec.names.mapM (feature (read changed.series.bars) index) := by
      apply Attempt.mapM_congr
      intro name hname
      apply feature_congr hname
      intro k hlow hhigh
      -- The window of a row never reaches below the first bar.
      have hk : 0 ≤ k := by omega
      obtain ⟨n, rfl⟩ := Int.eq_ofNat_of_zero_le hk
      rw [read_natCast, read_natCast, hsame.window n (by omega) (by omega)]
    have hothers := hother.features
    rw [hfeature, ← hloop, h.features] at hothers
    exact Attempt.success.inj hothers
  · exact Attempt.success.inj (h.label.symm.trans hother.label)
  · have hslice : Subscript.slice history.series.bars
          ((index + 1 - request.featureSpec.lookbackBars : ℕ) : ℤ) ((index + 1 : ℕ) : ℤ) =
        Subscript.slice changed.series.bars
          ((index + 1 - request.featureSpec.lookbackBars : ℕ) : ℤ) ((index + 1 : ℕ) : ℤ) := by
      apply Subscript.slice_congr
      intro k hlow hhigh
      exact hsame.window k (by omega) (by omega)
    have hothers := hother.available
    rw [hfeature, ← hslice, h.available] at hothers
    exact Option.some.inj hothers

theorem RowOf.unwrapped (hfirst : request.featureSpec.lookbackBars - 1 ≤ index)
    (h : RowOf request history index event outcome value)
    (hname : name ∈ request.featureSpec.names) :
    ∃ x, feature (read history.series.bars) index name = .success x ∧
      feature (guarded (0 ≤ ·) history.series.bars) index name = .success x := by
  have hlookback := request.featureSpec.lookback.1
  obtain ⟨x, -, hx⟩ := (Attempt.mapM_eq_success.mp h.features).exists_right hname
  have hguarded : feature (guarded (0 ≤ ·) history.series.bars) index name =
      feature (read history.series.bars) index name := by
    apply feature_guarded hname
    intro k hlow _
    omega
  exact ⟨x, hx, hguarded.trans hx⟩

/-- Every bar of the window is available before the outcome. -/
def WindowArrives (request : QuantSnapshotConversionRequest) (history : QuantInstrumentHistory)
    (index : ℕ) : Prop :=
  ∀ k, index < k + request.featureSpec.lookbackBars → k ≤ index →
    ∀ known ∈ history.series.bars[k]?,
      ∀ outcome ∈ history.series.bars[index + request.labelSpec.horizonBars]?,
        known.availableAt < outcome.eventTime

/-- A row is known before its outcome exactly when its whole window is. -/
theorem RowOf.available_lt_iff (h : RowOf request history index event outcome value) :
    value.featureAvailableAt < value.labelOutcomeAt ↔ WindowArrives request history index := by
  have hmax := List.max?_eq_some_iff.mp h.available
  rw [h.labelOutcomeAt]
  constructor
  · intro hlt k hlow hhigh known hknown other hother
    rw [h.outcome_eq, Option.mem_some_iff] at hother
    subst hother
    have hmem : known ∈ Subscript.slice history.series.bars
        ((index + 1 - request.featureSpec.lookbackBars : ℕ) : ℤ) ((index + 1 : ℕ) : ℤ) :=
      Subscript.mem_slice.mpr ⟨k, by omega, by omega, hknown⟩
    exact lt_of_le_of_lt (hmax.2 _ (List.mem_map_of_mem hmem)) hlt
  · intro harrives
    obtain ⟨known, hmem, hknown⟩ := List.mem_map.mp hmax.1
    obtain ⟨k, hlow, hhigh, hk⟩ := Subscript.mem_slice.mp hmem
    rw [← hknown]
    exact harrives k (by omega) (by omega) known hk outcome h.outcome_eq

end

/-! ## The rows of a dataset -/

/-- What a successful conversion has done. -/
theorem convertQuantSnapshot_eq_success [Hashing] :
    convertQuantSnapshot request = .success artifact ↔ RequestIsValid request ∧
      ∃ rows, request.histories.mapM (historyRows request) = .success rows ∧
        artifact.validate = .success () ∧
        artifact = ⟨request.datasetSnapshotId, request.sourceSnapshotArtifactRef,
          request.sourceDataHash, request.asOf, request.featureSpec, request.labelSpec,
          request.universeSpec, sorted (·.key) rows.flatten⟩ := by
  unfold convertQuantSnapshot
  by_cases hvalid : RequestIsValid request
  · simp only [hvalid, not_true_eq_false, if_false, Attempt.absorb_eq_success,
      Attempt.bind_eq_success, Attempt.pure_eq, Attempt.success.injEq, true_and]
    constructor
    · intro h
      obtain ⟨rows, hrows, _, hvalidated, rfl⟩ := h
      exact ⟨rows, hrows, hvalidated, rfl⟩
    · intro h
      obtain ⟨rows, hrows, hvalidated, rfl⟩ := h
      exact ⟨rows, hrows, (), hvalidated, rfl⟩
  · simp [hvalid]

theorem mem_indices (history : QuantInstrumentHistory) :
    index ∈ List.range' (request.featureSpec.lookbackBars - 1)
      (history.series.bars.length - request.labelSpec.horizonBars -
        (request.featureSpec.lookbackBars - 1)) ↔ HasRow request history index := by
  rw [List.mem_range'_1, HasRow]
  omega

/-- The rows of a dataset are those of its histories. -/
theorem mem_rows [Hashing] (h : convertQuantSnapshot request = .success artifact) :
    value ∈ artifact.rows ↔ ∃ history ∈ request.histories, ∃ index, HasRow request history index ∧
      row request history index = .success value := by
  obtain ⟨-, rows, hrows, -, rfl⟩ := convertQuantSnapshot_eq_success.mp h
  rw [mem_sorted, List.mem_flatten]
  constructor
  · intro hmem
    obtain ⟨ofHistory, hofHistory, hvalue⟩ := hmem
    obtain ⟨history, hhistory, hcollected⟩ := (Attempt.mem_of_mapM hrows).mp hofHistory
    obtain ⟨index, hindex, hrow⟩ := (Attempt.mem_of_mapM hcollected).mp hvalue
    exact ⟨history, hhistory, index, (mem_indices history).mp hindex, hrow⟩
  · intro hmem
    obtain ⟨history, hhistory, index, hindex, hrow⟩ := hmem
    obtain ⟨ofHistory, hofHistory, hcollected⟩ :=
      (Attempt.mapM_eq_success.mp hrows).exists_right hhistory
    exact ⟨ofHistory, hofHistory,
      (Attempt.mem_of_mapM hcollected).mpr ⟨index, (mem_indices history).mpr hindex, hrow⟩⟩

theorem exists_row [Hashing] (h : convertQuantSnapshot request = .success artifact)
    (hhistory : history ∈ request.histories) (hindex : HasRow request history index) :
    ∃ value ∈ artifact.rows, row request history index = .success value := by
  obtain ⟨-, rows, hrows, -, -⟩ := convertQuantSnapshot_eq_success.mp h
  obtain ⟨ofHistory, -, hcollected⟩ := (Attempt.mapM_eq_success.mp hrows).exists_right hhistory
  obtain ⟨value, -, hvalue⟩ := (Attempt.mapM_eq_success.mp hcollected).exists_right
    ((mem_indices history).mpr hindex)
  exact ⟨value, (mem_rows h).mpr ⟨history, hhistory, index, hindex, hvalue⟩, hvalue⟩

theorem row_unique [Hashing] (h : convertQuantSnapshot request = .success artifact)
    (hvalue : value ∈ artifact.rows) (hother : otherValue ∈ artifact.rows)
    (hkey : value.key = otherValue.key) : value = otherValue := by
  obtain ⟨-, rows, -, hvalidated, -⟩ := convertQuantSnapshot_eq_success.mp h
  have hordered := QuantDatasetArtifact.pairwise_of_validate hvalidated
  have hkeys : (artifact.rows.map (·.key)).Nodup := by
    rw [List.Nodup, List.pairwise_map]
    exact hordered.imp ne_of_lt
  exact List.inj_on_of_nodup_map hkeys hvalue hother hkey

theorem row_of_isOf [Hashing] (h : convertQuantSnapshot request = .success artifact)
    (hhistory : history ∈ request.histories) (hindex : HasRow request history index)
    (hvalue : value ∈ artifact.rows) (hplace : IsOf history index value) :
    row request history index = .success value := by
  obtain ⟨computed, hcomputed, hrow⟩ := exists_row h hhistory hindex
  obtain ⟨event, outcome, hof⟩ := rowOf_of_success hindex.1 hrow
  have hsame := row_unique h hvalue hcomputed (hplace.key_eq hof.isOf)
  rw [hsame]
  exact hrow

/-- Exactly one row is at each place. -/
theorem countP_isOf [Hashing] (h : convertQuantSnapshot request = .success artifact)
    (hhistory : history ∈ request.histories) (hindex : HasRow request history index) :
    artifact.rows.countP (IsOf history index ·) = 1 := by
  obtain ⟨computed, hcomputed, hrow⟩ := exists_row h hhistory hindex
  obtain ⟨event, outcome, hof⟩ := rowOf_of_success hindex.1 hrow
  obtain ⟨-, rows, -, hvalidated, -⟩ := convertQuantSnapshot_eq_success.mp h
  have hordered := QuantDatasetArtifact.pairwise_of_validate hvalidated
  have hnodup : artifact.rows.Nodup := hordered.imp fun hlt heq => absurd (heq ▸ hlt) (lt_irrefl _)
  have hcount : artifact.rows.countP (IsOf history index ·) = artifact.rows.count computed := by
    apply List.countP_congr
    intro value hvalue
    rw [decide_eq_true_eq, beq_iff_eq]
    constructor
    · intro hplace
      exact row_unique h hvalue hcomputed (hplace.key_eq hof.isOf)
    · intro hsame
      rw [hsame]
      exact hof.isOf
  rw [hcount, List.count_eq_one_of_mem hnodup hcomputed]

/-! ## Looking ahead -/

/-- A dataset that does not look ahead. -/
structure NoLookAhead [Hashing] (request : QuantSnapshotConversionRequest)
    (artifact : QuantDatasetArtifact) : Prop where
  placed : ∀ value ∈ artifact.rows, ∃ history ∈ request.histories, ∃ index,
    HasRow request history index ∧ IsOf history index value
  exactly_one : ∀ history ∈ request.histories, ∀ index, HasRow request history index →
    artifact.rows.countP (IsOf history index ·) = 1
  /-- A row depends on its window and its outcome alone. -/
  windowed : ∀ other otherArtifact, convertQuantSnapshot other = .success otherArtifact →
    other.featureSpec = request.featureSpec → other.labelSpec = request.labelSpec →
    ∀ history ∈ request.histories, ∀ changed ∈ other.histories, ∀ index,
      HasRow request history index → SameWindow request history changed index →
      ∀ value ∈ artifact.rows, IsOf history index value →
      ∀ otherValue ∈ otherArtifact.rows, IsOf changed index otherValue → SameFacts value otherValue
  /-- The features are what they are when every negative position is refused. -/
  unwrapped : ∀ history ∈ request.histories, ∀ index, HasRow request history index →
    ∀ name ∈ request.featureSpec.names, ∃ x,
      feature (read history.series.bars) index name = .success x ∧
        feature (guarded (0 ≤ ·) history.series.bars) index name = .success x
  tradable : ∀ value ∈ artifact.rows, value.featureAvailableAt < value.labelOutcomeAt

/-- Every bar of a row's window is available before the row's outcome. -/
def WindowsArrive (request : QuantSnapshotConversionRequest) : Prop :=
  ∀ history ∈ request.histories, ∀ index, HasRow request history index →
    WindowArrives request history index

theorem HasRow.of_sameWindow (hlabel : other.labelSpec = request.labelSpec)
    (hfeature : other.featureSpec = request.featureSpec) (h : HasRow request history index)
    (hsame : SameWindow request history changed index) : HasRow other changed index := by
  have hsome : (changed.series.bars[index + request.labelSpec.horizonBars]?).isSome := by
    rw [← hsame.outcome, List.getElem?_eq_getElem h.2]
    rfl
  have hlt : index + request.labelSpec.horizonBars < changed.series.bars.length := by
    by_contra hlong
    rw [List.getElem?_eq_none (not_lt.mp hlong)] at hsome
    cases hsome
  rw [HasRow, hfeature, hlabel]
  exact ⟨h.1, hlt⟩

theorem tradable_iff [Hashing] (h : convertQuantSnapshot request = .success artifact) :
    (∀ value ∈ artifact.rows, value.featureAvailableAt < value.labelOutcomeAt) ↔
      WindowsArrive request := by
  constructor
  · intro htradable history hhistory index hindex
    obtain ⟨value, hvalue, hrow⟩ := exists_row h hhistory hindex
    obtain ⟨event, outcome, hof⟩ := rowOf_of_success hindex.1 hrow
    exact hof.available_lt_iff.mp (htradable value hvalue)
  · intro harrive value hvalue
    obtain ⟨history, hhistory, index, hindex, hrow⟩ := (mem_rows h).mp hvalue
    obtain ⟨event, outcome, hof⟩ := rowOf_of_success hindex.1 hrow
    exact hof.available_lt_iff.mpr (harrive history hhistory index hindex)

/-- A dataset does not look ahead exactly when no bar of a window arrives as late as the outcome. -/
theorem convertQuantSnapshot_noLookAhead_iff [Hashing] (request : QuantSnapshotConversionRequest)
    (artifact : QuantDatasetArtifact) (h : convertQuantSnapshot request = .success artifact) :
    NoLookAhead request artifact ↔ WindowsArrive request := by
  constructor
  · intro hahead
    exact (tradable_iff h).mp hahead.tradable
  · intro harrive
    refine ⟨?_, ?_, ?_, ?_, (tradable_iff h).mpr harrive⟩
    · intro value hvalue
      obtain ⟨history, hhistory, index, hindex, hrow⟩ := (mem_rows h).mp hvalue
      obtain ⟨event, outcome, hof⟩ := rowOf_of_success hindex.1 hrow
      exact ⟨history, hhistory, index, hindex, hof.isOf⟩
    · intro history hhistory index hindex
      exact countP_isOf h hhistory hindex
    · intro other otherArtifact hother hfeature hlabel history hhistory changed hchanged index
        hindex
        hsame value hvalue hplace otherValue hotherValue hotherPlace
      have hotherIndex := hindex.of_sameWindow hlabel hfeature hsame
      obtain ⟨event, outcome, hof⟩ :=
        rowOf_of_success hindex.1 (row_of_isOf h hhistory hindex hvalue hplace)
      obtain ⟨otherEvent, otherOutcome, hotherOf⟩ := rowOf_of_success hotherIndex.1
        (row_of_isOf hother hchanged hotherIndex hotherValue hotherPlace)
      exact hof.sameFacts hindex.1 hotherOf hfeature hlabel hsame
    · intro history hhistory index hindex name hname
      obtain ⟨value, -, hrow⟩ := exists_row h hhistory hindex
      obtain ⟨event, outcome, hof⟩ := rowOf_of_success hindex.1 hrow
      exact hof.unwrapped hindex.1 hname

end QuantSnapshot

namespace QuantScenario

open QuantSnapshot
open scoped CodeHashing

theorem unit_nonneg : (0 : Decimal) ≤ 1 := by decide

theorem unit_bounds : (0 : Decimal) ≤ 1 ∧ (1 : Decimal) ≤ 1 := by decide

/-- The daily bar of an event, available some time after it. -/
def dailyBar (eventTime : UTCDateTime) (close : Decimal) (delay : ℕ := 1) : Bar where
  eventTime := eventTime
  availableAt := eventTime + delay
  observedAt := eventTime + delay
  open_ := close
  high := close
  low := close
  close := close
  volume := 1
  volume_nonneg := unit_nonneg
  ranges := ⟨⟨le_rfl, le_rfl⟩, le_rfl, le_rfl⟩
  observed := le_rfl

def fourBars (delay : ℕ) : List Bar :=
  [dailyBar 10 100, dailyBar 20 110 delay, dailyBar 30 121, dailyBar 40 100]

theorem fourBars_ascending (delay : ℕ) :
    (fourBars delay).Pairwise fun previous current => previous.eventTime < current.eventTime := by
  simp [fourBars, dailyBar]

theorem fourBars_available {delay : ℕ} (h : delay ≤ 50) :
    ∀ bar ∈ fourBars delay, bar.availableAt ≤ 100 := by
  simp only [fourBars, dailyBar, List.forall_mem_cons, List.not_mem_nil, false_implies,
    implies_true, and_true]
  refine ⟨by norm_num, ?_, by norm_num, by norm_num⟩
  show (20 : ℤ) + delay ≤ 100
  omega

def fourSeries (delay : ℕ) (h : delay ≤ 50) : BarSeries where
  instrumentId := 7
  interval := "1d"
  asOf := 100
  quality := ⟨.available, 1, unit_bounds⟩
  bars := fourBars delay
  ascending := fourBars_ascending delay
  available := fourBars_available h

/-- One-bar returns over two bars, and the return of the next bar. -/
def returnRequest (delay : ℕ) (h : delay ≤ 50) : QuantSnapshotConversionRequest where
  datasetSnapshotId := 1
  sourceSnapshotArtifactRef := 2
  sourceDataHash := 3
  asOf := 100
  featureSpec := ⟨[.return1], 2, by decide, by decide, by decide, by decide, by decide⟩
  labelSpec := ⟨1, by decide⟩
  universeSpec := ⟨[7], 4, by decide, by decide⟩
  histories := [⟨7, fourSeries delay h, 0, true, rfl⟩]

theorem convertQuantSnapshot_noLookAhead_iff_prompt : ∃ artifact,
    convertQuantSnapshot (returnRequest 1 (by decide)) = .success artifact ∧
      (NoLookAhead (returnRequest 1 (by decide)) artifact ↔
        WindowsArrive (returnRequest 1 (by decide))) := by
  have hsuccess : (convertQuantSnapshot (returnRequest 1 (by decide))).Succeeds := by
    decide +kernel
  obtain ⟨artifact, h⟩ := hsuccess
  exact ⟨artifact, h, convertQuantSnapshot_noLookAhead_iff _ artifact h⟩

/-- The second bar arrives when the third has happened: the row of the second is known with its
outcome. -/
theorem convertQuantSnapshot_looks_ahead : ∃ artifact,
    convertQuantSnapshot (returnRequest 10 (by decide)) = .success artifact ∧
      ¬ NoLookAhead (returnRequest 10 (by decide)) artifact := by
  have hlate : (convertQuantSnapshot (returnRequest 10 (by decide))).SucceedsWith fun artifact =>
      ∃ value ∈ artifact.rows, ¬ value.featureAvailableAt < value.labelOutcomeAt := by
    decide +kernel
  obtain ⟨artifact, h, value, hvalue, hahead⟩ := hlate
  exact ⟨artifact, h, fun hsafe => hahead (hsafe.tradable value hvalue)⟩

end QuantScenario

end StonksPaper
