import StonksPaper.Domain.Signal

/-!
# What fixes an eligibility decision

A signal and a registry entry name a report by its identifier and its hash. The hash covers the
report but for its identifier, its artifact, and the two instants between which it holds.
-/

namespace StonksPaper

structure SignalEligibilityDecision where
  eligible : Bool
  weight : Decimal
  reasonCodes : List String
deriving DecidableEq

section

variable [Hashing]

/-- `_ineligibility_reason`. -/
def signalIneligibilityReason (signal : AlphaSignal) (registry : Option StrategyRegistryEntry)
    (evaluation : Option EvaluationReport) (at_ : UTCDateTime) : Option String :=
  if signal.expiresAt ≤ at_ then some "signal_expired"
  else if signal.staleAt ≤ at_ then some "signal_stale"
  else if signal.calibration ≠ .calibrated then some "uncalibrated"
  else match registry with
    | none => some "strategy_unregistered"
    | some registry =>
        if registry.state ≠ .paperEligible then some "strategy_not_paper_eligible"
        else if ¬ signal.BoundToStrategy registry then some "strategy_binding_mismatch"
        else match evaluation with
          | none => some "evaluation_not_passed"
          | some evaluation =>
              if evaluation.passed = false then some "evaluation_not_passed"
              else if evaluation.validUntil ≤ at_ then some "evaluation_expired"
              else if ¬ signal.BoundToEvaluation registry evaluation then
                some "evaluation_binding_mismatch"
              else none

def evaluateSignalEligibility (signal : AlphaSignal) (registry : Option StrategyRegistryEntry)
    (evaluation : Option EvaluationReport) (at_ : UTCDateTime) : SignalEligibilityDecision :=
  match signalIneligibilityReason signal registry evaluation at_ with
  | some reason => ⟨false, 0, [reason]⟩
  | none => ⟨true, signal.confidence, ["eligible"]⟩

/-! ## Reports that share a hash -/

variable {e e' : EvaluationReport}

theorem evaluationHash_agrees (hfree : Hashing.CollisionFree)
    (h : e.evaluationHash = e'.evaluationHash) :
    e.strategyId = e'.strategyId ∧ e.strategyVersion = e'.strategyVersion ∧
      e.strategyManifestHash = e'.strategyManifestHash ∧ e.runtimeHash = e'.runtimeHash ∧
      e.evaluationPolicyHash = e'.evaluationPolicyHash ∧ e.passed = e'.passed := by
  have hpayload := hfree.hash h
  simp only [Payload.record_inj, List.cons.injEq, dump_string_inj, dump_nat_inj,
    true_and] at hpayload
  obtain ⟨hid, hversion, hmanifest, -, -, hruntime, hpolicy, -, -, -, -, -, -, -, hpassed, -⟩ :=
    hpayload
  exact ⟨hid, hversion, hmanifest, hruntime, hpolicy, Payload.bool.inj hpassed⟩

theorem boundToEvaluation_iff (hfree : Hashing.CollisionFree) (hid : e.reportId = e'.reportId)
    (hhash : e.evaluationHash = e'.evaluationHash) (signal : AlphaSignal)
    (registry : StrategyRegistryEntry) :
    signal.BoundToEvaluation registry e ↔ signal.BoundToEvaluation registry e' := by
  obtain ⟨hstrategy, hversion, hmanifest, hruntime, hpolicy, -⟩ := evaluationHash_agrees hfree hhash
  simp only [AlphaSignal.BoundToEvaluation, hid, hhash, hstrategy, hversion, hmanifest, hruntime,
    hpolicy]

/-- The identifier and the hash of a report fix the decision, up to whether it has expired. -/
theorem evaluateSignalEligibility_eq_of_hash (hfree : Hashing.CollisionFree)
    (signal : AlphaSignal) (registry : Option StrategyRegistryEntry) (at_ : UTCDateTime)
    (hid : e.reportId = e'.reportId) (hhash : e.evaluationHash = e'.evaluationHash)
    (hvalid : e.validUntil ≤ at_ ↔ e'.validUntil ≤ at_) :
    evaluateSignalEligibility signal registry e at_ =
      evaluateSignalEligibility signal registry e' at_ := by
  have hpassed := (evaluationHash_agrees hfree hhash).2.2.2.2.2
  have hreason : signalIneligibilityReason signal registry e at_ =
      signalIneligibilityReason signal registry e' at_ := by
    cases registry with
    | none => rfl
    | some registry =>
        simp only [signalIneligibilityReason, hpassed, hvalid,
          boundToEvaluation_iff hfree hid hhash signal registry]
  rw [evaluateSignalEligibility, evaluateSignalEligibility, hreason]

end

/-! ## Two reports with one hash -/

namespace EligibilityScenario

open scoped CodeHashing

def manifest : StrategyManifest where
  manifestId := 1
  strategyId := "momentum"
  strategyVersion := "1.0.0"
  kind := .deterministic
  sourceArtifactRef := 1
  runtimeHash := 2
  featureSpecHash := 3
  labelSpecHash := 4
  universeSpecHash := 5
  costModelHash := 6
  splitPolicyHash := 7
  parametersHash := 8
  owner := "research"
  deterministic := true
  createdAt := 0

/-- A report that has passed, valid until an instant. -/
def report (validUntil : UTCDateTime) : EvaluationReport where
  reportId := 9
  strategyId := "momentum"
  strategyVersion := "1.0.0"
  strategyManifestHash := manifest.manifestHash
  datasetSnapshotId := 1
  dataHash := 2
  runtimeHash := 2
  evaluationPolicyHash := 3
  asOf := 100
  windowStart := 0
  windowEnd := 100
  checks := EvaluationCheckKind.all.map fun kind => ⟨kind, .passed, [], none⟩
  metrics := [⟨"pbo", 0, "ratio", "overall"⟩]
  calibration := .calibrated
  baselineIds := ["flat/1.0.0"]
  reportArtifactRef := 5
  validUntil := validUntil
  createdAt := 150
  passed := true

def registry : StrategyRegistryEntry where
  manifest := manifest
  state := .paperEligible
  evaluationReportId := some 9
  evaluationHash := some (report 300).evaluationHash
  version := 4
  createdAt := 0
  updatedAt := 160

def signal : AlphaSignal where
  signalId := 1
  strategyId := "momentum"
  strategyVersion := "1.0.0"
  instrumentId := 1
  asOf := 200
  generatedAt := 200
  staleAt := 900
  expiresAt := 1000
  horizon := "5d"
  value := 1 / 2
  confidence := 3 / 4
  calibration := .calibrated
  direction := .long
  source := .deterministic
  strategyManifestHash := manifest.manifestHash
  datasetSnapshotId := 1
  dataHash := 2
  runtimeHash := 2
  evaluationPolicyHash := 3
  rawOutputArtifactRef := 6
  evaluationReportId := some 9
  evaluationHash := some (report 300).evaluationHash
  evidenceRefs := []
  forecastRefs := []
  reasonCodes := ["momentum"]

theorem evaluateSignalEligibility_eq_of_hash_valid :
    evaluateSignalEligibility signal registry (report 300) 250 =
      evaluateSignalEligibility signal registry (report 400) 250 :=
  evaluateSignalEligibility_eq_of_hash CodeHashing.collisionFree signal registry 250 rfl rfl
    (by decide)

/-- The same signal, registry entry, identifier and hash: one report has expired and the other has
not. -/
theorem expiry_escapes_hash :
    Hashing.CollisionFree ∧ signal.validate = .success () ∧ registry.validate = .success () ∧
      (report 300).validate = .success () ∧ (report 400).validate = .success () ∧
      (report 300).reportId = (report 400).reportId ∧
      (report 300).evaluationHash = (report 400).evaluationHash ∧
      evaluateSignalEligibility signal registry (report 300) 350 ≠
        evaluateSignalEligibility signal registry (report 400) 350 := by
  exact ⟨CodeHashing.collisionFree, by decide +kernel, by decide +kernel, by decide +kernel,
    by decide +kernel, rfl, rfl, by decide +kernel⟩

end EligibilityScenario

end StonksPaper
