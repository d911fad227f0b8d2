import Mathlib.Data.List.Induction
import StonksPaper.Strategies.Audit

/-!
# What trading eligibility rests on

A strategy is in a state that lets it trade only through the transition that its row shows, and
that transition has read a stored report which passed every check and was still valid. The report
that a row names cannot be replaced, so an eligible signal rests on the same report.
-/

namespace StonksPaper

open Chain

section

variable [Hashing] [ReportColumn] {w w' : StrategyRegistry} {row : StrategyRegistryRow}
  {report : EvaluationReport} {commands : List StrategyRegistry.Command}

/-! ## Passed evaluations -/

/-- Every mandatory check has passed, and the confidence is calibrated. -/
structure EvaluationReport.PassedWhole (self : EvaluationReport) : Prop where
  passed : self.passed = true
  checks : ∀ kind : EvaluationCheckKind, ∃ check ∈ self.checks, check.kind = kind ∧
    check.status = .passed
  every : ∀ check ∈ self.checks, check.status = .passed
  calibrated : self.calibration = .calibrated

omit [Hashing] [ReportColumn] in
theorem EvaluationCheckKind.mem_all (kind : EvaluationCheckKind) : kind ∈ all := by
  cases kind <;> decide

omit [Hashing] [ReportColumn] in
theorem EvaluationReport.passedWhole (hvalid : report.validate = .success ())
    (hpassed : report.passed = true) : report.PassedWhole := by
  simp only [EvaluationReport.validate, Attempt.bind_eq_success, raiseUnless_eq_success] at hvalid
  have hmandatory : ∀ kind ∈ EvaluationCheckKind.all, kind ∈ report.checks.map (·.kind) := by
    tauto
  have hintegrity : report.passed = true → (∀ check ∈ report.checks, check.status = .passed) ∧
      report.calibration = .calibrated := by tauto
  obtain ⟨hevery, hcalibrated⟩ := hintegrity hpassed
  refine ⟨hpassed, fun kind => ?_, hevery, hcalibrated⟩
  obtain ⟨check, hcheck, hkind⟩ := List.mem_map.mp (hmandatory kind kind.mem_all)
  exact ⟨check, hcheck, hkind, hevery check hcheck⟩

namespace StrategyRegistry

/-! ## Promotions -/

/-- The transition that gave the row what it shows has read the report while it was valid. -/
def PromotedBy (commands : List Command) (row : StrategyRegistryRow) (report : EvaluationReport) :
    Prop :=
  ∃ before request clock after, commands = before ++ .transition request clock :: after ∧
    (∃ result posted, (reached before).transition request clock = .success (result, posted) ∧
      result.entry = row.entry) ∧
    clock.validationAt < report.validUntil

/-- The strategy may trade on this report. -/
structure Backs (commands : List Command) (row : StrategyRegistryRow) (report : EvaluationReport) :
    Prop where
  stored : report.row ∈ (reached commands).reports
  reportId : row.evaluationReportId = some report.reportId
  evaluationHash : row.evaluationHash = some report.evaluationHash
  strategy : (report.strategyId, report.strategyVersion) = row.key
  manifest : report.strategyManifestHash = row.manifest.manifestHash
  runtime : report.runtimeHash = row.manifest.runtimeHash
  passed : report.PassedWhole
  promoted : PromotedBy commands row report

theorem reached_concat (commands : List Command) (command : Command) :
    reached (commands ++ [command]) = (reached commands).step command := Run.run_append ..

theorem Backs.later (h : Backs commands row report) (command : Command)
    (hreports : ∀ stored ∈ (reached commands).reports,
      stored ∈ (reached (commands ++ [command])).reports) :
    Backs (commands ++ [command]) row report := by
  obtain ⟨before, request, clock, after, heq, hresult, hvalid⟩ := h.promoted
  refine { h with
    stored := hreports _ h.stored
    promoted := ⟨before, request, clock, after ++ [command], ?_, hresult, hvalid⟩ }
  rw [heq, List.append_assoc, List.cons_append]

/-- A transition into a state that lets a strategy trade backs its row. -/
theorem Promotion.backs {request : StrategyTransitionRequest} {clock : TransitionClock}
    {current : StrategyRegistryRow}
    (hanswered : ∃ result posted, (reached commands).transition request clock =
      .success (result, posted) ∧ result.entry = row.entry)
    (h : (reached commands).Promotion request clock current row
      (reached (commands ++ [.transition request clock])))
    (hstate : row.state = .shadow ∨ row.state = .paperEligible) :
    ∃ report, Backs (commands ++ [.transition request clock]) row report := by
  have hk := kept_reached commands
  obtain ⟨previous, -, hresult⟩ := h.event
  obtain ⟨found, hrests, hgated, hrow⟩ := h.report
  have htarget : row.state = request.targetState := by rw [hrow]; rfl
  rw [htarget] at hstate
  cases hfound : found with
  | none => exact absurd hfound (hgated hstate)
  | some report =>
      obtain ⟨⟨reportId, -, stored, hstored, hpayload⟩, hbound, hallows⟩ := hrests report hfound
      have hmem : stored ∈ (reached commands).reports := Table.mem_of_get hstored
      obtain ⟨hstoredRow, hvalid⟩ := hk.valid stored hmem
      rw [hpayload] at hstoredRow hvalid
      have hallowed : report.passed = true ∧ clock.validationAt < report.validUntil := by
        rcases hstate with hstate | hstate
        · rwa [hstate] at hallows
        · rwa [hstate] at hallows
      rw [hfound] at hrow
      have hmanifest : row.manifest = current.manifest := by rw [hrow]; rfl
      have hhash := hk.manifest_hash current (strategy_eq_some h.found).1
      obtain ⟨hid, hversion, hmanifestHash, hruntime⟩ := hbound
      refine ⟨report, ?_, ?_, ?_, ?_, ?_, ?_, report.passedWhole hvalid hallowed.1,
        ⟨commands, request, clock, [], rfl, hanswered, hallowed.2⟩⟩
      · rw [hresult, ← hstoredRow]
        exact hmem
      · rw [hrow]
        rfl
      · rw [hrow]
        rfl
      · show (report.strategyId, report.strategyVersion) =
          (row.manifest.strategyId, row.manifest.strategyVersion)
        rw [hmanifest, hid, hversion]
      · rw [hmanifest, ← hhash]
        exact hmanifestHash
      · rw [hmanifest]
        exact hruntime

/-- The strategies that may trade are backed by a report. -/
theorem backs_reached (commands : List Command) : ∀ row ∈ (reached commands).strategies,
    row.state = .shadow ∨ row.state = .paperEligible → ∃ report, Backs commands row report := by
  induction commands using List.reverseRecOn with
  | nil =>
      intro row hrow
      cases hrow
  | append_singleton commands command ih =>
      intro row hrow hstate
      have hstep := change_step (reached commands) command
      rw [← reached_concat] at hstep
      have hkept {row : StrategyRegistryRow} (hrow : row ∈ (reached commands).strategies)
          (hstate : row.state = .shadow ∨ row.state = .paperEligible)
          (hreports : ∀ stored ∈ (reached commands).reports,
            stored ∈ (reached (commands ++ [command])).reports) :
          ∃ report, Backs (commands ++ [command]) row report := by
        obtain ⟨report, hbacks⟩ := ih row hrow hstate
        exact ⟨report, hbacks.later command hreports⟩
      cases hstep with
      | unchanged hstrategies hreports hevents =>
          rw [hstrategies] at hrow
          exact hkept hrow hstate fun stored hstored => by rwa [hreports]
      | registered manifest now hregistration =>
          rw [hregistration.result] at hrow
          rcases List.mem_append.mp hrow with hrow | hrow
          · exact hkept hrow hstate fun stored hstored => by rwa [hregistration.result]
          · -- a registered strategy is a draft
            rw [List.mem_singleton.mp hrow] at hstate
            rcases hstate with hno | hno
            · cases hno
            · cases hno
      | stored report hstorage =>
          rw [hstorage.result] at hrow
          refine hkept hrow hstate fun stored hstored => ?_
          rw [hstorage.result]
          exact List.mem_append_left _ hstored
      | promoted request clock current updated heq hanswered hpromotion =>
          subst heq
          obtain ⟨previous, -, hresult⟩ := hpromotion.event
          rw [hresult] at hrow
          obtain ⟨old, hold, hcases⟩ := Table.mem_update.mp hrow
          by_cases hkey : old.key = current.key
          · rw [if_pos hkey] at hcases
            subst hcases
            exact hpromotion.backs hanswered hstate
          · rw [if_neg hkey] at hcases
            subst hcases
            exact hkept hold hstate fun stored hstored => by rwa [hresult]

/-! ## Eligible signals -/

omit [ReportColumn] in
/-- What an eligible signal has been checked for. -/
theorem eligible_cases {candidate : PortfolioSignalCandidate} {at_ : UTCDateTime}
    (h : candidate.Eligible at_) : candidate.registry.state = .paperEligible ∧
      at_ < candidate.evaluation.validUntil ∧
      candidate.signal.BoundToEvaluation candidate.registry candidate.evaluation := by
  unfold PortfolioSignalCandidate.Eligible ineligibilityReason at h
  -- each check of the chain has been passed
  split at h
  · cases h
  split at h
  · cases h
  split at h
  · cases h
  split at h
  · cases h
  rename_i hstate
  split at h
  · cases h
  split at h
  · cases h
  split at h
  · cases h
  rename_i hvalid
  split at h
  · cases h
  rename_i hbound
  exact ⟨not_not.mp hstate, not_le.mp hvalid, not_not.mp hbound⟩

/-- A strategy's right to trade, in every state that the registry reaches. -/
structure EligibilityBacked (commands : List Command) : Prop where
  /-- The events of each strategy are a chain that ends in what its row shows. -/
  audited : ∀ row ∈ (reached commands).strategies, (reached commands).Audited row
  /-- A strategy that may trade is backed by the report that its promotion has read. -/
  backed : ∀ row ∈ (reached commands).strategies,
    row.state = .shadow ∨ row.state = .paperEligible → ∃ report, Backs commands row report
  /-- A signal is eligible only on that report, and only while it is valid. -/
  eligible : ∀ row ∈ (reached commands).strategies, ∀ stored ∈ (reached commands).reports,
    ∀ signal at_, PortfolioSignalCandidate.Eligible ⟨signal, row.entry, stored.payload⟩ at_ →
      Backs commands row stored.payload ∧ at_ < stored.payload.validUntil

theorem eligibilityBacked_reached (commands : List Command) : EligibilityBacked commands := by
  have hk := kept_reached commands
  refine ⟨hk.audited, backs_reached commands, ?_⟩
  intro row hrow stored hstored signal at_ heligible
  obtain ⟨hstate, hvalid, hbound⟩ := eligible_cases heligible
  obtain ⟨report, hbacks⟩ := backs_reached commands row hrow (.inr hstate)
  -- the row names one report, which is stored once
  have hreportId : some stored.payload.reportId = some report.reportId :=
    hbound.2.2.1.symm.trans hbacks.reportId
  have hrowId : stored.reportId = stored.payload.reportId := by
    rw [(hk.valid stored hstored).1]
    rfl
  have hsame : stored = report.row :=
    hk.reports_unique.eq hstored hbacks.stored (hrowId.trans (Option.some.inj hreportId))
  have hpayload : stored.payload = report := by
    rw [hsame]
    rfl
  rw [hpayload] at hvalid ⊢
  exact ⟨hbacks, hvalid⟩

end StrategyRegistry

end

end StonksPaper
