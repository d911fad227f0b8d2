import StonksPaper.Risk.Limits

/-!
# Tighter policies

Of two policies one is tighter when none of its limits leaves more room. A check that a command
passes under the tighter policy passes under the other, so the other approves whatever the tighter
one approves.
-/

namespace StonksPaper

open Chain
open scoped ExactArithmetic

/-- No limit of the first policy leaves more room than that of the second. -/
structure HardRiskPolicy.Tighter (p q : HardRiskPolicy) : Prop where
  dataAge : p.maxDataAgeSeconds ≤ q.maxDataAgeSeconds
  switchAge : p.maxKillSwitchAgeSeconds ≤ q.maxKillSwitchAgeSeconds
  classes : ∀ c ∈ p.allowedAssetClasses, c ∈ q.allowedAssetClasses
  pending : p.maxPendingOrders ≤ q.maxPendingOrders
  single : p.maxSinglePositionWeight ≤ q.maxSinglePositionWeight
  sector : p.maxSectorWeight ≤ q.maxSectorWeight
  assetClass : p.maxAssetClassWeight ≤ q.maxAssetClassWeight
  gross : p.maxGrossExposure ≤ q.maxGrossExposure
  minNet : q.minNetExposure ≤ p.minNetExposure
  maxNet : p.maxNetExposure ≤ q.maxNetExposure
  turnover : p.maxTurnover ≤ q.maxTurnover
  adv : p.maxAdvParticipation ≤ q.maxAdvParticipation
  drawdown : p.maxDrawdown ≤ q.maxDrawdown
  dailyLoss : p.maxDailyLoss ≤ q.maxDailyLoss
  session : q.requireMarketOpen = true → p.requireMarketOpen = true

def RiskCheck.Admits (c c' : RiskCheck) : Prop :=
  c.code = c'.code ∧ (c.passed = true → c'.passed = true)

section

variable {command : BuildRiskDecisionCommand} {p q : HardRiskPolicy}

theorem RiskCheck.Admits.refl (c : RiskCheck) : c.Admits c := ⟨rfl, id⟩

theorem riskCheck_admits {code : String} {passed passed' : Prop} [Decidable passed]
    [Decidable passed'] {actual actual' limit limit' : Option Decimal} {reason reason' : String}
    (h : passed → passed') : (riskCheck code passed actual limit reason).Admits
      (riskCheck code passed' actual' limit' reason') := by
  refine ⟨rfl, fun hpassed => ?_⟩
  exact riskCheck_passed.mpr (h (riskCheck_passed.mp hpassed))

theorem all_passed_of_admits {checks checks' : List RiskCheck}
    (h : List.Forall₂ RiskCheck.Admits checks checks')
    (hall : ∀ check ∈ checks, check.passed = true) : ∀ check ∈ checks', check.passed = true := by
  induction h with
  | nil => exact hall
  | cons hadmits _ ih =>
      rw [List.forall_mem_cons] at hall ⊢
      exact ⟨hadmits.2 hall.1, ih hall.2⟩

/-! ## The checks -/

namespace HardRiskPolicy.Tighter

variable (h : p.Tighter q)
include h

theorem dataCheck : (dataCheck command p).Admits (dataCheck command q) := by
  refine riskCheck_admits fun hdata => ⟨hdata.1, fun id hid => ?_⟩
  obtain ⟨instrument, hinstrument, hfuture, hage, hrest⟩ := hdata.2 id hid
  have hlimit : (p.maxDataAgeSeconds : ℚ) ≤ q.maxDataAgeSeconds := by exact_mod_cast h.dataAge
  exact ⟨instrument, hinstrument, hfuture, hage.trans hlimit, hrest⟩

theorem killSwitchCheck : (killSwitchCheck command p).Admits (killSwitchCheck command q) := by
  have hlimit : (p.maxKillSwitchAgeSeconds : ℚ) ≤ q.maxKillSwitchAgeSeconds := by
    exact_mod_cast h.switchAge
  exact riskCheck_admits fun hswitch => ⟨hswitch.1, hswitch.2.1.trans hlimit, hswitch.2.2⟩

theorem marketSessionCheck :
    (marketSessionCheck command p).Admits (marketSessionCheck command q) := by
  unfold StonksPaper.marketSessionCheck
  by_cases hq : q.requireMarketOpen = true
  · rw [if_pos hq, if_pos (h.session hq)]
    exact .refl _
  · rw [if_neg hq]
    refine ⟨?_, fun _ => riskCheck_passed.mpr trivial⟩
    split <;> rfl

theorem advCheck : (advCheck command p).Admits (advCheck command q) :=
  riskCheck_admits fun hadv => ⟨hadv.1, hadv.2.trans h.adv⟩

theorem assetClassCheck : (assetClassCheck command p).Admits (assetClassCheck command q) :=
  riskCheck_admits fun hclass =>
    ⟨⟨hclass.1.1, fun pair hpair => h.classes _ (hclass.1.2 pair hpair)⟩,
      hclass.2.trans h.assetClass⟩

theorem sectorCheck : (sectorCheck command p).Admits (sectorCheck command q) :=
  riskCheck_admits fun hsector => ⟨hsector.1, hsector.2.trans h.sector⟩

theorem netCheck : (netCheck command p).Admits (netCheck command q) :=
  riskCheck_admits fun hnet => ⟨h.minNet.trans hnet.1, hnet.2.trans h.maxNet⟩

theorem drawdownCheck : (drawdownCheck command p).Admits (drawdownCheck command q) := by
  refine riskCheck_admits fun hdrawdown => ?_
  obtain ⟨loss, hloss, hle⟩ := hdrawdown
  exact ⟨loss, hloss, hle.trans h.drawdown⟩

theorem dailyLossCheck : (dailyLossCheck command p).Admits (dailyLossCheck command q) := by
  refine riskCheck_admits fun hdaily => ?_
  obtain ⟨loss, hloss, hle⟩ := hdaily
  exact ⟨loss, hloss, hle.trans h.dailyLoss⟩

theorem riskChecks [Hashing] :
    List.Forall₂ RiskCheck.Admits (riskChecks command p) (riskChecks command q) :=
  .cons h.advCheck <| .cons h.assetClassCheck <| .cons (.refl _) <| .cons h.dailyLossCheck <|
  .cons h.dataCheck <| .cons h.drawdownCheck <|
  .cons (riskCheck_admits fun hgross => hgross.trans h.gross) <| .cons h.killSwitchCheck <|
  .cons (.refl _) <| .cons h.marketSessionCheck <| .cons h.netCheck <|
  .cons (riskCheck_admits fun hcount => hcount.trans h.pending) <| .cons (.refl _) <|
  .cons (.refl _) <| .cons h.sectorCheck <| .cons (.refl _) <|
  .cons (riskCheck_admits fun hmaximum => hmaximum.trans h.single) <| .cons (.refl _) <|
  .cons (riskCheck_admits fun hturnover => hturnover.trans h.turnover) .nil

end HardRiskPolicy.Tighter

/-! ## The decision -/

variable [Hashing]

omit [Hashing] in
theorem sorted_of_codes {checks : List RiskCheck}
    (h : (checks.map (·.code)).Pairwise (· ≤ ·)) : sorted (·.code) checks = checks :=
  sorted_of_pairwise (List.pairwise_map.mp h)

theorem riskChecks_ordered : ((riskChecks command p).map (·.code)).Pairwise (· ≤ ·) := by
  rw [riskChecks_codes]
  decide +kernel

theorem sorted_riskChecks : sorted (·.code) (riskChecks command p) = riskChecks command p :=
  sorted_of_codes riskChecks_ordered

theorem riskDecision_checks {decisionId : UUID} {target : PortfolioTarget} {approved : Bool}
    {normalizedTarget : Option PortfolioTarget} {checks : List RiskCheck} {policyVersion : String}
    {policyHash : Sha256} {decidedAt expiresAt : UTCDateTime} :
    (riskDecision decisionId target approved normalizedTarget checks policyVersion policyHash
      decidedAt expiresAt).checks = checks := rfl

theorem evaluate_checks {decision : RiskDecision} (h : evaluate command p = .success decision) :
    decision.checks = riskChecks command p := by
  simp only [evaluate, sorted_riskChecks, RiskDecision.create, Attempt.bind_eq_success,
    modelValidate_eq_success] at h
  obtain ⟨_, -, _, -, -, hdecision⟩ := h
  rw [← hdecision, riskDecision_checks]

theorem Approves.of_tighter (htighter : p.Tighter q) (h : Approves command p) :
    Approves command q :=
  all_passed_of_admits htighter.riskChecks h

end

section

open scoped CodeHashing

def Scenario.looserPolicy : HardRiskPolicy :=
  { Scenario.riskPolicy with maxTurnover := 3 / 5 }

end

end StonksPaper
