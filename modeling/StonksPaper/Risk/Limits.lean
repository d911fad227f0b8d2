import StonksPaper.Risk.Covered

/-!
# The limits and what will be held

The exposure checks compare the weights and the turnover that a target states with the limits. What
the account will hold follows from the quantities, the marks and the net asset value, which the
command has as well. The limits hold for it under every policy exactly when the statements of the
target bound it, and match its net sum.
-/

namespace StonksPaper

open Chain Quantum
open scoped ExactArithmetic

/-! ## What will be held -/

section

variable (command : BuildRiskDecisionCommand) (nav : Decimal)

def heldWeight (a : TargetAllocation) : Decimal :=
  quantize (a.targetQuantity * command.markPrice a.instrumentId / nav)

def heldExposure {κ : Type} [DecidableEq κ] (classOf : RiskInstrumentState → κ) (k : κ) : Decimal :=
  ((command.known.filter fun p => classOf p.2 = k).map fun p => |heldWeight command nav p.1|).sum

def heldTurnover : Decimal :=
  quantize ((command.target.allocations.map fun a =>
    |a.deltaQuantity| * command.markPrice a.instrumentId).sum / nav)

/-- The limits of a policy hold for what will be held. -/
structure HeldWithin (policy : HardRiskPolicy) : Prop where
  single : ∀ a ∈ command.target.allocations,
    |heldWeight command nav a| ≤ policy.maxSinglePositionWeight
  sector : ∀ p ∈ command.known,
    heldExposure command nav (·.sector) p.2.sector ≤ policy.maxSectorWeight
  assetClass : ∀ p ∈ command.known,
    heldExposure command nav (·.assetClass) p.2.assetClass ≤ policy.maxAssetClassWeight
  gross : (command.target.allocations.map fun a => |heldWeight command nav a|).sum ≤
    policy.maxGrossExposure
  net : policy.minNetExposure ≤ (command.target.allocations.map (heldWeight command nav)).sum ∧
    (command.target.allocations.map (heldWeight command nav)).sum ≤ policy.maxNetExposure
  turnover : heldTurnover command nav ≤ policy.maxTurnover

/-- The weights and the turnover that a target states bound what will be held, and its net weight is
the one that will be held. -/
structure Backed : Prop where
  single : ∀ a ∈ command.target.allocations, |heldWeight command nav a| ≤
    maxOf (command.target.allocations.map fun a => |a.targetWeight|)
  sector : ∀ p ∈ command.known,
    heldExposure command nav (·.sector) p.2.sector ≤ largestExposure command (·.sector)
  assetClass : ∀ p ∈ command.known,
    heldExposure command nav (·.assetClass) p.2.assetClass ≤ largestExposure command (·.assetClass)
  gross : (command.target.allocations.map fun a => |heldWeight command nav a|).sum ≤
    (command.target.allocations.map fun a => |a.targetWeight|).sum
  net : (command.target.allocations.map (heldWeight command nav)).sum =
    (command.target.allocations.map (·.targetWeight)).sum
  turnover : heldTurnover command nav ≤ command.target.expectedTurnover

end

/-- `evaluate` approves the command under the policy. -/
def ApprovedBy [Hashing] (command : BuildRiskDecisionCommand) (policy : HardRiskPolicy) : Prop :=
  (evaluate command policy).SucceedsWith fun decision => decision.approved = true

instance [Hashing] (command : BuildRiskDecisionCommand) (policy : HardRiskPolicy) :
    Decidable (ApprovedBy command policy) := inferInstanceAs (Decidable (Attempt.SucceedsWith _ _))

def Approvable [Hashing] (command : BuildRiskDecisionCommand) : Prop :=
  ∃ policy : HardRiskPolicy, policy.validate = .success () ∧ ApprovedBy command policy

/-- Whatever policy approves the command, its limits hold for what will be held. -/
def LimitsHold [Hashing] (command : BuildRiskDecisionCommand) : Prop :=
  ∀ policy : HardRiskPolicy, policy.validate = .success () → ApprovedBy command policy →
    ∃ nav ∈ command.nav, HeldWithin command nav policy

section

variable [Hashing] {command : BuildRiskDecisionCommand} {policy : HardRiskPolicy} {nav : Decimal}

/-! ## The exposure checks of an approval -/

namespace Approves

variable (h : Approves command policy)
include h

theorem single : maxOf (command.target.allocations.map fun a => |a.targetWeight|) ≤
    policy.maxSinglePositionWeight :=
  riskCheck_passed.mp (h (singlePositionCheck command policy) (by simp [riskChecks]))

theorem sector : ¬ command.MissingInstrument ∧
    largestExposure command (·.sector) ≤ policy.maxSectorWeight :=
  riskCheck_passed.mp (h (sectorCheck command policy) (by simp [riskChecks]))

theorem assetClass : (¬ command.MissingInstrument ∧
    ∀ p ∈ command.known, p.2.assetClass ∈ policy.allowedAssetClasses) ∧
      largestExposure command (·.assetClass) ≤ policy.maxAssetClassWeight :=
  riskCheck_passed.mp (h (assetClassCheck command policy) (by simp [riskChecks]))

theorem gross : (command.target.allocations.map fun a => |a.targetWeight|).sum ≤
    policy.maxGrossExposure := by
  have hpassed := riskCheck_passed.mp (h (grossCheck command policy) (by simp [riskChecks]))
  simpa only [context_exact, Context.sum_exact, kept_exact] using hpassed

theorem net : policy.minNetExposure ≤ (command.target.allocations.map (·.targetWeight)).sum ∧
    (command.target.allocations.map (·.targetWeight)).sum ≤ policy.maxNetExposure := by
  have hpassed := riskCheck_passed.mp (h (netCheck command policy) (by simp [riskChecks]))
  simpa only [context_exact, Context.sum_exact] using hpassed

theorem turnover : command.target.expectedTurnover ≤ policy.maxTurnover :=
  riskCheck_passed.mp (h (turnoverCheck command policy) (by simp [riskChecks]))

theorem exists_nav : ∃ nav, command.nav = some nav := by
  have hpassed := riskCheck_passed.mp (h (drawdownCheck command policy) (by simp [riskChecks]))
  obtain ⟨loss, hloss, -⟩ := hpassed
  obtain ⟨nav, hnav, -⟩ := Option.map_eq_some_iff.mp hloss
  exact ⟨nav, hnav⟩

end Approves

theorem Backed.heldWithin (hbacked : Backed command nav) (h : Approves command policy) :
    HeldWithin command nav policy where
  single a ha := (hbacked.single a ha).trans h.single
  sector p hp := (hbacked.sector p hp).trans h.sector.2
  assetClass p hp := (hbacked.assetClass p hp).trans h.assetClass.2
  gross := hbacked.gross.trans h.gross
  net := by
    rw [hbacked.net]
    exact h.net
  turnover := hbacked.turnover.trans h.turnover

/-! ## When `evaluate` approves -/

omit [Hashing] in
theorem riskChecks_codes [Hashing] : (riskChecks command policy).map (·.code) =
    ["adv_participation", "asset_class", "cash_available", "daily_loss", "data_freshness",
      "drawdown", "gross_exposure", "kill_switch", "ledger_binding", "market_session",
      "net_exposure", "pending_orders", "position_available", "reservation_reconciliation",
      "sector_exposure", "signal_freshness", "single_position", "target_binding", "turnover"] := by
  have hsession : (marketSessionCheck command policy).code = "market_session" := by
    unfold marketSessionCheck
    split <;> rfl
  simp only [riskChecks, List.map_cons, List.map_nil, hsession]
  rfl

omit [Hashing] in
theorem riskCheck_reason {code : String} {passed : Prop} [Decidable passed]
    {actual limit : Option Decimal} {reason : String}
    (h : (riskCheck code passed actual limit reason).passed = true) :
    (riskCheck code passed actual limit reason).reason = none := if_pos (of_decide_eq_true h)

omit [Hashing] in
theorem marketSessionCheck_reason
    (h : (marketSessionCheck command policy).passed = true) :
    (marketSessionCheck command policy).reason = none := by
  unfold marketSessionCheck at h ⊢
  split at h
  · rename_i hopen
    rw [if_pos hopen]
    exact riskCheck_reason h
  · rename_i hopen
    rw [if_neg hopen]
    exact riskCheck_reason h

theorem riskChecks_reason :
    ∀ check ∈ riskChecks command policy, check.passed = true → check.reason = none := by
  simp only [riskChecks, List.forall_mem_cons, List.not_mem_nil, false_imp_iff, implies_true,
    and_true]
  exact ⟨riskCheck_reason, riskCheck_reason, riskCheck_reason, riskCheck_reason, riskCheck_reason,
    riskCheck_reason, riskCheck_reason, riskCheck_reason, riskCheck_reason,
    marketSessionCheck_reason, riskCheck_reason, riskCheck_reason, riskCheck_reason,
    riskCheck_reason, riskCheck_reason, riskCheck_reason, riskCheck_reason, riskCheck_reason,
    riskCheck_reason⟩

/-- A check that passes is a valid record. -/
theorem Approves.check_valid (h : Approves command policy) :
    ∀ check ∈ riskChecks command policy, check.validate = .success () := by
  intro check hcheck
  have hpassed : check.passed = true := h check hcheck
  have hreason : check.reason = none := riskChecks_reason check hcheck hpassed
  have hcode : isCheckCode check.code = true := by
    have hmem : check.code ∈ (riskChecks command policy).map (·.code) := List.mem_map_of_mem hcheck
    rw [riskChecks_codes] at hmem
    revert hmem
    generalize check.code = code
    revert code
    decide
  simp only [RiskCheck.validate, Attempt.bind_eq_success, raiseUnless_eq_success]
  refine ⟨(), hcode, (), ⟨fun _ _ => trivial, fun _ _ => trivial⟩, (), ?_, .inl hpassed⟩
  rw [hreason]
  simp

omit [Hashing] in
theorem RiskDecision.validateApproval_of_approved {decision : RiskDecision}
    (happroved : decision.approved = true) (htarget : decision.normalizedTarget ≠ none)
    (hpassed : ∀ check ∈ decision.checks, check.passed = true) :
    decision.validateApproval = .success () := by
  unfold RiskDecision.validateApproval
  rw [if_pos happroved]
  simp only [Attempt.bind_eq_success, raiseUnless_eq_success]
  exact ⟨(), htarget, hpassed⟩

theorem riskDecision_valid {decisionId : UUID} {target : PortfolioTarget} {checks : List RiskCheck}
    {version : String} {policyHash : Sha256} {decidedAt expiresAt : UTCDateTime}
    (haccount : target.accountId ≠ "") (hleast : 1 ≤ checks.length) (hmost : checks.length ≤ 256)
    (hversion : version ≠ "") (hexpiry : decidedAt < expiresAt)
    (hcodes : SortedUnique (checks.map (·.code)))
    (hpassed : ∀ check ∈ checks, check.passed = true) :
    (riskDecision decisionId target true (some target) checks version policyHash decidedAt
      expiresAt).validate = .success () := by
  simp only [RiskDecision.validate, Attempt.bind_eq_success, nonEmptyString_eq_success,
    atLeast_eq_success, maxLength_eq_success, raiseUnless_eq_success]
  refine ⟨(), haccount, (), hleast, (), hmost, (), hversion, (), hexpiry, (), hcodes, (), ?_,
    (), ?_,
    rfl⟩
  · exact RiskDecision.validateApproval_of_approved rfl (Option.some_ne_none _) hpassed
  · intro _ htarget
    cases htarget
    exact ⟨rfl, rfl, rfl⟩

omit [Hashing] in
theorem quantizesAll_exact : QuantizesAll command := ⟨trivial, fun _ _ _ _ => trivial⟩

/-- A valid command that passes every check of a valid policy is approved. -/
theorem Approves.approvedBy (h : Approves command policy) (hvalid : command.validate = .success ())
    (hpolicy : policy.validate = .success ()) : ApprovedBy command policy := by
  have haccount : command.target.accountId ≠ "" := by
    have htarget := (command.valid_of_validate hvalid).target
    simp only [PortfolioTarget.validate, Attempt.bind_eq_success,
      nonEmptyString_eq_success] at htarget
    exact htarget.choose_spec.1
  have hseconds := (HardRiskPolicy.validate_iff.mp hpolicy).valid_seconds
  have hnamed : policy.policyVersion ≠ "" := by
    have hversion := (HardRiskPolicy.validate_iff.mp hpolicy).version
    intro hempty
    rw [hempty] at hversion
    revert hversion
    decide
  have hexpiry : command.at_ < command.at_ + policy.decisionValidSeconds * 1000000 := by
    have hpos : (0 : ℤ) < policy.decisionValidSeconds * 1000000 := by omega
    exact lt_add_of_pos_right _ hpos
  have hlength : (sorted (·.code) (riskChecks command policy)).length = 19 := by
    rw [(sorted_perm _ _).length_eq, ← List.length_map (·.code), riskChecks_codes]
    rfl
  have hcodes : SortedUnique ((sorted (·.code) (riskChecks command policy)).map (·.code)) := by
    rw [sortedUnique_map_sorted, riskChecks_codes]
    decide
  have hdecision : (riskDecision command.decisionId command.target true (some command.target)
      (sorted (·.code) (riskChecks command policy)) policy.policyVersion policy.policyHash
      command.at_ (command.at_ + policy.decisionValidSeconds * 1000000)).validate = .success () :=
    riskDecision_valid haccount (by omega) (by omega) hnamed hexpiry hcodes
      fun check hcheck => h check (mem_sorted.mp hcheck)
  refine ⟨riskDecision command.decisionId command.target true (some command.target)
    (sorted (·.code) (riskChecks command policy)) policy.policyVersion policy.policyHash
    command.at_ (command.at_ + policy.decisionValidSeconds * 1000000), ?_, rfl⟩
  simp only [evaluate, RiskDecision.create, Attempt.bind_eq_success, modelValidate_eq_success,
    Attempt.forM_eq_success, if_pos h, decide_eq_true h]
  exact ⟨(), Attempt.require_of quantizesAll_exact _, (),
    fun check hcheck => h.check_valid check (mem_sorted.mp hcheck), hdecision, trivial⟩

/-! ## Tighter policies -/

omit [Hashing] in
theorem maxOf_nonneg {xs : List Decimal} (h : ∀ x ∈ xs, 0 ≤ x) : 0 ≤ maxOf xs := by
  cases xs with
  | nil => exact le_rfl
  | cons x xs => exact le_foldl_max (h x (List.mem_cons_self ..))

omit [Hashing] in
theorem largestExposure_nonneg {κ : Type} [DecidableEq κ] (classOf : RiskInstrumentState → κ) :
    0 ≤ largestExposure command classOf := by
  refine maxOf_nonneg fun x hx => ?_
  obtain ⟨p, -, rfl⟩ := List.mem_map.mp hx
  simp only [exposure, context_exact, Context.sum_exact, kept_exact]
  refine List.sum_nonneg fun y hy => ?_
  obtain ⟨q, -, rfl⟩ := List.mem_map.mp hy
  exact abs_nonneg _

/-- The policy with its exposure limits drawn to within `slack` of what the target states. -/
def HardRiskPolicy.tightened (self : HardRiskPolicy) (command : BuildRiskDecisionCommand)
    (slack : Decimal) : HardRiskPolicy :=
  let target := command.target
  let net := (target.allocations.map (·.targetWeight)).sum
  { self with
    maxSinglePositionWeight := min self.maxSinglePositionWeight
      (maxOf (target.allocations.map fun a => |a.targetWeight|) + slack)
    maxSectorWeight := min self.maxSectorWeight (largestExposure command (·.sector) + slack)
    maxAssetClassWeight :=
      min self.maxAssetClassWeight (largestExposure command (·.assetClass) + slack)
    maxGrossExposure := min self.maxGrossExposure
      ((target.allocations.map fun a => |a.targetWeight|).sum + slack)
    minNetExposure := net
    maxNetExposure := min self.maxNetExposure (net + slack)
    maxTurnover := min self.maxTurnover (target.expectedTurnover + slack) }

variable {slack : Decimal}

theorem Approves.tightened (h : Approves command policy) (hslack : 0 < slack) :
    Approves command (policy.tightened command slack) := by
  have hrest := h
  unfold Approves riskChecks at hrest ⊢
  simp only [List.forall_mem_cons] at hrest ⊢
  obtain ⟨hadv, -, hcash, hloss, hdata, hdrawdown, -, hswitch, hledger, hsession, -, hpending,
    hposition, hreservation, -, hsignal, -, hbinding, -, hnone⟩ := hrest
  refine ⟨hadv, riskCheck_passed.mpr ?_, hcash, hloss, hdata, hdrawdown, riskCheck_passed.mpr ?_,
    hswitch, hledger, hsession, riskCheck_passed.mpr ?_, hpending, hposition, hreservation,
    riskCheck_passed.mpr ?_, hsignal, riskCheck_passed.mpr ?_, hbinding, riskCheck_passed.mpr ?_,
    hnone⟩
  · exact ⟨h.assetClass.1, le_min h.assetClass.2 (by linarith)⟩
  · simp only [context_exact, Context.sum_exact, kept_exact]
    exact le_min h.gross (by linarith)
  · simp only [context_exact, Context.sum_exact]
    exact ⟨le_rfl, le_min h.net.2 (by linarith)⟩
  · exact ⟨h.sector.1, le_min h.sector.2 (by linarith)⟩
  · simp only [kept_exact]
    exact le_min h.single (by linarith)
  · exact le_min h.turnover (by linarith)

theorem HardRiskPolicy.Valid.tightened (hpolicy : policy.Valid) (h : Approves command policy)
    (hvalid : command.Valid) (hslack : 0 < slack) : (policy.tightened command slack).Valid := by
  have hweights : ∀ x ∈ command.target.allocations.map fun a => |a.targetWeight|, 0 ≤ x := by
    intro x hx
    obtain ⟨a, -, rfl⟩ := List.mem_map.mp hx
    exact abs_nonneg _
  have hsingle := maxOf_nonneg hweights
  have hgross := List.sum_nonneg hweights
  have hsector : 0 ≤ largestExposure command (·.sector) := largestExposure_nonneg _
  have hclass : 0 ≤ largestExposure command (·.assetClass) := largestExposure_nonneg _
  have hnet := hpolicy.net.1.trans h.net.1
  have hturnover : 0 ≤ command.target.expectedTurnover := by
    have htarget := hvalid.target
    simp only [PortfolioTarget.validate, Attempt.bind_eq_success, nonNegativeDecimal_eq_success]
      at htarget
    obtain ⟨_, -, _, -, _, -, _, -, _, -, _, hnonneg, -⟩ := htarget
    exact hnonneg
  exact
    { hpolicy with
      single := ⟨lt_min hpolicy.single.1 (by linarith), (min_le_left ..).trans hpolicy.single.2⟩
      sector := ⟨lt_min hpolicy.sector.1 (by linarith), (min_le_left ..).trans hpolicy.sector.2⟩
      asset_class :=
        ⟨lt_min hpolicy.asset_class.1 (by linarith), (min_le_left ..).trans hpolicy.asset_class.2⟩
      gross := lt_min hpolicy.gross (by linarith)
      net := ⟨hnet, lt_min hpolicy.net.2 (by linarith)⟩
      net_range := le_min h.net.2 (le_add_of_nonneg_right hslack.le)
      turnover := lt_min hpolicy.turnover (by linarith) }

/-! ## The limits under every policy -/

theorem ApprovedBy.approves (h : ApprovedBy command policy) : Approves command policy := by
  obtain ⟨decision, hdecision, happroved⟩ := h
  exact (evaluate_approved hdecision happroved).1

end

/-! ## A position that the target states as nothing -/

section

open scoped CodeHashing

namespace Scenario

/-- Ninety units at a price of ten beside a hundred in cash, which stay; the target states a weight
of zero for them. -/
def understated : BuildRiskDecisionCommand :=
  riskCommand 100 1000 [⟨1, 90, 90, 0, 1⟩] [(⟨1, 90, 90, 0, 1, 0, []⟩, 10)] 0 0

end Scenario

theorem understated_approved : Scenario.understated.validate = .success () ∧
    Scenario.riskPolicy.validate = .success () ∧
    ApprovedBy Scenario.understated Scenario.riskPolicy := by
  decide +kernel

end

end StonksPaper
