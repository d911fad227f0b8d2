import StonksPaper.Domain.Portfolio

/-!
# Risk decisions

`risk.py`: a decision binds an authorised target to exact account and portfolio sequences.
-/

namespace StonksPaper

open Chain

structure RiskCheck where
  code : String
  passed : Bool
  actual : Option Decimal
  limit : Option Decimal
  reason : Option String
deriving DecidableEq

instance : Dump RiskCheck :=
  ⟨fun c => .record "RiskCheck"
    [dump c.code, dump c.passed, dump c.actual, dump c.limit, dump c.reason]⟩

/-- `^[a-z][a-z0-9_.-]{0,127}$`. -/
def isCheckCode (code : String) : Bool :=
  match code.toList with
  | [] => false
  | c :: cs => ('a' ≤ c && c ≤ 'z') && cs.length ≤ 127 && cs.all fun d =>
      ('a' ≤ d && d ≤ 'z') || ('0' ≤ d && d ≤ '9') || d == '_' || d == '.' || d == '-'

def RiskCheck.validate [Arithmetic] (self : RiskCheck) : Call Unit := do
  raiseUnless (isCheckCode self.code = true) "String should match the check code pattern"
  raiseUnless ((∀ figure ∈ self.actual, Arithmetic.context.Below (10 ^ 65) figure) ∧
    ∀ figure ∈ self.limit, Arithmetic.context.Below (10 ^ 65) figure)
    "Decimal input exceeds supported bounds"
  raiseUnless (∀ text ∈ self.reason, text.length ≤ 256)
    "String should have at most 256 characters"
  raiseUnless (self.passed ∨ ∃ text ∈ self.reason, ¬ isBlank text)
    "failed risk check requires a reason"

structure RiskDecision where
  decisionId : UUID
  portfolioTargetId : UUID
  inputTargetHash : Sha256
  accountId : AccountId
  accountAggregateSequence : ℕ
  portfolioSequence : ℕ
  approved : Bool
  normalizedTarget : Option PortfolioTarget
  checks : List RiskCheck
  policyVersion : String
  policyHash : Sha256
  decidedAt : UTCDateTime
  expiresAt : UTCDateTime
  decisionHash : Sha256
deriving DecidableEq

def RiskDecision.expectedDecisionHash [Hashing] (self : RiskDecision) : Sha256 :=
  stablePayloadHash <| .record "RiskDecision"
    [dump self.decisionId, dump self.portfolioTargetId, dump self.inputTargetHash,
      dump self.accountId, dump self.accountAggregateSequence, dump self.portfolioSequence,
      dump self.approved, dump self.normalizedTarget, dump self.checks,
      dump self.policyVersion, dump self.policyHash, dump self.decidedAt, dump self.expiresAt]

/-- `_validate_normalized_target`. -/
def RiskDecision.normalizedTargetBound (self : RiskDecision) : Prop :=
  ∀ target ∈ self.normalizedTarget, target.accountId = self.accountId ∧
    target.accountAggregateSequence = self.accountAggregateSequence ∧
    target.portfolioSequence = self.portfolioSequence

instance (self : RiskDecision) : Decidable self.normalizedTargetBound :=
  inferInstanceAs (Decidable (∀ _ ∈ self.normalizedTarget, _))

/-- An approval has a target and passed every check; a rejection failed one. -/
def RiskDecision.validateApproval (self : RiskDecision) : Call Unit :=
  if self.approved then do
    raiseUnless (self.normalizedTarget ≠ none) "approved decision requires a normalized target"
    raiseUnless (∀ check ∈ self.checks, check.passed)
      "approved decision requires every risk check to pass"
  else
    raiseUnless (¬ ∀ check ∈ self.checks, check.passed)
      "rejected decision requires at least one failed risk check"

def RiskDecision.validate [Hashing] (self : RiskDecision) : Call Unit := do
  nonEmptyString self.accountId
  atLeast 1 self.checks.length
  maxLength 256 self.checks.length
  nonEmptyString self.policyVersion
  raiseUnless (self.decidedAt < self.expiresAt) "risk decision expiry must be after decision time"
  raiseUnless (SortedUnique (self.checks.map (·.code)))
    "risk checks must be unique and stably sorted"
  self.validateApproval
  raiseUnless self.normalizedTargetBound
    "normalized target must preserve account sequence binding"
  raiseUnless (self.decisionHash = self.expectedDecisionHash)
    "risk decision hash does not match payload"

/-- The decision that `RiskDecision.create` builds, before its validators run. -/
def riskDecision [Hashing] (decisionId : UUID) (target : PortfolioTarget) (approved : Bool)
    (normalizedTarget : Option PortfolioTarget) (checks : List RiskCheck) (policyVersion : String)
    (policyHash : Sha256) (decidedAt expiresAt : UTCDateTime) : RiskDecision :=
  let provisional : RiskDecision :=
    { decisionId, approved, normalizedTarget, checks, policyVersion, policyHash, decidedAt
      expiresAt
      portfolioTargetId := target.targetId
      inputTargetHash := target.calculationHash
      accountId := target.accountId
      accountAggregateSequence := target.accountAggregateSequence
      portfolioSequence := target.portfolioSequence
      decisionHash := 0 }
  { provisional with decisionHash := provisional.expectedDecisionHash }

def RiskDecision.create [Hashing] (decisionId : UUID) (target : PortfolioTarget) (approved : Bool)
    (normalizedTarget : Option PortfolioTarget) (checks : List RiskCheck) (policyVersion : String)
    (policyHash : Sha256) (decidedAt expiresAt : UTCDateTime) : Call RiskDecision :=
  modelValidate RiskDecision.validate <| riskDecision decisionId target approved normalizedTarget
    checks policyVersion policyHash decidedAt expiresAt

def RiskDecision.isCurrent (self : RiskDecision) (accountAggregateSequence portfolioSequence : ℕ)
    (at_ : UTCDateTime) : Prop :=
  self.approved ∧ self.decidedAt ≤ at_ ∧ at_ < self.expiresAt ∧
    accountAggregateSequence = self.accountAggregateSequence ∧
    portfolioSequence = self.portfolioSequence

instance (self : RiskDecision) (s p : ℕ) (at_ : UTCDateTime) : Decidable (self.isCurrent s p at_) :=
  inferInstanceAs (Decidable (_ ∧ _))

def RiskDecision.authorizedTargetHash (self : RiskDecision) : Option Sha256 :=
  self.normalizedTarget.map (·.calculationHash)

end StonksPaper
