import Mathlib.Data.Prod.Lex
import StonksPaper.Base.Context
import StonksPaper.Base.Table
import StonksPaper.Domain.Portfolio
import StonksPaper.Domain.Signal

/-!
# Inputs of portfolio construction

`portfolio_construction.py`: the policy, the marks and the command that a target is built from. The
validators that calculate do so in a context of `decimal`.
-/

namespace StonksPaper

open Chain

structure PortfolioStrategyWeight where
  strategyId : String
  strategyVersion : String
  weight : Decimal
deriving DecidableEq

def PortfolioStrategyWeight.validate (self : PortfolioStrategyWeight) : Call Unit := do
  checkCode self.strategyId
  versionText self.strategyVersion
  unitDecimal self.weight
  raiseUnless (0 < self.weight) "portfolio strategy weight must be positive"

def PortfolioStrategyWeight.key (self : PortfolioStrategyWeight) : String × String :=
  (self.strategyId, self.strategyVersion)

instance : Dump PortfolioStrategyWeight :=
  ⟨fun w => .record "PortfolioStrategyWeight"
    [dump w.strategyId, dump w.strategyVersion, dump w.weight]⟩

structure PortfolioPolicy where
  policyVersion : String
  strategyWeights : List PortfolioStrategyWeight
  deadband : Decimal
  shrinkage : Decimal
  turnoverPenalty : Decimal
  maxPositionWeight : Decimal
  estimatedCostBps : Decimal
  currencyQuantum : Decimal
  longOnly : Bool
deriving DecidableEq

def PortfolioPolicy.validate (context : Context) (self : PortfolioPolicy) : Call Unit := do
  versionText self.policyVersion
  atLeast 1 self.strategyWeights.length
  maxLength 256 self.strategyWeights.length
  self.strategyWeights.forM (·.validate)
  unitDecimal self.deadband
  unitDecimal self.shrinkage
  unitDecimal self.turnoverPenalty
  unitDecimal self.maxPositionWeight
  nonNegativeDecimal self.estimatedCostBps
  positiveDecimal self.currencyQuantum
  raiseUnless (self.longOnly = true) "Input should be True"
  raiseUnless (SortedUnique (self.strategyWeights.map fun w => toLex w.key))
    "portfolio strategy weights must be unique and sorted"
  raiseUnless (context.sum (self.strategyWeights.map (·.weight)) = 1)
    "portfolio strategy weight sum must equal one"
  raiseUnless (0 < self.shrinkage ∧ 0 < self.maxPositionWeight)
    "shrinkage and position bound must be positive"
  raiseUnless (self.estimatedCostBps ≤ 10000) "estimated cost bps cannot exceed 10000"

def PortfolioPolicy.policyHash [Hashing] (self : PortfolioPolicy) : Sha256 :=
  stablePayloadHash <| .record "PortfolioPolicy"
    [dump self.policyVersion, dump self.strategyWeights, dump self.deadband, dump self.shrinkage,
      dump self.turnoverPenalty, dump self.maxPositionWeight, dump self.estimatedCostBps,
      dump self.currencyQuantum, dump self.longOnly]

/-- What the validator of a policy guarantees of the fields that a target is calculated from. -/
structure PortfolioPolicy.Valid (policy : PortfolioPolicy) : Prop where
  weights_pos : ∀ w ∈ policy.strategyWeights, 0 < w.weight
  weights_unique : Table.Unique PortfolioStrategyWeight.key policy.strategyWeights
  deadband_nonneg : 0 ≤ policy.deadband
  shrinkage_pos : 0 < policy.shrinkage
  penalty_le : policy.turnoverPenalty ≤ 1
  bound_pos : 0 < policy.maxPositionWeight
  quantum_pos : 0 < policy.currencyQuantum

theorem PortfolioPolicy.valid_of_validate {context : Context} {policy : PortfolioPolicy}
    (h : policy.validate context = .success ()) : policy.Valid := by
  simp only [PortfolioPolicy.validate, PortfolioStrategyWeight.validate, Attempt.bind_eq_success,
    Attempt.forM_eq_success, unitDecimal_eq_success, positiveDecimal_eq_success,
    raiseUnless_eq_success] at h
  obtain ⟨_, -, _, -, _, -, _, hweights, _, hdeadband, _, -, _, hpenalty, _, -, _, -, _, hquantum,
    _, -, _, hsorted, _, -, _, hpositive, -⟩ := h
  have hunique : ((policy.strategyWeights.map (·.key)).map toLex).Nodup := by
    rw [List.map_map]
    exact hsorted.2
  exact
    { weights_pos := fun w hw => by
        obtain ⟨_, -, _, -, _, -, hpos⟩ := hweights w hw
        exact hpos
      weights_unique := hunique.of_map toLex
      deadband_nonneg := hdeadband.1
      shrinkage_pos := hpositive.1
      penalty_le := hpenalty.2
      bound_pos := hpositive.2
      quantum_pos := hquantum }

structure PortfolioMark where
  instrumentId : UUID
  asOf : UTCDateTime
  currency : Currency
  price : Decimal
  quantityQuantum : Decimal
deriving DecidableEq

def PortfolioMark.validate (self : PortfolioMark) : Call Unit := do
  currencyCode self.currency
  positiveDecimal self.price
  positiveDecimal self.quantityQuantum

/-! ## The command -/

structure BuildTargetCommand where
  targetId : UUID
  snapshot : AccountPortfolioSnapshot
  baseCurrency : Currency
  marks : List PortfolioMark
  signalCandidates : List PortfolioSignalCandidate
deriving DecidableEq

/-- The validators of all parts of a command. -/
def BuildTargetCommand.validate (self : BuildTargetCommand) : Call Unit := do
  self.snapshot.cash.forM (·.validate)
  self.snapshot.positions.forM (·.validate)
  self.snapshot.validate
  currencyCode self.baseCurrency
  maxLength tupleLimit self.marks.length
  self.marks.forM (·.validate)
  maxLength tupleLimit self.signalCandidates.length
  self.signalCandidates.forM fun candidate => do
    candidate.signal.validate
    candidate.registry.manifest.validate
    candidate.registry.validate
    candidate.evaluation.validate

/-- What the validators of a command guarantee of the fields that a target is calculated from. -/
structure BuildTargetCommand.Valid (command : BuildTargetCommand) : Prop where
  positions_unique : Table.Unique PositionBalance.instrumentId command.snapshot.positions
  price_pos : ∀ mark ∈ command.marks, 0 < mark.price
  quantum_pos : ∀ mark ∈ command.marks, 0 < mark.quantityQuantum
  confidence_nonneg : ∀ candidate ∈ command.signalCandidates, 0 ≤ candidate.signal.confidence

theorem BuildTargetCommand.valid_of_validate {command : BuildTargetCommand}
    (h : command.validate = .success ()) : command.Valid := by
  simp only [BuildTargetCommand.validate, AccountPortfolioSnapshot.validate, PortfolioMark.validate,
    AlphaSignal.validate, requireSortedUnique, Attempt.bind_eq_success, Attempt.forM_eq_success,
    raiseUnless_eq_success, positiveDecimal_eq_success, unitDecimal_eq_success] at h
  obtain ⟨_, -, _, -, _, hsnapshot, _, -, _, -, _, hmarks, _, -, hcandidates⟩ := h
  obtain ⟨_, -, _, -, _, -, _, -, _, -, _, -, _, hpositions, -⟩ := hsnapshot
  exact
    { positions_unique := hpositions.2
      price_pos := fun mark hmark => by
        obtain ⟨_, -, _, hprice, -⟩ := hmarks mark hmark
        exact hprice
      quantum_pos := fun mark hmark => by
        obtain ⟨_, -, _, -, hquantum⟩ := hmarks mark hmark
        exact hquantum
      confidence_nonneg := fun candidate hcandidate => by
        obtain ⟨_, ⟨_, -, _, -, _, -, _, -, _, hconfidence, -⟩, -⟩ :=
          hcandidates candidate hcandidate
        exact hconfidence.1 }

end StonksPaper
