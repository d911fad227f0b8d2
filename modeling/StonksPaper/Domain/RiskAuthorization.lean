import StonksPaper.Domain.Operations
import StonksPaper.Domain.RiskEvaluation

/-!
# Inputs of the authorisation

`risk_authorization.py`: the orders that a caller plans for a target, and what an authorisation
returns.
-/

namespace StonksPaper

open Chain

structure PlannedPaperOrder where
  instrumentId : UUID
  reservationId : UUID
  intentId : UUID
  runId : UUID
  idempotencyKey : String
  orderType : OrderType
  timeInForce : TimeInForce
  limitPrice : Option Decimal
  stopPrice : Option Decimal
  executionModelVersion : String
deriving DecidableEq

def PlannedPaperOrder.validate (self : PlannedPaperOrder) : Call Unit := do
  nonEmptyString self.idempotencyKey
  optionalPositive self.limitPrice
  optionalPositive self.stopPrice
  nonEmptyString self.executionModelVersion

structure RiskAuthorizationCommand where
  risk : BuildRiskDecisionCommand
  orders : List PlannedPaperOrder
deriving DecidableEq

def RiskAuthorizationCommand.validateOrderIdentity (self : RiskAuthorizationCommand) :
    Call Unit := do
  let instruments : List UUID := self.orders.map (·.instrumentId)
  let identities : List (UUID × UUID × String) := self.orders.map fun item =>
    (item.reservationId, item.intentId, item.idempotencyKey)
  raiseUnless (instruments = sorted id instruments) "planned paper orders must be stably sorted"
  raiseUnless (instruments.Nodup ∧ identities.Nodup) "planned paper order identities must be unique"

def RiskAuthorizationCommand.validate [Arithmetic] [Hashing] (self : RiskAuthorizationCommand) :
    Call Unit := do
  self.risk.validate
  maxLength tupleLimit self.orders.length
  self.orders.forM (·.validate)
  self.validateOrderIdentity

structure RiskAuthorizationResult where
  decision : RiskDecision
  orders : Option ReservationOrderBatchRecord
deriving DecidableEq

def RiskAuthorizationResult.deltas (self : RiskAuthorizationResult) : List Decimal :=
  self.decision.normalizedTarget.elim [] fun target =>
    (target.allocations.map (·.deltaQuantity)).filter (· ≠ 0)

def RiskAuthorizationResult.validate (self : RiskAuthorizationResult) : Call Unit := do
  raiseUnless (self.orders ≠ none → self.decision.approved = true)
    "rejected risk decision cannot authorize orders"
  raiseUnless (self.decision.approved = true → (self.deltas ≠ [] ↔ self.orders ≠ none))
    "approved risk decision order batch is incomplete"

end StonksPaper
