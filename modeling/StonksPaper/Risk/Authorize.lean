import StonksPaper.Domain.RiskAuthorization
import StonksPaper.Risk.Evaluate
import StonksPaper.Store.Trading

/-!
# Authorisation

`risk/authorize.py`: risk is checked again on the locked account, and an approved target becomes a
batch of reservations and orders. A purchase reserves its value at the mark and its share of the
expected cost, rounded up to the quantum of the cash.
-/

namespace StonksPaper

open Chain Quantum

/-! ## Orders from a target -/

/-- `_supported_order`. -/
def PlannedPaperOrder.Supported (plan : PlannedPaperOrder) : Prop :=
  plan.orderType = .market ∧ plan.timeInForce = .day ∧ plan.limitPrice = none ∧
    plan.stopPrice = none

instance (plan : PlannedPaperOrder) : Decidable plan.Supported :=
  inferInstanceAs (Decidable (_ ∧ _))

section

variable [Arithmetic]

def ceilToQuantum (value quantum : Decimal) : Decimal := Arithmetic.context.ceilTo value quantum

variable (command : RiskAuthorizationCommand)

def PortfolioTarget.traded (target : PortfolioTarget) : List TargetAllocation :=
  target.allocations.filter (·.deltaQuantity ≠ 0)

/-- `notionals[instrument_id]`. -/
def notional (a : TargetAllocation) : Decimal :=
  kept (kept |a.deltaQuantity| * command.risk.markPrice a.instrumentId)

/-- `total_notional`; the instruments of a target are unique. -/
def totalNotional (target : PortfolioTarget) : Decimal :=
  Arithmetic.context.sum (target.traded.map (notional command))

/-- `cost_shares[instrument_id]`. -/
def costShare (target : PortfolioTarget) (a : TargetAllocation) : Decimal :=
  if 0 < a.deltaQuantity ∧ 0 < totalNotional command target then
    kept (kept (target.expectedCost * notional command a) / totalNotional command target)
  else 0

/-- What the reservation of an allocation holds. -/
def reservedFor (target : PortfolioTarget) (cashQuantum : Decimal) (a : TargetAllocation) :
    Decimal :=
  if 0 < a.deltaQuantity then
    ceilToQuantum (kept (notional command a + costShare command target a)) cashQuantum
  else kept |a.deltaQuantity|

def buildPair [Hashing] (target : PortfolioTarget) (a : TargetAllocation)
    (plan : PlannedPaperOrder) (decision : RiskDecision) (cashQuantum : Decimal) :
    Call ReservationOrderPair := do
  let buying : Prop := 0 < a.deltaQuantity
  let side : OrderSide := if buying then .buy else .sell
  let kind : ReservationKind := if buying then .cash else .position
  let quantum := if buying then cashQuantum else a.quantityQuantum
  let commodity := if buying then command.risk.target.costCurrency else toString a.instrumentId
  let reserved ← createReservation plan.reservationId plan.intentId decision kind commodity
    (reservedFor command target cashQuantum a) quantum (some a.instrumentId) command.risk.at_
    decision.expiresAt command.risk.snapshot.accountAggregateSequence
    command.risk.snapshot.portfolioSequence
  let intent ← createOrderIntent plan.intentId plan.runId decision reserved.reservation
    a.instrumentId side plan.orderType (kept |a.deltaQuantity|) a.quantityQuantum plan.limitPrice
    plan.stopPrice plan.timeInForce command.risk.at_ decision.expiresAt plan.idempotencyKey
    plan.executionModelVersion command.risk.at_
  return (reserved, intent)

/-- The planned orders are for the traded allocations, one each. -/
def PlansCover (target : PortfolioTarget) : Prop :=
  (∀ plan ∈ command.orders, plan.instrumentId ∈ target.traded.map (·.instrumentId)) ∧
  (∀ a ∈ target.traded, a.instrumentId ∈ command.orders.map (·.instrumentId)) ∧
  (command.orders.map (·.instrumentId)).Nodup

instance (target : PortfolioTarget) : Decidable (PlansCover command target) :=
  inferInstanceAs (Decidable (_ ∧ _))

def buildPairs [Hashing] (decision : RiskDecision) : Call (List ReservationOrderPair) := do
  let target ← orFail .conflict "Approved risk decision has no target" decision.normalizedTarget
  failUnless (PlansCover command target) .conflict
    "Planned orders do not exactly cover authorized target deltas"
  match command.orders.find? (¬ ·.Supported) with
  | some unsupported =>
      .failure
        { code := .capabilityDenied
          message := "Only market day orders are allowed by the paper risk gate"
          details := [("instrument_id", toString unsupported.instrumentId)] }
  | none => do
      let cash ← orFail .dataUnavailable "Authorization pricing is unavailable"
        (Table.get (·.currency) command.risk.snapshot.cash target.costCurrency)
      failUnless (∀ a ∈ target.traded, command.risk.instrument a.instrumentId ≠ none)
        .dataUnavailable "Authorization pricing is unavailable"
      target.traded.mapM fun a => do
        -- every traded instrument has its plan (`PlansCover`)
        let plan ← orFail .conflict "Planned orders do not exactly cover authorized target deltas"
          (Table.get (·.instrumentId) command.orders a.instrumentId)
        buildPair command target a plan decision cash.quantum

end

/-! ## The transaction -/

section

open scoped ExactArithmetic

def AccountMatches (account : PaperAccountState) (command : RiskAuthorizationCommand) : Prop :=
  let snapshot := command.risk.snapshot
  account.accountId = snapshot.accountId ∧
  account.baseCurrency = command.risk.target.costCurrency ∧
  account.accountAggregateSequence = snapshot.accountAggregateSequence ∧
  account.portfolioSequence = snapshot.portfolioSequence ∧
  account.ledgerSequence = snapshot.ledgerSequence ∧
  account.ledgerHash = snapshot.ledgerHash ∧
  account.cash = snapshot.cash ∧
  account.positions = snapshot.positions ∧
  account.updatedAt ≤ command.risk.at_

instance (account : PaperAccountState) (command : RiskAuthorizationCommand) :
    Decidable (AccountMatches account command) := inferInstanceAs (Decidable (_ ∧ _))

variable [Hashing]

/-- The orders of an approved decision: `none` when the target trades nothing. -/
def Store.authorizeOrders (s : Store) (command : RiskAuthorizationCommand)
    (decision : RiskDecision) (now : UTCDateTime) :
    Call (Option ReservationOrderBatchRecord × Store) := do
  match ← buildPairs command decision with
  | [] => return (none, s)
  | pairs => do
      let (record, s) ← s.createReservationOrders pairs now
      return (some record, s)

def Store.evaluateAndAuthorize (s : Store) (command : RiskAuthorizationCommand)
    (policy : HardRiskPolicy) (now : UTCDateTime) : Call (RiskAuthorizationResult × Store) := do
  let account ← s.getAccount command.risk.snapshot.accountId
  failUnless (AccountMatches account command) .conflict
    "Paper account changed before risk authorization"
  let decision ← evaluate command.risk policy
  let (_, s) ← s.saveTarget command.risk.target
  let (_, s) ← s.saveRiskDecision decision
  if decision.approved then
    let (orders, s) ← s.authorizeOrders command decision now
    let result ← modelValidate RiskAuthorizationResult.validate ⟨decision, orders⟩
    return (result, s)
  else
    let result ← modelValidate RiskAuthorizationResult.validate ⟨decision, none⟩
    return (result, s)

end

end StonksPaper
