import Mathlib.Data.String.Basic
import StonksPaper.Domain.Common

/-!
# Account snapshots and portfolio targets

`portfolio.py`: balances, the canonical account snapshot, the account event chain, the database
account state, and the portfolio target a risk decision is about.
-/

namespace StonksPaper

open Chain

def requireSortedUnique {α : Type} [LinearOrder α] (values : List α) (label : String) : Call Unit :=
  raiseUnless (SortedUnique values) (label ++ " must be unique and stably sorted")

structure CashBalance where
  currency : Currency
  settledAmount : Decimal
  reservedAmount : Decimal
  quantum : Decimal
deriving DecidableEq

def CashBalance.validate (self : CashBalance) : Call Unit := do
  currencyCode self.currency
  nonNegativeDecimal self.settledAmount
  nonNegativeDecimal self.reservedAmount
  positiveDecimal self.quantum
  raiseUnless (self.reservedAmount ≤ self.settledAmount) "reserved cash cannot exceed settled cash"
  raiseUnless (IsQuantized self.settledAmount self.quantum ∧
    IsQuantized self.reservedAmount self.quantum) "cash amounts must match currency quantum"

def CashBalance.availableAmount [Arithmetic] (self : CashBalance) : Decimal :=
  kept (self.settledAmount - self.reservedAmount)

structure PositionBalance where
  instrumentId : UUID
  quantity : Decimal
  sellableQuantity : Decimal
  reservedQuantity : Decimal
  quantum : Decimal
deriving DecidableEq

def PositionBalance.validate (self : PositionBalance) : Call Unit := do
  nonNegativeDecimal self.quantity
  nonNegativeDecimal self.sellableQuantity
  nonNegativeDecimal self.reservedQuantity
  positiveDecimal self.quantum
  raiseUnless (self.sellableQuantity ≤ self.quantity)
    "sellable quantity cannot exceed position quantity"
  raiseUnless (self.reservedQuantity ≤ self.sellableQuantity)
    "reserved quantity cannot exceed sellable quantity"
  raiseUnless (IsQuantized self.quantity self.quantum ∧
    IsQuantized self.sellableQuantity self.quantum ∧
    IsQuantized self.reservedQuantity self.quantum)
    "position quantities must match instrument quantum"

def PositionBalance.availableQuantity [Arithmetic] (self : PositionBalance) : Decimal :=
  kept (self.sellableQuantity - self.reservedQuantity)

instance : Dump CashBalance :=
  ⟨fun c => .record "CashBalance"
    [dump c.currency, dump c.settledAmount, dump c.reservedAmount, dump c.quantum]⟩

instance : Dump PositionBalance :=
  ⟨fun p => .record "PositionBalance"
    [dump p.instrumentId, dump p.quantity, dump p.sellableQuantity, dump p.reservedQuantity,
      dump p.quantum]⟩

structure AccountPortfolioSnapshot where
  snapshotId : UUID
  accountId : AccountId
  asOf : UTCDateTime
  accountAggregateSequence : ℕ
  portfolioSequence : ℕ
  ledgerSequence : ℕ
  ledgerHash : Option Sha256
  cash : List CashBalance
  positions : List PositionBalance
  pendingOrderIds : List UUID
deriving DecidableEq

instance : Dump AccountPortfolioSnapshot :=
  ⟨fun s => .record "AccountPortfolioSnapshot"
    [dump s.snapshotId, dump s.accountId, dump s.asOf, dump s.accountAggregateSequence,
      dump s.portfolioSequence, dump s.ledgerSequence, dump s.ledgerHash, dump s.cash,
      dump s.positions, dump s.pendingOrderIds]⟩

def AccountPortfolioSnapshot.validate (self : AccountPortfolioSnapshot) : Call Unit := do
  nonEmptyString self.accountId
  maxLength 64 self.cash.length
  maxLength tupleLimit self.positions.length
  maxLength tupleLimit self.pendingOrderIds.length
  raiseUnless (self.ledgerSequence = 0 ↔ self.ledgerHash = none)
    "only genesis portfolio snapshot may omit ledger hash"
  requireSortedUnique (self.cash.map (·.currency)) "cash currencies"
  requireSortedUnique (self.positions.map (·.instrumentId)) "position instruments"
  requireSortedUnique self.pendingOrderIds "pending order ids"

structure AccountPortfolioSnapshot.Valid (snapshot : AccountPortfolioSnapshot) : Prop where
  cash : ∀ balance ∈ snapshot.cash, balance.validate = .success ()
  positions : ∀ balance ∈ snapshot.positions, balance.validate = .success ()
  snapshot_valid : snapshot.validate = .success ()

def AccountPortfolioSnapshot.snapshotHash [Hashing] (self : AccountPortfolioSnapshot) : Sha256 :=
  stablePayloadHash (dump self)

/-! ## The account aggregate -/

/-- The audit event persisted with every compare-and-set update of an account. -/
structure PaperAccountEvent where
  eventId : UUID
  accountId : AccountId
  sequence : ℕ
  eventType : String
  aggregateRefType : String
  aggregateRefId : UUID
  occurredAt : UTCDateTime
  previousHash : Option Sha256
  eventHash : Sha256
deriving DecidableEq

def PaperAccountEvent.link : Link PaperAccountEvent Sha256 where
  sequence := (·.sequence)
  previous := (·.previousHash)
  hash := (·.eventHash)

def PaperAccountEvent.expectedEventHash [Hashing] (self : PaperAccountEvent) : Sha256 :=
  stablePayloadHash <| .record "PaperAccountEvent"
    [dump self.eventId, dump self.accountId, dump self.sequence, dump self.eventType,
      dump self.aggregateRefType, dump self.aggregateRefId, dump self.occurredAt,
      dump self.previousHash]

def PaperAccountEvent.validate [Hashing] (self : PaperAccountEvent) : Call Unit := do
  nonEmptyString self.accountId
  atLeast 1 self.sequence
  nonEmptyString self.eventType
  nonEmptyString self.aggregateRefType
  raiseUnless (self.sequence = 1 ↔ self.previousHash = none)
    "only genesis account event may omit previous hash"
  raiseUnless (self.eventHash = self.expectedEventHash)
    "paper account event hash does not match payload"

/-- The event that `new_account_event` builds, before its validators run. -/
def newAccountEvent [Hashing] (accountId : AccountId) (sequence : ℕ)
    (eventType aggregateRefType : String) (aggregateRefId : UUID) (occurredAt : UTCDateTime)
    (previousHash : Option Sha256) : PaperAccountEvent :=
  let provisional : PaperAccountEvent :=
    { eventId := uuid5 (.record "account-event"
        [dump accountId, dump sequence, dump eventType, dump aggregateRefType,
          dump aggregateRefId, dump occurredAt, dump previousHash])
      accountId, sequence, eventType, aggregateRefType, aggregateRefId, occurredAt, previousHash
      eventHash := 0 }
  { provisional with eventHash := provisional.expectedEventHash }

structure PaperAccountState where
  accountId : AccountId
  baseCurrency : Currency
  accountAggregateSequence : ℕ
  portfolioSequence : ℕ
  ledgerSequence : ℕ
  ledgerHash : Option Sha256
  cash : List CashBalance
  positions : List PositionBalance
  events : List PaperAccountEvent
  createdAt : UTCDateTime
  updatedAt : UTCDateTime
deriving DecidableEq

def PaperAccountState.validate (self : PaperAccountState) : Call Unit := do
  nonEmptyString self.accountId
  currencyCode self.baseCurrency
  maxLength 64 self.cash.length
  maxLength tupleLimit self.positions.length
  maxLength 1000000 self.events.length
  raiseUnless (self.ledgerSequence = 0 ↔ self.ledgerHash = none)
    "only genesis paper account may omit ledger hash"
  raiseUnless (self.createdAt ≤ self.updatedAt) "paper account timeline is invalid"
  requireSortedUnique (self.cash.map (·.currency)) "cash currencies"
  requireSortedUnique (self.positions.map (·.instrumentId)) "position instruments"
  raiseUnless (self.events.length = self.accountAggregateSequence)
    "paper account event count does not match sequence"
  raiseUnless ((∀ event ∈ self.events, event.accountId = self.accountId) ∧
    Linked PaperAccountEvent.link 0 none self.events) "paper account event chain is invalid"

/-! ## Targets -/

structure TargetAllocation where
  instrumentId : UUID
  currentQuantity : Decimal
  targetQuantity : Decimal
  deltaQuantity : Decimal
  quantityQuantum : Decimal
  targetWeight : Decimal
  constraintDiagnostics : List String
deriving DecidableEq

instance : Dump TargetAllocation :=
  ⟨fun a => .record "TargetAllocation"
    [dump a.instrumentId, dump a.currentQuantity, dump a.targetQuantity, dump a.deltaQuantity,
      dump a.quantityQuantum, dump a.targetWeight, dump a.constraintDiagnostics]⟩

/-- `validate_allocation`, whose difference is calculated in the context. -/
def TargetAllocation.validateIn (context : Context) (self : TargetAllocation) : Call Unit := do
  positiveDecimal self.quantityQuantum
  raiseUnless (-1 ≤ self.targetWeight ∧ self.targetWeight ≤ 1) "value must be between -1 and 1"
  raiseUnless (self.deltaQuantity = context.round (self.targetQuantity - self.currentQuantity))
    "delta quantity must equal target minus current quantity"
  raiseUnless (IsQuantized self.currentQuantity self.quantityQuantum ∧
    IsQuantized self.targetQuantity self.quantityQuantum ∧
    IsQuantized self.deltaQuantity self.quantityQuantum)
    "allocation quantities must match instrument quantum"
  maxLength 64 self.constraintDiagnostics.length
  requireSortedUnique self.constraintDiagnostics "constraint diagnostics"

def TargetAllocation.validate [Arithmetic] (self : TargetAllocation) : Call Unit :=
  self.validateIn Arithmetic.context

structure PortfolioTarget where
  targetId : UUID
  accountId : AccountId
  portfolioSnapshotId : UUID
  accountAggregateSequence : ℕ
  portfolioSequence : ℕ
  asOf : UTCDateTime
  allocations : List TargetAllocation
  inputSignalIds : List UUID
  policyVersion : String
  policyHash : Sha256
  expectedTurnover : Decimal
  expectedCost : Decimal
  costCurrency : Currency
  calculationHash : Sha256
deriving DecidableEq

/-- The fields that the calculation hash covers: all but the target id and the hash itself. -/
def PortfolioTarget.calculation (self : PortfolioTarget) : List Payload :=
  [dump self.accountId, dump self.portfolioSnapshotId, dump self.accountAggregateSequence,
    dump self.portfolioSequence, dump self.asOf, dump self.allocations, dump self.inputSignalIds,
    dump self.policyVersion, dump self.policyHash, dump self.expectedTurnover,
    dump self.expectedCost, dump self.costCurrency]

def PortfolioTarget.expectedCalculationHash [Hashing] (self : PortfolioTarget) : Sha256 :=
  stablePayloadHash (.record "PortfolioTarget" self.calculation)

instance : Dump PortfolioTarget :=
  ⟨fun t => .record "PortfolioTarget" (dump t.targetId :: dump t.calculationHash :: t.calculation)⟩

def PortfolioTarget.validate [Hashing] (self : PortfolioTarget) : Call Unit := do
  nonEmptyString self.accountId
  atLeast 1 self.allocations.length
  maxLength tupleLimit self.allocations.length
  maxLength tupleLimit self.inputSignalIds.length
  nonEmptyString self.policyVersion
  nonNegativeDecimal self.expectedTurnover
  nonNegativeDecimal self.expectedCost
  currencyCode self.costCurrency
  requireSortedUnique (self.allocations.map (·.instrumentId)) "target instruments"
  requireSortedUnique self.inputSignalIds "input signal ids"
  raiseUnless (self.calculationHash = self.expectedCalculationHash)
    "portfolio calculation hash does not match payload"

end StonksPaper
