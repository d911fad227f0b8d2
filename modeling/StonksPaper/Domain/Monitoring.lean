import StonksPaper.Domain.Journal

/-!
# Marks and valuations

The part of `monitoring.py` that values a ledger: the marks of the positions, what a position is
worth at its mark, and what the portfolio is worth.
-/

namespace StonksPaper

open Chain

section

variable [Arithmetic]

def LedgerProjection.fees (self : LedgerProjection) (currency : Currency) : Decimal :=
  self.accountBalance (.feeExecution currency, .currency currency)

def LedgerProjection.realizedPnl (self : LedgerProjection) (currency : Currency) : Decimal :=
  kept (-self.accountBalance (.pnlRealized currency, .currency currency))

end

/-- The artifact's reference is its digest. -/
structure PointInTimeMark where
  instrumentId : UUID
  currency : Currency
  price : Decimal
  eventTime : UTCDateTime
  availableAt : UTCDateTime
  evidenceId : UUID
  sourceArtifactRef : Sha256
deriving DecidableEq

instance : Dump PointInTimeMark :=
  ⟨fun m => .record "PointInTimeMark"
    [dump m.instrumentId, dump m.currency, dump m.price, dump m.eventTime, dump m.availableAt,
      dump m.evidenceId, dump m.sourceArtifactRef]⟩

def PointInTimeMark.validate (self : PointInTimeMark) : Call Unit := do
  currencyCode self.currency
  positiveDecimal self.price
  raiseUnless (self.eventTime ≤ self.availableAt)
    "mark event time cannot be later than availability"

/-- `currencyPlace` is the place of the last digit with which `currencyQuantum` is written. -/
structure PositionValuation where
  instrumentId : UUID
  quantity : Decimal
  mark : PointInTimeMark
  marketValue : Decimal
  currencyQuantum : Decimal
  currencyPlace : Decimal := Quantum.lastPlace currencyQuantum
deriving DecidableEq

instance : Dump PositionValuation :=
  ⟨fun p => .record "PositionValuation"
    [dump p.instrumentId, dump p.quantity, dump p.mark, dump p.marketValue, dump p.currencyQuantum]⟩

def PositionValuation.validate [Arithmetic] (self : PositionValuation) : Call Unit := do
  positiveDecimal self.quantity
  raiseUnless (Arithmetic.context.Below (10 ^ 65) self.quantity)
    "Decimal input exceeds supported bounds"
  nonNegativeDecimal self.marketValue
  positiveDecimal self.currencyQuantum
  raiseUnless (self.mark.instrumentId = self.instrumentId) "position mark identity changed"
  let expected ← Decimal.quantize (kept (self.quantity * self.mark.price)) self.currencyPlace
  raiseUnless (self.marketValue = expected ∧ IsQuantized self.marketValue self.currencyQuantum ∧
    Takes self.marketValue self.currencyQuantum) "position market value does not match its mark"

structure PortfolioValuation where
  valuationId : UUID
  accountId : AccountId
  baseCurrency : Currency
  asOf : UTCDateTime
  ledgerSequence : ℕ
  ledgerHash : Option Sha256
  ledgerProjectionHash : Sha256
  currencyQuantum : Decimal
  cashValue : Decimal
  positionValue : Decimal
  nav : Decimal
  cumulativeFees : Decimal
  realizedPnl : Decimal
  positions : List PositionValuation
deriving DecidableEq

/-- `valuation_hash`, which `create` computes and the validator recomputes. -/
def PortfolioValuation.valuationHash [Hashing] (self : PortfolioValuation) : Sha256 :=
  stablePayloadHash <| .record "PortfolioValuation"
    [dump self.accountId, dump self.baseCurrency, dump self.asOf, dump self.ledgerSequence,
      dump self.ledgerHash, dump self.ledgerProjectionHash, dump self.currencyQuantum,
      dump self.cashValue, dump self.positionValue, dump self.nav, dump self.cumulativeFees,
      dump self.realizedPnl, dump self.positions]

def PortfolioValuation.validate [Arithmetic] (self : PortfolioValuation) : Call Unit := do
  nonEmptyString self.accountId
  currencyCode self.baseCurrency
  positiveDecimal self.currencyQuantum
  nonNegativeDecimal self.cashValue
  nonNegativeDecimal self.positionValue
  nonNegativeDecimal self.nav
  nonNegativeDecimal self.cumulativeFees
  maxLength tupleLimit self.positions.length
  raiseUnless (self.ledgerSequence = 0 ↔ self.ledgerHash = none)
    "only genesis valuation may omit ledger hash"
  raiseUnless (SortedUnique (self.positions.map (·.instrumentId)))
    "valued positions must be unique and sorted"
  raiseUnless (∀ item ∈ self.positions, item.mark.currency = self.baseCurrency)
    "position marks must use the base currency"
  raiseUnless (∀ item ∈ self.positions, item.mark.availableAt ≤ self.asOf)
    "future marks cannot enter a valuation"
  raiseUnless (Arithmetic.context.sum (self.positions.map (·.marketValue)) = self.positionValue)
    "position value does not match valued positions"
  raiseUnless (kept (self.cashValue + self.positionValue) = self.nav)
    "NAV must equal cash plus marked positions"
  raiseUnless (∀ item ∈ [self.cashValue, self.positionValue, self.nav, self.cumulativeFees,
      self.realizedPnl], IsQuantized item self.currencyQuantum ∧ Takes item self.currencyQuantum)
    "valuation money must match currency quantum"

theorem PortfolioValuation.validate_iff [Arithmetic] {v : PortfolioValuation} :
    v.validate = .success () ↔ v.accountId ≠ "" ∧ isCurrency v.baseCurrency = true ∧
      0 < v.currencyQuantum ∧ 0 ≤ v.cashValue ∧ 0 ≤ v.positionValue ∧ 0 ≤ v.nav ∧
      0 ≤ v.cumulativeFees ∧ v.positions.length ≤ tupleLimit ∧
      (v.ledgerSequence = 0 ↔ v.ledgerHash = none) ∧
      SortedUnique (v.positions.map (·.instrumentId)) ∧
      (∀ item ∈ v.positions, item.mark.currency = v.baseCurrency) ∧
      (∀ item ∈ v.positions, item.mark.availableAt ≤ v.asOf) ∧
      Arithmetic.context.sum (v.positions.map (·.marketValue)) = v.positionValue ∧
      kept (v.cashValue + v.positionValue) = v.nav ∧
      ∀ item ∈ [v.cashValue, v.positionValue, v.nav, v.cumulativeFees, v.realizedPnl],
        IsQuantized item v.currencyQuantum ∧ Takes item v.currencyQuantum := by
  simp only [validate, Attempt.bind_eq_success, nonEmptyString_eq_success, currencyCode_eq_success,
    positiveDecimal_eq_success, nonNegativeDecimal_eq_success, maxLength_eq_success,
    raiseUnless_eq_success]
  constructor
  · rintro ⟨_, h1, _, h2, _, h3, _, h4, _, h5, _, h6, _, h7, _, h8, _, h9, _, h10, _, h11, _, h12,
      _, h13, _, h14, h15⟩
    exact ⟨h1, h2, h3, h4, h5, h6, h7, h8, h9, h10, h11, h12, h13, h14, h15⟩
  · rintro ⟨h1, h2, h3, h4, h5, h6, h7, h8, h9, h10, h11, h12, h13, h14, h15⟩
    exact ⟨(), h1, (), h2, (), h3, (), h4, (), h5, (), h6, (), h7, (), h8, (), h9, (), h10, (), h11,
      (), h12, (), h13, (), h14, h15⟩

structure MarkToMarketCommand where
  valuationId : UUID
  accountId : AccountId
  baseCurrency : Currency
  asOf : UTCDateTime
  ledger : LedgerProjection
  marks : List PointInTimeMark
  currencyQuantum : Decimal
  currencyPlace : Decimal := Quantum.lastPlace currencyQuantum
deriving DecidableEq

def MarkToMarketCommand.Written (self : MarkToMarketCommand) : Prop :=
  IsQuantized self.currencyQuantum self.currencyPlace

/-- The ledger and the marks of a command are validated models themselves. -/
def MarkToMarketCommand.validate (self : MarkToMarketCommand) : Call Unit := do
  nonEmptyString self.accountId
  currencyCode self.baseCurrency
  self.ledger.validate
  self.marks.forM (·.validate)
  maxLength tupleLimit self.marks.length
  positiveDecimal self.currencyQuantum

/-- What the validators of a command establish. -/
structure MarkToMarketCommand.Valid (c : MarkToMarketCommand) : Prop where
  account : c.accountId ≠ ""
  currency : isCurrency c.baseCurrency = true
  ledger : c.ledger.validate = .success ()
  prices : ∀ mark ∈ c.marks, 0 < mark.price
  length : c.marks.length ≤ tupleLimit
  quantum_pos : 0 < c.currencyQuantum

theorem MarkToMarketCommand.valid_of_validate {c : MarkToMarketCommand}
    (h : c.validate = .success ()) : c.Valid := by
  simp only [validate, Attempt.bind_eq_success, nonEmptyString_eq_success, currencyCode_eq_success,
    Attempt.forM_eq_success, maxLength_eq_success, positiveDecimal_eq_success] at h
  obtain ⟨_, haccount, _, hcurrency, _, hledger, _, hmarks, _, hlength, hquantum⟩ := h
  refine ⟨haccount, hcurrency, hledger, fun mark hmark => ?_, hlength, hquantum⟩
  have hvalid := hmarks mark hmark
  simp only [PointInTimeMark.validate, Attempt.bind_eq_success,
    positiveDecimal_eq_success] at hvalid
  obtain ⟨_, -, _, hprice, -⟩ := hvalid
  exact hprice

end StonksPaper
