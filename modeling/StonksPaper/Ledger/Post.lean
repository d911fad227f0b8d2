import StonksPaper.Domain.Journal

/-!
# Postings of a fill

`post.py`: the journal transaction of a canonical fill. A purchase debits inventory and fees and
credits cash; a sale also realises the average cost of what it sells.
-/

namespace StonksPaper

open Chain

/-- The two literal fields of the policy have one possible value each and are left out. -/
structure LedgerPostingPolicy where
  policyVersion : String
deriving DecidableEq

def LedgerPostingPolicy.policyHash [Hashing] (self : LedgerPostingPolicy) : Sha256 :=
  stablePayloadHash (.record "LedgerPostingPolicy" [dump self.policyVersion])

section

variable [Arithmetic] [Hashing]

/-- One entry of `values`: the role that names the posting, and the posting's own fields. -/
structure PostingValue where
  role : String
  ledgerAccount : LedgerAccount
  commodity : Commodity
  side : JournalSide
  amount : Decimal
  quantum : Decimal

def PostingValue.posting (value : PostingValue) (fill : Fill) (policy : LedgerPostingPolicy) :
    JournalPosting :=
  { postingId := uuid5 (.record "posting"
      [dump fill.fillId, dump policy.policyHash, dump value.role])
    ledgerAccount := value.ledgerAccount
    commodity := value.commodity
    side := value.side
    amount := value.amount
    quantum := value.quantum
    memo := some ("paper_fill:" ++ uuidText fill.fillId) }

/-- The fee's posting, when there is a fee. -/
def feeValue (fill : Fill) : List PostingValue :=
  if 0 < fill.fees then
    [⟨"fee", .feeExecution fill.feeCurrency, .currency fill.feeCurrency, .debit, fill.fees,
      fill.feeQuantum⟩]
  else []

def buyValues (fill : Fill) (gross : Decimal) : List PostingValue :=
  let currency := fill.feeCurrency
  let instrument := fill.instrumentId
  [⟨"inventory_value", .inventoryValue instrument currency, .currency currency, .debit, gross,
      fill.feeQuantum⟩,
    ⟨"clearing_payable", .clearingCash currency, .currency currency, .credit, gross,
      fill.feeQuantum⟩,
    ⟨"clearing_settle", .clearingCash currency, .currency currency, .debit, gross,
      fill.feeQuantum⟩,
    ⟨"cash", .assetCash currency, .currency currency, .credit, kept (gross + fill.fees),
      fill.feeQuantum⟩,
    ⟨"inventory_units", .inventoryUnits instrument, .units instrument, .debit, fill.quantity,
      fill.quantityQuantum⟩,
    ⟨"clearing_units", .clearingUnits instrument, .units instrument, .credit, fill.quantity,
      fill.quantityQuantum⟩] ++ feeValue fill

/-- What a sale pays after its fees, debited to cash; a negative net is credited. -/
def netValue (fill : Fill) (gross : Decimal) : List PostingValue :=
  let net := kept (gross - fill.fees)
  if 0 < net then
    [⟨"cash", .assetCash fill.feeCurrency, .currency fill.feeCurrency, .debit, net,
      fill.feeQuantum⟩]
  else if net < 0 then
    [⟨"cash", .assetCash fill.feeCurrency, .currency fill.feeCurrency, .credit, kept (-net),
      fill.feeQuantum⟩]
  else []

def sellValues (fill : Fill) (gross cost : Decimal) : List PostingValue :=
  let currency := fill.feeCurrency
  let instrument := fill.instrumentId
  [⟨"clearing_units", .clearingUnits instrument, .units instrument, .debit, fill.quantity,
      fill.quantityQuantum⟩,
    ⟨"inventory_units", .inventoryUnits instrument, .units instrument, .credit, fill.quantity,
      fill.quantityQuantum⟩,
    ⟨"clearing_receivable", .clearingCash currency, .currency currency, .debit, gross,
      fill.feeQuantum⟩,
    ⟨"sale_pnl", .pnlRealized currency, .currency currency, .credit, gross, fill.feeQuantum⟩,
    ⟨"clearing_settle", .clearingCash currency, .currency currency, .credit, gross,
      fill.feeQuantum⟩,
    ⟨"cost_pnl", .pnlRealized currency, .currency currency, .debit, cost, fill.feeQuantum⟩,
    ⟨"inventory_value", .inventoryValue instrument currency, .currency currency, .credit, cost,
      fill.feeQuantum⟩] ++ netValue fill gross ++ feeValue fill

/-- `value.quantize(fill.fee_quantum, rounding=ROUND_HALF_EVEN)`. -/
def Fill.quantize (fill : Fill) (value : Decimal) : Call Decimal :=
  Decimal.quantize value fill.feePlace

def Fill.realisedCost (fill : Fill) (inventoryValue quantity : Decimal) : Call Decimal :=
  if quantity = fill.quantity then return inventoryValue
  else fill.quantize (kept (kept (inventoryValue * fill.quantity) / quantity))

def sellPostings (fill : Fill) (gross : Decimal) (projection : LedgerProjection) :
    Call (List PostingValue) := do
  let quantity := projection.position fill.instrumentId
  let inventoryValue := projection.inventoryValue fill.instrumentId fill.feeCurrency
  failUnless (fill.instrumentId ∉ projection.unvaluedInstrumentIds ∧ fill.quantity ≤ quantity ∧
    0 < inventoryValue) .conflict "Sell cost basis is unavailable"
  let cost ← fill.realisedCost inventoryValue quantity
  failUnless (0 < cost ∧ cost ≤ inventoryValue) .conflict "Sell cost basis is invalid"
  return sellValues fill gross cost

def fillValues (fill : Fill) (gross : Decimal) (projection : LedgerProjection) :
    Call (List PostingValue) :=
  if fill.side = .buy then return buyValues fill gross else sellPostings fill gross projection

/-- `build_fill_journal`. The postings are built outside the `try`. -/
def buildFillJournal (fill : Fill) (projection : LedgerProjection) (policy : LedgerPostingPolicy) :
    Call JournalTransaction := do
  failUnless (fill.accountId = projection.accountId) .conflict
    "Fill belongs to another ledger account"
  failUnless (projection.lastOccurredAt ≤ fill.occurredAt) .conflict
    "Fill predates current ledger head"
  let gross ← fill.quantize (kept (fill.quantity * fill.price))
  failUnless (0 < gross) .invalidInput "Fill notional is invalid"
  let values ← fillValues fill gross projection
  let postings := values.map (·.posting fill policy)
  postings.forM (·.validate)
  integrityChecked "Generated journal is invalid" <| JournalTransaction.create
    (uuid5 (.record "journal" [dump fill.fillId, dump policy.policyHash])) fill.accountId
    (projection.ledgerSequence + 1) fill.occurredAt projection.ledgerHash fill.orderIntentId
    fill.fillId (sorted (·.postingId) postings)

theorem buildFillJournal_names {fill : Fill} {projection : LedgerProjection}
    {policy : LedgerPostingPolicy} {t : JournalTransaction}
    (h : buildFillJournal fill projection policy = .success t) :
    t.accountId = fill.accountId ∧ t.sourceFillId = fill.fillId ∧
      t.sourceOrderIntentId = fill.orderIntentId ∧ t.sequence = projection.ledgerSequence + 1 ∧
      t.previousHash = projection.ledgerHash ∧
      t.transactionId = uuid5 (.record "journal" [dump fill.fillId, dump policy.policyHash]) := by
  simp only [buildFillJournal, Attempt.bind_eq_success, integrityChecked_eq_success,
    JournalTransaction.create, modelValidate_eq_success] at h
  obtain ⟨_, -, _, -, gross, -, _, -, values, -, _, -, -, rfl⟩ := h
  exact ⟨rfl, rfl, rfl, rfl, rfl, rfl⟩

end

end StonksPaper
