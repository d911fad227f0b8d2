import StonksPaper.Ledger.Post

/-!
# What the postings of a fill move

A built transaction holds one posting for each of the fill's values, in the order of their
identifiers. What it moves on an account is read off the values.
-/

namespace StonksPaper

open Chain Quantum

section

variable [Arithmetic] [Hashing] {fill : Fill} {projection : LedgerProjection}
  {policy : LedgerPostingPolicy}
  {t : JournalTransaction}

def Fill.gross (fill : Fill) : Decimal :=
    halfEvenTo (kept (fill.quantity * fill.price)) fill.feePlace

def saleCost (fill : Fill) (inventoryValue quantity : Decimal) : Decimal :=
  if quantity = fill.quantity then inventoryValue
  else halfEvenTo (kept (kept (inventoryValue * fill.quantity) / quantity)) fill.feePlace

def LedgerProjection.costOf (projection : LedgerProjection) (fill : Fill) : Decimal :=
  saleCost fill (projection.inventoryValue fill.instrumentId fill.feeCurrency)
    (projection.position fill.instrumentId)

omit [Hashing] in
theorem quantize_eq_success {x y : Decimal} : fill.quantize x = .success y ↔
    Arithmetic.context.Holds (halfEven (x / fill.feePlace)) ∧ y = halfEvenTo x fill.feePlace :=
  Decimal.quantize_eq_success

def Fill.GrossHolds (fill : Fill) : Prop :=
  Arithmetic.context.Holds (halfEven (kept (fill.quantity * fill.price) / fill.feePlace))

/-- The average cost of a sale has no more digits than the context keeps. -/
def Fill.CostHolds (fill : Fill) (inventoryValue quantity : Decimal) : Prop :=
  quantity = fill.quantity ∨ Arithmetic.context.Holds
    (halfEven (kept (kept (inventoryValue * fill.quantity) / quantity) / fill.feePlace))

omit [Hashing] in
theorem realisedCost_eq_success {value quantity cost : Decimal} :
    fill.realisedCost value quantity = .success cost ↔
      fill.CostHolds value quantity ∧ cost = saleCost fill value quantity := by
  unfold Fill.realisedCost Fill.CostHolds saleCost
  by_cases hall : quantity = fill.quantity
  · rw [if_pos hall, if_pos hall, Attempt.pure_eq, Attempt.success.injEq]
    exact ⟨fun h => ⟨.inl hall, h.symm⟩, fun h => h.2.symm⟩
  · rw [if_neg hall, if_neg hall, quantize_eq_success]
    exact and_congr_left' (or_iff_right hall).symm

/-- What `build_fill_journal` had checked, and the postings it made. -/
structure JournalBuilt (fill : Fill) (projection : LedgerProjection) (policy : LedgerPostingPolicy)
    (values : List PostingValue) (t : JournalTransaction) : Prop where
  account : fill.accountId = projection.accountId
  time : projection.lastOccurredAt ≤ fill.occurredAt
  gross_holds : fill.GrossHolds
  gross_pos : 0 < fill.gross
  values_eq : fillValues fill fill.gross projection = .success values
  postings : t.postings = sorted (·.postingId) (values.map (·.posting fill policy))
  postings_valid : ∀ p ∈ t.postings, p.validate = .success ()
  valid : t.validate = .success ()

theorem buildFillJournal_built (h : buildFillJournal fill projection policy = .success t) :
    ∃ values, JournalBuilt fill projection policy values t := by
  simp only [buildFillJournal, Attempt.bind_eq_success, failUnless_eq_success,
    integrityChecked_eq_success, JournalTransaction.create, modelValidate_eq_success,
    Attempt.forM_eq_success, quantize_eq_success] at h
  obtain ⟨_, haccount, _, htime, gross, ⟨hholds, rfl⟩, _, hgross, values, hvalues, _, hpostings,
    hvalid, rfl⟩ := h
  exact ⟨values, haccount, htime, hholds, hgross, hvalues, rfl,
    fun p hp => hpostings p (mem_sorted.mp hp), hvalid⟩

omit [Hashing] in
/-- The values of a sale, which the builder makes when the average cost is available. -/
theorem sellPostings_eq_success {gross : Decimal} {values : List PostingValue} :
    sellPostings fill gross projection = .success values ↔
      (fill.instrumentId ∉ projection.unvaluedInstrumentIds ∧
        fill.quantity ≤ projection.position fill.instrumentId ∧
        0 < projection.inventoryValue fill.instrumentId fill.feeCurrency) ∧
      fill.CostHolds (projection.inventoryValue fill.instrumentId fill.feeCurrency)
        (projection.position fill.instrumentId) ∧
      (0 < saleCost fill (projection.inventoryValue fill.instrumentId fill.feeCurrency)
          (projection.position fill.instrumentId) ∧
        saleCost fill (projection.inventoryValue fill.instrumentId fill.feeCurrency)
          (projection.position fill.instrumentId) ≤
            projection.inventoryValue fill.instrumentId fill.feeCurrency) ∧
      values = sellValues fill gross
        (saleCost fill (projection.inventoryValue fill.instrumentId fill.feeCurrency)
          (projection.position fill.instrumentId)) := by
  simp only [sellPostings, Attempt.bind_eq_success, failUnless_eq_success, Attempt.pure_eq,
    Attempt.success.injEq, realisedCost_eq_success]
  constructor
  · rintro ⟨_, havailable, _, ⟨hholds, rfl⟩, _, hcost, rfl⟩
    exact ⟨havailable, hholds, hcost, rfl⟩
  · rintro ⟨havailable, hholds, hcost, rfl⟩
    exact ⟨(), havailable, _, ⟨hholds, rfl⟩, (), hcost, rfl⟩

omit [Hashing] in
/-- A purchase has the values of a purchase, a sale those of a sale at some cost. -/
theorem fillValues_cases {gross : Decimal} {values : List PostingValue}
    (h : fillValues fill gross projection = .success values) :
    fill.side = .buy ∧ values = buyValues fill gross ∨
      fill.side = .sell ∧ ∃ cost, values = sellValues fill gross cost := by
  unfold fillValues at h
  cases hside : fill.side with
  | buy =>
      rw [if_pos hside] at h
      cases h
      exact .inl ⟨rfl, rfl⟩
  | sell =>
      rw [if_neg (by rw [hside]; decide)] at h
      obtain ⟨-, -, -, rfl⟩ := sellPostings_eq_success.mp h
      exact .inr ⟨rfl, _, rfl⟩

theorem JournalBuilt.amounts {values : List PostingValue}
    (h : JournalBuilt fill projection policy values t) :
    ∀ v ∈ values, 0 < v.amount ∧ IsQuantized v.amount v.quantum := by
  intro v hv
  have hmem : v.posting fill policy ∈ t.postings := by
    rw [h.postings, mem_sorted]
    exact List.mem_map_of_mem hv
  obtain ⟨hpos, -, -, hquantized, -⟩ := JournalPosting.validate_iff.mp (h.postings_valid _ hmem)
  exact ⟨hpos, hquantized⟩

/-! ## The accounts of a fill -/

/-- The ledger accounts of a fill: those of its currency and of its instrument. -/
def Fill.ledgerAccounts (fill : Fill) : List LedgerAccount :=
  let currency := fill.feeCurrency
  let instrument := fill.instrumentId
  [.assetCash currency, .clearingCash currency, .clearingUnits instrument, .feeExecution currency,
    .inventoryUnits instrument, .inventoryValue instrument currency, .pnlRealized currency]

omit [Hashing] in
theorem fillValues_accounts {gross : Decimal} {values : List PostingValue}
    (h : fillValues fill gross projection = .success values) :
    ∀ v ∈ values, v.ledgerAccount ∈ fill.ledgerAccounts := by
  have hfee : ∀ v ∈ feeValue fill, v.ledgerAccount ∈ fill.ledgerAccounts := by
    unfold feeValue
    split <;> simp [Fill.ledgerAccounts]
  have hnet : ∀ v ∈ netValue fill gross, v.ledgerAccount ∈ fill.ledgerAccounts := by
    simp only [netValue]
    split
    · simp [Fill.ledgerAccounts]
    · split <;> simp [Fill.ledgerAccounts]
  rcases fillValues_cases h with ⟨-, rfl⟩ | ⟨-, cost, rfl⟩
  · simp only [buyValues, List.forall_mem_append]
    refine ⟨?_, hfee⟩
    simp [Fill.ledgerAccounts]
  · simp only [sellValues, List.forall_mem_append]
    refine ⟨⟨?_, hnet⟩, hfee⟩
    simp [Fill.ledgerAccounts]

theorem JournalBuilt.accounts {values : List PostingValue}
    (h : JournalBuilt fill projection policy values t) :
    ∀ p ∈ t.postings, p.ledgerAccount ∈ fill.ledgerAccounts := by
  intro p hp
  rw [h.postings, mem_sorted] at hp
  obtain ⟨v, hv, rfl⟩ := List.mem_map.mp hp
  exact fillValues_accounts h.values_eq v hv

theorem JournalBuilt.units {values : List PostingValue}
    (h : JournalBuilt fill projection policy values t) {i : UUID} (hi : i ≠ fill.instrumentId) :
    ∀ p ∈ t.postings, p.key ≠ (.inventoryUnits i, .units i) := by
  intro p hp hkey
  have haccount : p.ledgerAccount = .inventoryUnits i := (Prod.ext_iff.mp hkey).1
  have hmem := h.accounts p hp
  rw [haccount] at hmem
  simp [Fill.ledgerAccounts] at hmem
  exact hi hmem

theorem JournalBuilt.pays {values : List PostingValue}
    (h : JournalBuilt fill projection policy values t) {p : JournalPosting} (hp : p ∈ t.postings)
    {currency : Currency} (hcash : p.ledgerAccount = .assetCash currency) :
    currency = fill.feeCurrency := by
  have hmem := h.accounts p hp
  rw [hcash] at hmem
  simpa [Fill.ledgerAccounts] using hmem

/-! ## What a transaction moves -/

def PostingValue.key (self : PostingValue) : LedgerKey := (self.ledgerAccount, self.commodity)

def PostingValue.signedAmount (self : PostingValue) : Decimal :=
  if self.side = .debit then self.amount else -self.amount

/-- Debits less credits on the keys that `on` selects. -/
def JournalTransaction.moved (self : JournalTransaction) (on : LedgerKey → Bool) : Decimal :=
  ((self.postings.filter (on ·.key)).map fun p => exactly p.signedAmount).sum

/-- Debits less credits of the values on the keys that `on` selects. -/
def movedOfValues (on : LedgerKey → Bool) (values : List PostingValue) : Decimal :=
  ((values.filter (on ·.key)).map (·.signedAmount)).sum

omit [Arithmetic] [Hashing] in
theorem movedOfValues_cons {on : LedgerKey → Bool} {v : PostingValue} {values : List PostingValue} :
    movedOfValues on (v :: values) =
      (if on v.key then v.signedAmount else 0) + movedOfValues on values := by
  unfold movedOfValues
  by_cases hv : on v.key = true
  · simp only [List.filter_cons, hv, if_pos, List.map_cons, List.sum_cons]
  · simp only [List.filter_cons, hv, if_neg, zero_add, not_false_iff, Bool.false_eq_true]

omit [Arithmetic] [Hashing] in
@[simp] theorem movedOfValues_nil {on : LedgerKey → Bool} : movedOfValues on [] = 0 := rfl

omit [Arithmetic] [Hashing] in
theorem movedOfValues_append {on : LedgerKey → Bool} {xs ys : List PostingValue} :
    movedOfValues on (xs ++ ys) = movedOfValues on xs + movedOfValues on ys := by
  simp [movedOfValues]

omit [Arithmetic] in
theorem moved_postings {values : List PostingValue} (on : LedgerKey → Bool) :
    (((sorted (·.postingId) (values.map (·.posting fill policy))).filter (on ·.key)).map
      fun p => exactly p.signedAmount).sum = movedOfValues on values := by
  have hperm := (sorted_perm (·.postingId) (values.map (·.posting fill policy))).filter (on ·.key)
  unfold movedOfValues
  rw [(hperm.map _).sum_eq, List.filter_map, List.map_map]
  rfl

theorem JournalBuilt.moved {values : List PostingValue}
    (h : JournalBuilt fill projection policy values t) (on : LedgerKey → Bool) :
    t.moved on = movedOfValues on values := by
  unfold JournalTransaction.moved
  rw [h.postings]
  exact moved_postings on

omit [Arithmetic] [Hashing] in
theorem movedOfValues_feeValue {on : LedgerKey → Bool} :
    movedOfValues on (feeValue fill) =
      if on (.feeExecution fill.feeCurrency, .currency fill.feeCurrency) then
        if 0 < fill.fees then fill.fees else 0
      else 0 := by
  unfold feeValue
  by_cases hfee : 0 < fill.fees
  · rw [if_pos hfee, if_pos hfee, movedOfValues_cons, movedOfValues_nil, add_zero]
    rfl
  · rw [if_neg hfee, if_neg hfee, movedOfValues_nil]
    exact (ite_self 0).symm

omit [Hashing] in
theorem movedOfValues_netValue {on : LedgerKey → Bool} {gross : Decimal} :
    movedOfValues on (netValue fill gross) =
      if on (.assetCash fill.feeCurrency, .currency fill.feeCurrency) then kept (gross - fill.fees)
      else 0 := by
  simp only [netValue]
  by_cases hnet : 0 < kept (gross - fill.fees)
  · rw [if_pos hnet, movedOfValues_cons, movedOfValues_nil, add_zero]
    rfl
  · rw [if_neg hnet]
    by_cases hloss : kept (gross - fill.fees) < 0
    · rw [if_pos hloss, movedOfValues_cons, movedOfValues_nil, add_zero]
      show (if _ then -(kept (-kept (gross - fill.fees))) else 0) = _
      rw [kept_neg, kept_kept, neg_neg]
      rfl
    · have hzero : kept (gross - fill.fees) = 0 := le_antisymm (not_lt.mp hnet) (not_lt.mp hloss)
      rw [if_neg hloss, movedOfValues_nil, hzero]
      exact (ite_self 0).symm

/-! ## Cash -/

/-- The currency of an `asset:cash` account. -/
def LedgerAccount.cashCurrency : LedgerAccount → Option Currency
  | .assetCash currency => some currency
  | _ => none

/-- Credits less debits on the `asset:cash` accounts. -/
def JournalTransaction.cashTaken (self : JournalTransaction) : Decimal :=
  -self.moved (·.1.cashCurrency.isSome)

/-- A purchase takes its notional and its fees; a sale takes less than nothing, its net. -/
theorem JournalBuilt.cashTaken_eq {values : List PostingValue}
    (h : JournalBuilt fill projection policy values t) :
    t.cashTaken =
      if fill.side = .buy then kept (fill.gross + fill.fees) else -kept
        (fill.gross - fill.fees) := by
  unfold JournalTransaction.cashTaken
  rw [h.moved]
  rcases fillValues_cases h.values_eq with ⟨hside, rfl⟩ | ⟨hside, cost, rfl⟩
  · rw [if_pos hside, buyValues, movedOfValues_append, movedOfValues_feeValue]
    simp [movedOfValues_cons, PostingValue.key, PostingValue.signedAmount,
      LedgerAccount.cashCurrency]
  · rw [if_neg (by rw [hside]; decide), sellValues, movedOfValues_append, movedOfValues_append,
      movedOfValues_feeValue, movedOfValues_netValue]
    simp [movedOfValues_cons, PostingValue.key, LedgerAccount.cashCurrency]

omit [Arithmetic] [Hashing] in
theorem moved_eq_zero {on : LedgerKey → Bool} (h : ∀ p ∈ t.postings, on p.key = false) :
    t.moved on = 0 := by
  have hnone : t.postings.filter (on ·.key) = [] := by simpa using h
  unfold JournalTransaction.moved
  rw [hnone]
  rfl

/-! ## Inventory -/

theorem JournalBuilt.moved_buy {values : List PostingValue}
    (h : JournalBuilt fill projection policy values t) (hside : fill.side = .buy) :
    t.moved (· = (.inventoryUnits fill.instrumentId, .units fill.instrumentId)) = fill.quantity ∧
      t.moved (· = (.inventoryValue fill.instrumentId fill.feeCurrency,
        .currency fill.feeCurrency)) = fill.gross := by
  have hvalues := h.values_eq
  rw [fillValues, if_pos hside] at hvalues
  cases hvalues
  rw [h.moved, h.moved, buyValues, movedOfValues_append, movedOfValues_append,
    movedOfValues_feeValue, movedOfValues_feeValue]
  constructor <;> simp [movedOfValues_cons, PostingValue.key, PostingValue.signedAmount]

theorem JournalBuilt.moved_sell {values : List PostingValue}
    (h : JournalBuilt fill projection policy values t) (hside : fill.side = .sell) :
    t.moved (· = (.inventoryUnits fill.instrumentId, .units fill.instrumentId)) = -fill.quantity ∧
      t.moved (· = (.inventoryValue fill.instrumentId fill.feeCurrency,
        .currency fill.feeCurrency)) =
        -saleCost fill (projection.inventoryValue fill.instrumentId fill.feeCurrency)
          (projection.position fill.instrumentId) := by
  have hvalues := h.values_eq
  rw [fillValues, if_neg (by rw [hside]; decide)] at hvalues
  obtain ⟨-, -, -, rfl⟩ := sellPostings_eq_success.mp hvalues
  rw [h.moved, h.moved, sellValues]
  simp only [movedOfValues_append, movedOfValues_feeValue, movedOfValues_netValue]
  constructor <;> simp [movedOfValues_cons, PostingValue.key, PostingValue.signedAmount]

end

end StonksPaper
