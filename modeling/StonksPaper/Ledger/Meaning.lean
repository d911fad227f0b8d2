import StonksPaper.Ledger.Conservation
import StonksPaper.Ledger.Cost

/-!
# The meaning of a fill

A purchase pays its notional and its fees and adds its units at the notional. A sale receives its
notional less its fees, removes its units at their cost and books the difference as a profit. The
clearing accounts see the cash go in and out, and no other account moves. All of it holds of amounts
that are not rounded on their way into the ledger.
-/

namespace StonksPaper

open Chain Quantum

/-! ## The keys of a fill -/

section keys

variable (fill : Fill)

def Fill.cashKey : LedgerKey := (.assetCash fill.feeCurrency, .currency fill.feeCurrency)

def Fill.clearingCashKey : LedgerKey := (.clearingCash fill.feeCurrency, .currency fill.feeCurrency)

def Fill.feeKey : LedgerKey := (.feeExecution fill.feeCurrency, .currency fill.feeCurrency)

def Fill.profitKey : LedgerKey := (.pnlRealized fill.feeCurrency, .currency fill.feeCurrency)

def Fill.valueKey : LedgerKey :=
  (.inventoryValue fill.instrumentId fill.feeCurrency, .currency fill.feeCurrency)

def Fill.unitsKey : LedgerKey := (.inventoryUnits fill.instrumentId, .units fill.instrumentId)

def Fill.clearingUnitsKey : LedgerKey :=
    (.clearingUnits fill.instrumentId, .units fill.instrumentId)

def Fill.ledgerKeys : List LedgerKey :=
  [fill.cashKey, fill.clearingCashKey, fill.feeKey, fill.profitKey, fill.valueKey, fill.unitsKey,
    fill.clearingUnitsKey]

end keys

/-- What a fill changes in the balance of a key, debits less credits, when its units have the cost.
A purchase and a sale leave the cash in the clearing account, and every other key, as it was. -/
def Fill.changeAt [Arithmetic] (fill : Fill) (cost : Decimal) (key : LedgerKey) : Decimal :=
  if key = fill.cashKey then
    if fill.side = .buy then -(fill.gross + fill.fees) else fill.gross - fill.fees
  else if key = fill.unitsKey then if fill.side = .buy then fill.quantity else -fill.quantity
  else if key = fill.valueKey then if fill.side = .buy then fill.gross else -cost
  else if key = fill.profitKey then if fill.side = .buy then 0 else -(fill.gross - cost)
  else if key = fill.feeKey then fill.fees
  else if key = fill.clearingUnitsKey then
    if fill.side = .buy then -fill.quantity else fill.quantity
  else 0

theorem Fill.changeAt_of_not_mem [Arithmetic] {fill : Fill} {cost : Decimal} {key : LedgerKey}
    (h : key ∉ fill.ledgerKeys) : fill.changeAt cost key = 0 := by
  simp only [Fill.ledgerKeys, List.mem_cons, List.not_mem_nil, or_false, not_or] at h
  obtain ⟨hcash, -, hfee, hprofit, hvalue, hunits, hclearing⟩ := h
  simp [Fill.changeAt, hcash, hfee, hprofit, hvalue, hunits, hclearing]

theorem Fill.changeAt_clearingCash [Arithmetic] {fill : Fill} {cost : Decimal} :
    fill.changeAt cost fill.clearingCashKey = 0 := by
  simp [changeAt, cashKey, clearingCashKey, feeKey, profitKey, valueKey, unitsKey, clearingUnitsKey]

def LedgerProjection.balanceOf (self : LedgerProjection) (key : LedgerKey) : Decimal :=
  exactly (self.accountBalance key)

section

variable [Arithmetic] [Hashing] {fill : Fill} {projection before after : LedgerProjection}
  {policy : LedgerPostingPolicy} {opening : AccountPortfolioSnapshot}
  {ts : List JournalTransaction} {t : JournalTransaction} {gross cost : Decimal} {key : LedgerKey}

/-! ## What the values move -/

omit [Arithmetic] [Hashing] in
theorem movedOfValues_at {v : PostingValue} {values : List PostingValue} :
    movedOfValues (· = key) (v :: values) =
      (if v.key = key then v.signedAmount else 0) + movedOfValues (· = key) values := by
  rw [movedOfValues_cons]
  by_cases hkey : v.key = key
  · rw [if_pos hkey, if_pos (decide_eq_true hkey)]
  · rw [if_neg hkey, if_neg (by simpa using hkey)]

omit [Arithmetic] [Hashing] in
theorem feeValue_moved (hfees : 0 ≤ fill.fees) :
    movedOfValues (· = key) (feeValue fill) = if fill.feeKey = key then fill.fees else 0 := by
  unfold feeValue
  by_cases hpos : 0 < fill.fees
  · rw [if_pos hpos, movedOfValues_at, movedOfValues_nil, add_zero]
    rfl
  · rw [if_neg hpos, movedOfValues_nil, le_antisymm (not_lt.mp hpos) hfees, ite_self]

omit [Hashing] in
theorem netValue_moved (hnet : IsKept (gross - fill.fees)) :
    movedOfValues (· = key) (netValue fill gross) =
      if fill.cashKey = key then gross - fill.fees else 0 := by
  rw [movedOfValues_netValue, show kept (gross - fill.fees) = gross - fill.fees from hnet]
  by_cases hkey : fill.cashKey = key
  · rw [if_pos hkey]
    exact if_pos (decide_eq_true hkey)
  · rw [if_neg hkey]
    exact if_neg fun h => hkey (of_decide_eq_true h)

omit [Hashing] in
/-- The clearing account pays what it owes, so a purchase leaves it as it was. -/
theorem buyValues_moved (hfees : 0 ≤ fill.fees) (hpaid : IsKept (gross + fill.fees)) :
    movedOfValues (· = key) (buyValues fill gross) =
      (if fill.cashKey = key then -(gross + fill.fees) else 0) +
        (if fill.valueKey = key then gross else 0) +
        (if fill.unitsKey = key then fill.quantity else 0) +
        (if fill.clearingUnitsKey = key then -fill.quantity else 0) +
        if fill.feeKey = key then fill.fees else 0 := by
  have hclearing : (if fill.clearingCashKey = key then -gross else 0) +
      (if fill.clearingCashKey = key then gross else 0) = 0 := by
    by_cases hkey : fill.clearingCashKey = key
    · rw [if_pos hkey, if_pos hkey, neg_add_cancel]
    · rw [if_neg hkey, if_neg hkey, add_zero]
  rw [buyValues, movedOfValues_append, feeValue_moved hfees,
    show kept (gross + fill.fees) = gross + fill.fees from hpaid]
  simp only [movedOfValues_at, movedOfValues_nil]
  change (if fill.valueKey = key then gross else 0) +
    ((if fill.clearingCashKey = key then -gross else 0) +
      ((if fill.clearingCashKey = key then gross else 0) +
        ((if fill.cashKey = key then -(gross + fill.fees) else 0) +
          ((if fill.unitsKey = key then fill.quantity else 0) +
            ((if fill.clearingUnitsKey = key then -fill.quantity else 0) + 0))))) + _ = _
  linarith

omit [Hashing] in
/-- A sale's notional goes through the clearing account to the profit. -/
theorem sellValues_moved (hfees : 0 ≤ fill.fees) (hnet : IsKept (gross - fill.fees)) :
    movedOfValues (· = key) (sellValues fill gross cost) =
      (if fill.cashKey = key then gross - fill.fees else 0) +
        (if fill.valueKey = key then -cost else 0) +
        (if fill.unitsKey = key then -fill.quantity else 0) +
        (if fill.clearingUnitsKey = key then fill.quantity else 0) +
        (if fill.profitKey = key then -(gross - cost) else 0) +
        if fill.feeKey = key then fill.fees else 0 := by
  have hclearing : (if fill.clearingCashKey = key then gross else 0) +
      (if fill.clearingCashKey = key then -gross else 0) = 0 := by
    by_cases hkey : fill.clearingCashKey = key
    · rw [if_pos hkey, if_pos hkey, add_neg_cancel]
    · rw [if_neg hkey, if_neg hkey, add_zero]
  have hprofit : (if fill.profitKey = key then -gross else 0) +
      (if fill.profitKey = key then cost else 0) =
        if fill.profitKey = key then -(gross - cost) else 0 := by
    by_cases hkey : fill.profitKey = key
    · rw [if_pos hkey, if_pos hkey, if_pos hkey]
      ring
    · rw [if_neg hkey, if_neg hkey, if_neg hkey, add_zero]
  rw [sellValues, movedOfValues_append, movedOfValues_append, feeValue_moved hfees,
    netValue_moved hnet]
  simp only [movedOfValues_at, movedOfValues_nil]
  change (if fill.clearingUnitsKey = key then fill.quantity else 0) +
    ((if fill.unitsKey = key then -fill.quantity else 0) +
      ((if fill.clearingCashKey = key then gross else 0) +
        ((if fill.profitKey = key then -gross else 0) +
          ((if fill.clearingCashKey = key then -gross else 0) +
            ((if fill.profitKey = key then cost else 0) +
              ((if fill.valueKey = key then -cost else 0) + 0)))))) + _ + _ = _
  linarith

/-! ## The meaning -/

/-- No amount of the fill is rounded on its way into the ledger: neither its product, nor what is
paid or received, nor what a sale reads of the units and of their value. -/
structure Fill.AmountsKept (fill : Fill) (before : LedgerProjection) : Prop where
  notional : IsKept (fill.quantity * fill.price)
  paid : fill.side = .buy → IsKept (fill.gross + fill.fees)
  received : fill.side ≠ .buy → IsKept (fill.gross - fill.fees)
  units : fill.side ≠ .buy → IsKept (before.balanceOf fill.unitsKey)
  value : fill.side ≠ .buy → IsKept (before.balanceOf fill.valueKey)

theorem JournalBuilt.moved_at {values : List PostingValue}
    (h : JournalBuilt fill projection policy values t) :
    t.moved (· = key) =
      if fill.side = .buy then movedOfValues (· = key) (buyValues fill fill.gross)
      else movedOfValues (· = key) (sellValues fill fill.gross (projection.costOf fill)) := by
  rw [h.moved]
  have hvalues := h.values_eq
  by_cases hside : fill.side = .buy
  · rw [fillValues, if_pos hside] at hvalues
    cases hvalues
    rw [if_pos hside]
  · rw [fillValues, if_neg hside] at hvalues
    obtain ⟨-, -, -, rfl⟩ := sellPostings_eq_success.mp hvalues
    rw [if_neg hside]
    rfl

/-- A replay that goes on with a built transaction books the fill. -/
theorem JournalBuilt.booked (hfees : 0 ≤ fill.fees) (hamounts : fill.AmountsKept before)
    {values : List PostingValue} (h : JournalBuilt fill before policy values t)
    (hkept : ReplayKept opening (ts ++ [t]))
    (hbefore : replayJournal opening ts = .success before)
    (hafter : replayJournal opening (ts ++ [t]) = .success after) :
    ∀ key, after.balanceOf key =
      before.balanceOf key + fill.changeAt (before.costOf fill) key := by
  have hbalance : ∀ key, after.balanceOf key = before.balanceOf key +
      if fill.side = .buy then
        (if fill.cashKey = key then -(fill.gross + fill.fees) else 0) +
          (if fill.valueKey = key then fill.gross else 0) +
          (if fill.unitsKey = key then fill.quantity else 0) +
          (if fill.clearingUnitsKey = key then -fill.quantity else 0) +
          if fill.feeKey = key then fill.fees else 0
      else
        (if fill.cashKey = key then fill.gross - fill.fees else 0) +
          (if fill.valueKey = key then -before.costOf fill else 0) +
          (if fill.unitsKey = key then -fill.quantity else 0) +
          (if fill.clearingUnitsKey = key then fill.quantity else 0) +
          (if fill.profitKey = key then -(fill.gross - before.costOf fill) else 0) +
          if fill.feeKey = key then fill.fees else 0 := by
    intro key
    have hmoved := replayJournal_balance (hkept.of_prefix.replayJournal hbefore)
      (hkept.replayJournal hafter) key
    rw [h.moved_at] at hmoved
    refine hmoved.trans (congrArg _ ?_)
    by_cases hside : fill.side = .buy
    · rw [if_pos hside, if_pos hside, buyValues_moved hfees (hamounts.paid hside)]
    · rw [if_neg hside, if_neg hside, sellValues_moved hfees (hamounts.received hside)]
  have hothers : ∀ key ∉ fill.ledgerKeys, after.balanceOf key = before.balanceOf key := by
    intro key hkey
    simp only [Fill.ledgerKeys, List.mem_cons, List.not_mem_nil, or_false, not_or] at hkey
    obtain ⟨hcash, -, hfee, hprofit, hvalue, hunits, hclearing⟩ := hkey
    rw [hbalance key, if_neg (Ne.symm hcash), if_neg (Ne.symm hfee), if_neg (Ne.symm hprofit),
      if_neg (Ne.symm hvalue), if_neg (Ne.symm hunits), if_neg (Ne.symm hclearing),
      if_neg (Ne.symm hcash), if_neg (Ne.symm hvalue), if_neg (Ne.symm hunits),
      if_neg (Ne.symm hclearing)]
    simp
  -- Each account of the fill has a key of its own, so at most one term of the sum is there.
  have hat : ∀ key ∈ fill.ledgerKeys, after.balanceOf key = before.balanceOf key +
      fill.changeAt (before.costOf fill) key := by
    intro key hkey
    rw [hbalance key]
    simp only [Fill.ledgerKeys, List.mem_cons, List.not_mem_nil, or_false] at hkey
    rcases hkey with rfl | rfl | rfl | rfl | rfl | rfl | rfl <;>
      simp [Fill.changeAt, Fill.cashKey, Fill.clearingCashKey, Fill.valueKey, Fill.unitsKey,
        Fill.clearingUnitsKey, Fill.profitKey, Fill.feeKey]
  intro key
  by_cases hkey : key ∈ fill.ledgerKeys
  · exact hat key hkey
  · rw [hothers key hkey, Fill.changeAt_of_not_mem hkey, add_zero]

omit [Hashing] in
theorem buyValues_balanced (hfees : 0 ≤ fill.fees) (hpaid : IsKept (gross + fill.fees))
    (commodity : Commodity) : movedOfValues (·.2 = commodity) (buyValues fill gross) = 0 := by
  have hfee : (if 0 < fill.fees then fill.fees else 0) = fill.fees := by
    split
    · rfl
    · linarith
  have hpaid' : kept (gross + fill.fees) = gross + fill.fees := hpaid
  simp only [buyValues, movedOfValues_append, movedOfValues_feeValue, hfee, hpaid',
    movedOfValues_cons, movedOfValues_nil, PostingValue.key, PostingValue.signedAmount]
  cases commodity with
  | currency code =>
      by_cases hcode : fill.feeCurrency = code
      · simp [hcode]
      · simp [hcode]
  | units instrument =>
      by_cases hinstrument : fill.instrumentId = instrument
      · simp [hinstrument]
      · simp [hinstrument]

theorem JournalBuilt.balanced (hfees : 0 ≤ fill.fees) (hamounts : fill.AmountsKept before)
    {values : List PostingValue} (h : JournalBuilt fill before policy values t)
    (commodity : Commodity) : t.moved (·.2 = commodity) = 0 := by
  rw [h.moved]
  rcases fillValues_cases h.values_eq with ⟨hside, rfl⟩ | ⟨hside, cost, rfl⟩
  · exact buyValues_balanced hfees (hamounts.paid hside) commodity
  · have hsell : fill.side ≠ .buy := by
      rw [hside]
      decide
    exact sellValues_balanced hfees (hamounts.received hsell) commodity

omit [Hashing] in
theorem LedgerProjection.costOf_whole (hvalue : IsKept (before.balanceOf fill.valueKey))
    (hall : before.position fill.instrumentId = fill.quantity) :
    before.costOf fill = before.balanceOf fill.valueKey := by
  rw [LedgerProjection.costOf, saleCost, if_pos hall]
  exact (before.accountBalance_eq_kept fill.valueKey).trans hvalue

/-- What a journal says of the fill that it was built from, when no amount and no total is rounded:
it is balanced, it goes on from the ledger's head, and replaying it books the notional, the units,
their cost and the fees, and nothing else. -/
theorem buildFillJournal_meaning (opening : AccountPortfolioSnapshot)
    (ts : List JournalTransaction) (before : LedgerProjection) (fill : Fill)
    (policy : LedgerPostingPolicy) (t : JournalTransaction) (hfill : fill.Valid)
    (hwritten : fill.Written) (hamounts : fill.AmountsKept before)
    (hkept : ReplayKept opening (ts ++ [t]))
    (hbefore : replayJournal opening ts = .success before)
    (ht : buildFillJournal fill before policy = .success t) :
    (∀ commodity, t.moved (·.2 = commodity) = 0) ∧
      t.sequence = before.ledgerSequence + 1 ∧ t.previousHash = before.ledgerHash ∧
      fill.gross = halfEvenTo (fill.quantity * fill.price) fill.feeQuantum ∧
      (fill.side ≠ .buy → before.balanceOf fill.unitsKey = fill.quantity →
        before.costOf fill = before.balanceOf fill.valueKey) ∧
      ∀ after, replayJournal opening (ts ++ [t]) = .success after →
        (∀ key, after.balanceOf key =
          before.balanceOf key + fill.changeAt (before.costOf fill) key) ∧
        after.balanceOf fill.clearingCashKey = before.balanceOf fill.clearingCashKey ∧
        ∀ key ∉ fill.ledgerKeys, after.balanceOf key = before.balanceOf key := by
  obtain ⟨values, hjournal⟩ := buildFillJournal_built ht
  obtain ⟨-, -, -, hsequence, hprevious, -⟩ := buildFillJournal_names ht
  have hgross : fill.gross = halfEvenTo (fill.quantity * fill.price) fill.feeQuantum := by
    have hquantized := hjournal.gross_quantized
    have hnotional : kept (fill.quantity * fill.price) = fill.quantity * fill.price :=
      hamounts.notional
    rw [Fill.gross, hnotional] at hquantized ⊢
    exact halfEvenTo_eq_halfEvenTo hwritten hquantized
  have hwhole : fill.side ≠ .buy → before.balanceOf fill.unitsKey = fill.quantity →
      before.costOf fill = before.balanceOf fill.valueKey := by
    intro hside hall
    refine LedgerProjection.costOf_whole (hamounts.value hside) ?_
    have hunits : kept (before.balanceOf fill.unitsKey) = before.balanceOf fill.unitsKey :=
      hamounts.units hside
    exact (before.accountBalance_eq_kept fill.unitsKey).trans (hunits.trans hall)
  refine ⟨hjournal.balanced hfill.fees_nonneg hamounts, hsequence, hprevious, hgross, hwhole,
    fun after hafter => ?_⟩
  have hbooked := hjournal.booked hfill.fees_nonneg hamounts hkept hbefore hafter
  refine ⟨hbooked, ?_, fun key hkey => ?_⟩
  · rw [hbooked, Fill.changeAt_clearingCash, add_zero]
  · rw [hbooked, Fill.changeAt_of_not_mem hkey, add_zero]

end

namespace Scenario

open scoped PythonArithmetic CodeHashing

/-- The sale of two of the three units takes the whole of their rounded cost. -/
theorem buildFillJournal_meaning_sold : ∃ ts before t after,
    replayJournal (snapshot {}) ts = .success before ∧
      buildFillJournal (trade .sell 2 1) before ⟨"1.0.0"⟩ = .success t ∧
      replayJournal (snapshot {}) (ts ++ [t]) = .success after ∧
      ∀ key, after.balanceOf key =
        before.balanceOf key + (trade .sell 2 1).changeAt 1 key := by
  have hrun : (replayJournal (snapshot {}) []).SucceedsWith fun p₀ =>
      (buildFillJournal (trade .buy 3 (2 / 5)) p₀ ⟨"1.0.0"⟩).SucceedsWith fun t₁ =>
        (replayJournal (snapshot {}) [t₁]).SucceedsWith fun p₁ =>
          p₁.costOf (trade .sell 2 1) = 1 ∧
            (IsKept (p₁.balanceOf (trade .sell 2 1).unitsKey) ∧
              IsKept (p₁.balanceOf (trade .sell 2 1).valueKey)) ∧
            (buildFillJournal (trade .sell 2 1) p₁ ⟨"1.0.0"⟩).SucceedsWith fun t₂ =>
              ReplayKept (snapshot {}) ([t₁] ++ [t₂]) ∧
                (replayJournal (snapshot {}) [t₁, t₂]).Succeeds := by
    decide +kernel
  obtain ⟨p₀, -, t₁, -, before, hbefore, hcost, ⟨hunits, hvalue⟩, t, ht, hkept, after, hafter⟩ :=
    hrun
  have hvalid : (trade .sell 2 1).Valid :=
    Fill.validate_iff.mp (show (trade .sell 2 1).validate = .success () by decide +kernel)
  have hamounts : (trade .sell 2 1).AmountsKept before :=
    ⟨by decide +kernel, by decide, by decide +kernel, fun _ => hunits, fun _ => hvalue⟩
  obtain ⟨-, -, -, -, -, hbooked⟩ := buildFillJournal_meaning (snapshot {}) [t₁] before _ _ t hvalid
    (by decide +kernel) hamounts hkept hbefore ht
  refine ⟨[t₁], before, t, after, hbefore, ht, hafter, fun key => ?_⟩
  have hkey := (hbooked after hafter).1 key
  rwa [hcost] at hkey

def cents : AccountPortfolioSnapshot :=
  { snapshot {} with cash := [⟨"USD", 10000, 0, 1 / 100⟩] }

/-- A purchase whose product has 31 digits and lies just above a half cent. -/
def longProduct : Fill :=
  { trade .buy (100000782866985716345356 / 10 ^ 21) (1000042171 / 10 ^ 9) with
    quantityQuantum := 1 / 10 ^ 21
    priceQuantum := 1 / 10 ^ 9
    feeQuantum := 1 / 100
    feePlace := 1 / 100 }

/-- The 28 digits of the product are half a cent, so the ledger books a cent less than the notional
rounded half-even. -/
theorem product_rounded_twice : cents.Valid ∧ (longProduct.Valid ∧ longProduct.InBounds) ∧
    longProduct.Written ∧
    ∃ before t after, replayJournal cents [] = .success before ∧
      buildFillJournal longProduct before ⟨"1.0.0"⟩ = .success t ∧
      replayJournal cents [t] = .success after ∧
      after.balanceOf longProduct.valueKey = before.balanceOf longProduct.valueKey + 100 ∧
      halfEvenTo (longProduct.quantity * longProduct.price) longProduct.feeQuantum =
      10001 / 100 := by
  have hrun : (replayJournal cents []).SucceedsWith fun before =>
      (buildFillJournal longProduct before ⟨"1.0.0"⟩).SucceedsWith fun t =>
        (replayJournal cents [t]).SucceedsWith fun after =>
          after.balanceOf longProduct.valueKey = before.balanceOf longProduct.valueKey + 100 := by
    decide +kernel
  obtain ⟨before, hbefore, t, ht, after, hafter, hvalue⟩ := hrun
  have hvalid : longProduct.Valid :=
    Fill.validate_iff.mp (show longProduct.validate = .success () by decide +kernel)
  exact ⟨⟨by decide +kernel, by decide +kernel, by decide +kernel⟩, ⟨hvalid, by decide +kernel⟩,
    by decide +kernel, before, t, after, hbefore, ht, hafter, hvalue, by decide +kernel⟩

end Scenario

end StonksPaper
