import StonksPaper.Ledger.Meaning

/-!
# Fills that cannot be posted

`build_fill_journal` guards the transaction but neither the rounding of its amounts nor its
postings. A result with too many digits raises there, and so does a posting whose amount is off its
quantum.
-/

namespace StonksPaper

open Chain Quantum

section

variable [Arithmetic] [Hashing] {fill : Fill} {projection : LedgerProjection}
  {policy : LedgerPostingPolicy}

def Fill.CanPost (fill : Fill) (amount : Decimal) : Prop :=
  IsQuantized amount fill.feeQuantum ∧ Takes amount fill.feeQuantum

/-- The ledger has the units of a sale, and a value for them. -/
def Fill.Available (fill : Fill) (projection : LedgerProjection) : Prop :=
  fill.instrumentId ∉ projection.unvaluedInstrumentIds ∧
    fill.quantity ≤ projection.position fill.instrumentId ∧
      0 < projection.inventoryValue fill.instrumentId fill.feeCurrency

/-- The average cost of the units has no more digits than the context keeps. -/
def Fill.BasisHolds (fill : Fill) (projection : LedgerProjection) : Prop :=
  fill.CostHolds (projection.inventoryValue fill.instrumentId fill.feeCurrency)
    (projection.position fill.instrumentId)

def Fill.BuyPosts (fill : Fill) : Prop :=
  fill.CanPost fill.gross ∧ fill.CanPost (kept (fill.gross + fill.fees))

def Fill.SalePosts (fill : Fill) (cost : Decimal) : Prop :=
  fill.CanPost fill.gross ∧ fill.CanPost cost ∧ fill.CanPost |kept (fill.gross - fill.fees)|

/-- A sale of available units whose cost cannot be rounded, or is accepted and cannot be posted. -/
def Fill.SaleRaises (fill : Fill) (projection : LedgerProjection) : Prop :=
  fill.Available projection ∧ (¬ fill.BasisHolds projection ∨
    (0 < projection.costOf fill ∧
      projection.costOf fill ≤ projection.inventoryValue fill.instrumentId fill.feeCurrency) ∧
        ¬ fill.SalePosts (projection.costOf fill))

/-- The fill passes the first checks, and then its notional cannot be rounded, or it is positive and
an amount of the postings cannot be posted. -/
def Fill.Raises (fill : Fill) (projection : LedgerProjection) : Prop :=
  (fill.accountId = projection.accountId ∧ projection.lastOccurredAt ≤ fill.occurredAt) ∧
    (¬ fill.GrossHolds ∨ 0 < fill.gross ∧
      if fill.side = .buy then ¬ fill.BuyPosts else fill.SaleRaises projection)

def PostingValue.Posts (v : PostingValue) : Prop :=
  (0 < v.amount ∧ IsQuantized v.amount v.quantum) ∧ Takes v.amount v.quantum

omit [Hashing] in
theorem JournalPosting.validate_ne_failure {p : JournalPosting} (e : Failure) :
    p.validate ≠ .failure e := by
  simp [validate, Attempt.bind_eq_failure, positiveDecimal, raiseUnless]

theorem JournalTransaction.create_onlyValueErrors (t : JournalTransaction) :
    OnlyValueErrors (modelValidate JournalTransaction.validate t) := by
  refine OnlyValueErrors.bind ?_ fun _ => onlyValueErrors_success
  unfold validate nonEmptyString atLeast maxLength
  repeat' first
    | exact onlyValueErrors_raiseUnless
    | refine OnlyValueErrors.bind onlyValueErrors_raiseUnless fun _ => ?_

theorem PostingValue.posting_validate_iff {v : PostingValue} :
    (v.posting fill policy).validate = .success () ↔ v.Posts := by
  constructor
  · intro h
    obtain ⟨hpos, -, -, hquantized, htakes⟩ := JournalPosting.validate_iff.mp h
    exact ⟨⟨hpos, hquantized⟩, htakes⟩
  · rintro ⟨hamount, htakes⟩
    exact PostingValue.posting_validate hamount htakes

/-! ## The values of a fill -/

omit [Hashing] in
theorem feeValue_posts (hf : fill.Valid) (hbounds : fill.InBounds) :
    ∀ v ∈ feeValue fill, v.Posts := by
  unfold feeValue
  split
  · rename_i hfee
    simpa [PostingValue.Posts] using ⟨⟨hfee, hf.fees_quantized⟩, hbounds.2.2.1⟩
  · simp

omit [Hashing] in
/-- A purchase can be posted when its notional and what it pays can be. -/
theorem buyValues_posts_iff (hf : fill.Valid) (hbounds : fill.InBounds) (hpos : 0 < fill.gross) :
    (∀ v ∈ buyValues fill fill.gross, v.Posts) ↔ fill.BuyPosts := by
  have hpaid : 0 < fill.gross + fill.fees := add_pos_of_pos_of_nonneg hpos hf.fees_nonneg
  constructor
  · intro h
    have hvalue := h ⟨"inventory_value", .inventoryValue fill.instrumentId fill.feeCurrency,
      .currency fill.feeCurrency, .debit, fill.gross, fill.feeQuantum⟩ (by simp [buyValues])
    have hcash := h ⟨"cash", .assetCash fill.feeCurrency, .currency fill.feeCurrency, .credit,
      kept (fill.gross + fill.fees), fill.feeQuantum⟩ (by simp [buyValues])
    exact ⟨⟨hvalue.1.2, hvalue.2⟩, hcash.1.2, hcash.2⟩
  · rintro ⟨⟨hgross, hgrossTakes⟩, hcash, hcashTakes⟩
    rw [buyValues, List.forall_mem_append]
    refine ⟨?_, feeValue_posts hf hbounds⟩
    simp [PostingValue.Posts, hpos, hgross, hgrossTakes, hpaid, hcash, hcashTakes, hf.quantity_pos,
      hf.quantity_quantized, hbounds.1]

omit [Hashing] in
theorem netValue_posts_iff (hf : fill.Valid) {gross : Decimal} :
    (∀ v ∈ netValue fill gross, v.Posts) ↔ fill.CanPost |kept (gross - fill.fees)| := by
  simp only [netValue]
  rcases lt_trichotomy (kept (gross - fill.fees)) 0 with hneg | hzero | hpos
  · have hpaid : kept (-kept (gross - fill.fees)) = -kept (gross - fill.fees) := by
      rw [kept_neg, kept_kept]
    rw [if_neg hneg.not_gt, if_pos hneg, abs_of_neg hneg, hpaid]
    simp [PostingValue.Posts, Fill.CanPost, hneg]
  · have hnone : fill.CanPost 0 := ⟨.zero hf.fee_quantum_pos, takes_zero _⟩
    simp [hzero, hnone]
  · rw [if_pos hpos, abs_of_pos hpos]
    have hpos' : fill.fees < gross := sub_pos.mp (kept_pos_iff.mp hpos)
    simp [PostingValue.Posts, Fill.CanPost, hpos']

omit [Hashing] in
/-- A sale can be posted when its notional, its cost and what it brings can be. -/
theorem sellValues_posts_iff (hf : fill.Valid) (hbounds : fill.InBounds) {cost : Decimal}
    (hpos : 0 < fill.gross) (hcost : 0 < cost) :
    (∀ v ∈ sellValues fill fill.gross cost, v.Posts) ↔ fill.SalePosts cost := by
  rw [sellValues, List.forall_mem_append, List.forall_mem_append, netValue_posts_iff hf]
  constructor
  · rintro ⟨⟨h, hnet⟩, -⟩
    have hsale := h ⟨"sale_pnl", .pnlRealized fill.feeCurrency, .currency fill.feeCurrency, .credit,
      fill.gross, fill.feeQuantum⟩ (by simp)
    have hbasis := h ⟨"cost_pnl", .pnlRealized fill.feeCurrency, .currency fill.feeCurrency, .debit,
      cost, fill.feeQuantum⟩ (by simp)
    exact ⟨⟨hsale.1.2, hsale.2⟩, ⟨hbasis.1.2, hbasis.2⟩, hnet⟩
  · rintro ⟨⟨hgross, hgrossTakes⟩, ⟨hbasis, hbasisTakes⟩, hnet⟩
    refine ⟨⟨?_, hnet⟩, feeValue_posts hf hbounds⟩
    simp [PostingValue.Posts, hpos, hgross, hgrossTakes, hcost, hbasis, hbasisTakes,
      hf.quantity_pos, hf.quantity_quantized, hbounds.1]

/-! ## What raises -/

omit [Hashing] in
theorem quantize_returns {x : Decimal} :
    (fill.quantize x).Returns ↔ Arithmetic.context.Holds (halfEven (x / fill.feePlace)) := by
  simp [Fill.quantize, Decimal.quantize, Attempt.returns_bind]

omit [Hashing] in
theorem sellPostings_returns {gross : Decimal} : (sellPostings fill gross projection).Returns ↔
    (fill.Available projection → fill.BasisHolds projection) := by
  have hcost : (fill.realisedCost
      (projection.inventoryValue fill.instrumentId fill.feeCurrency)
      (projection.position fill.instrumentId)).Returns ↔ fill.BasisHolds projection := by
    unfold Fill.realisedCost Fill.BasisHolds Fill.CostHolds
    by_cases hall : projection.position fill.instrumentId = fill.quantity
    · simp [hall]
    · rw [if_neg hall, quantize_returns, or_iff_right hall]
  simp only [sellPostings, Attempt.returns_bind, returns_failUnless, failUnless_eq_success,
    true_and, forall_const, hcost, Attempt.pure_eq, Attempt.returns_success, implies_true, and_true,
    Fill.Available]

/-- Building a journal raises when the notional or the cost cannot be rounded, or one of the fill's
values cannot be posted. -/
theorem buildFillJournal_returns_of_values :
    (buildFillJournal fill projection policy).Returns ↔
      (fill.accountId = projection.accountId → projection.lastOccurredAt ≤ fill.occurredAt →
        fill.GrossHolds ∧ (0 < fill.gross → (fillValues fill fill.gross projection).Returns ∧
          ∀ values, fillValues fill fill.gross projection = .success values →
            ∀ v ∈ values, v.Posts)) := by
  have hpostings (postings : List JournalPosting) : (postings.forM (·.validate)).Returns ↔
      ∀ p ∈ postings, p.validate = .success () :=
    Attempt.forM_returns fun p _ => JournalPosting.validate_ne_failure
  have hcreated (t : JournalTransaction) : (integrityChecked "Generated journal is invalid"
      (modelValidate JournalTransaction.validate t)).Returns :=
    integrityChecked_returns (JournalTransaction.create_onlyValueErrors t)
  have hgross (gross : Decimal) : fill.quantize (kept (fill.quantity * fill.price)) =
      .success gross ↔
      fill.GrossHolds ∧ gross = fill.gross := quantize_eq_success
  simp only [buildFillJournal, JournalTransaction.create, Attempt.returns_bind, returns_failUnless,
    failUnless_eq_success, true_and, forall_const, hpostings, hcreated, implies_true, and_true,
    List.forall_mem_map, PostingValue.posting_validate_iff, quantize_returns, hgross, and_imp]
  refine imp_congr_right fun _ => imp_congr_right fun _ => and_congr_right fun hholds => ?_
  constructor
  · intro h
    exact h fill.gross hholds rfl
  · rintro h gross - rfl
    exact h

/-- Building the journal of a valid fill raises exactly when the fill passes the first checks and an
amount cannot be rounded or posted. -/
theorem buildFillJournal_returns_iff (fill : Fill) (projection : LedgerProjection)
    (policy : LedgerPostingPolicy) (hfill : fill.Valid) (hbounds : fill.InBounds) :
    (buildFillJournal fill projection policy).Returns ↔ ¬ fill.Raises projection := by
  have hside : 0 < fill.gross → (((fillValues fill fill.gross projection).Returns ∧
      ∀ values, fillValues fill fill.gross projection = .success values → ∀ v ∈ values, v.Posts) ↔
        ¬ if fill.side = .buy then ¬ fill.BuyPosts else fill.SaleRaises projection) := by
    intro hpos
    by_cases hbuy : fill.side = .buy
    · have hvalues : fillValues fill fill.gross projection = .success (buyValues fill fill.gross) :=
        if_pos hbuy
      rw [hvalues, if_pos hbuy, not_not, ← buyValues_posts_iff hfill hbounds hpos]
      simp
    · have hvalues : fillValues fill fill.gross projection =
          sellPostings fill fill.gross projection := if_neg hbuy
      rw [hvalues, if_neg hbuy, sellPostings_returns]
      constructor
      · rintro ⟨hreturns, hposts⟩ ⟨havailable, hno | ⟨hcost, hno⟩⟩
        · exact hno (hreturns havailable)
        · have hsold := hposts _ (sellPostings_eq_success.mpr
            ⟨havailable, hreturns havailable, hcost, rfl⟩)
          exact hno ((sellValues_posts_iff hfill hbounds hpos hcost.1).mp hsold)
      · intro hraises
        have hholds : fill.Available projection → fill.BasisHolds projection := fun havailable =>
          not_not.mp fun hno => hraises ⟨havailable, .inl hno⟩
        refine ⟨hholds, fun values hsold => ?_⟩
        obtain ⟨havailable, -, hcost, rfl⟩ := sellPostings_eq_success.mp hsold
        refine (sellValues_posts_iff hfill hbounds hpos hcost.1).mpr (not_not.mp fun hno => ?_)
        exact hraises ⟨havailable, .inr ⟨hcost, hno⟩⟩
  rw [buildFillJournal_returns_of_values, Fill.Raises]
  constructor
  · rintro h ⟨⟨haccount, htime⟩, hno | ⟨hpos, hraises⟩⟩
    · exact hno (h haccount htime).1
    · exact (hside hpos).mp ((h haccount htime).2 hpos) hraises
  · intro h haccount htime
    have hholds : fill.GrossHolds := not_not.mp fun hno => h ⟨⟨haccount, htime⟩, .inl hno⟩
    refine ⟨hholds, fun hpos => (hside hpos).mpr fun hraises => ?_⟩
    exact h ⟨⟨haccount, htime⟩, .inr ⟨hpos, hraises⟩⟩

end

namespace Scenario

open scoped PythonArithmetic CodeHashing

def tenths : AccountPortfolioSnapshot := { snapshot {} with cash := [⟨"USD", 10000, 0, 1 / 10⟩] }

def halfDollar : Fill :=
  { trade .buy 1 (1 / 2) with feeQuantum := 1 / 10, feePlace := 1 / 10 }

def wholeDollar : Fill := trade .sell 1 1

theorem wholeDollar_valid : wholeDollar.Valid :=
  Fill.validate_iff.mp (show wholeDollar.validate = .success () by decide +kernel)

theorem halfDollar_posted : ∃ ts p, PostedFills tenths [halfDollar] ts ∧
    replayJournal tenths ts = .success p ∧ wholeDollar.accountId = p.accountId ∧
      buildFillJournal wholeDollar p ⟨"1.0.0"⟩ =
        .raised (.valueError "posting amount must already match commodity quantum") := by
  have hrun : (replayJournal tenths []).SucceedsWith fun p₀ =>
      (buildFillJournal halfDollar p₀ ⟨"1.0.0"⟩).SucceedsWith fun t₁ =>
        (replayJournal tenths [t₁]).SucceedsWith fun p₁ => wholeDollar.accountId = p₁.accountId ∧
          buildFillJournal wholeDollar p₁ ⟨"1.0.0"⟩ =
            .raised (.valueError "posting amount must already match commodity quantum") := by
    decide +kernel
  obtain ⟨p₀, hp₀, t₁, ht₁, p₁, hp₁, haccount, hraised⟩ := hrun
  exact ⟨[t₁], p₁, .post .nil hp₀ ht₁, hp₁, haccount, hraised⟩

theorem buildFillJournal_returns_iff_wholeDollar : ∃ ts p,
    replayJournal tenths ts = .success p ∧
      ((buildFillJournal wholeDollar p ⟨"1.0.0"⟩).Returns ↔
        ¬ wholeDollar.Raises p) := by
  obtain ⟨ts, p, -, hp, -⟩ := halfDollar_posted
  exact ⟨ts, p, hp, buildFillJournal_returns_iff wholeDollar p ⟨"1.0.0"⟩ wholeDollar_valid
    (by decide +kernel)⟩

/-- The half dollar that the unit cost is no multiple of the fee quantum of its sale. -/
theorem buildFillJournal_raises : tenths.Valid ∧ ∃ ts p, PostedFills tenths [halfDollar] ts ∧
    replayJournal tenths ts = .success p ∧ (wholeDollar.Valid ∧ wholeDollar.InBounds) ∧
      wholeDollar.accountId = p.accountId ∧
      ¬ (buildFillJournal wholeDollar p ⟨"1.0.0"⟩).Returns := by
  have hvalid : tenths.Valid := ⟨by decide +kernel, by decide +kernel, by decide +kernel⟩
  obtain ⟨ts, p, hposted, hp, haccount, hraised⟩ := halfDollar_posted
  refine ⟨hvalid, ts, p, hposted, hp, ⟨wholeDollar_valid, by decide +kernel⟩, haccount, ?_⟩
  rw [hraised]
  exact Attempt.not_returns_raised _

end Scenario

end StonksPaper
