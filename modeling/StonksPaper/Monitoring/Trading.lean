import StonksPaper.Ledger.Meaning
import StonksPaper.Monitoring.MarkToMarket

/-!
# Trading at the mark

A fill at the mark of its instrument moves value between cash and units. The journal rounds the
notional once and the valuation rounds what is held before and after, so the net asset value falls
by the fees up to one rounding. The rounded value must be a multiple of the currency quantum, which
the last place of a quantum such as `0.05` or `1.00` does not ensure.
-/

namespace StonksPaper

open Chain Quantum

section

variable [Arithmetic] [Hashing] {fill : Fill} {before after : LedgerProjection}
  {policy : LedgerPostingPolicy}
  {opening : AccountPortfolioSnapshot} {ts : List JournalTransaction} {t : JournalTransaction}
  {values : List PostingValue} {key : LedgerKey} {quantum place : Decimal}

/-! ## Money on a quantum -/

omit [Arithmetic] [Hashing] in
theorem halfEvenTo_add {amount change : Decimal} (hplace : IsQuantized quantum place)
    (hchange : IsQuantized change quantum)
    (h : change ≠ 0 → IsQuantized (amount + change) quantum) :
    halfEvenTo (amount + change) place = halfEvenTo amount place + change := by
  by_cases hzero : change = 0
  · rw [hzero, add_zero, add_zero]
  · have hsum := h hzero
    have hamount : IsQuantized amount quantum := by
      have hdifference := hsum.sub hchange
      rwa [add_sub_cancel_right] at hdifference
    rw [halfEvenTo_of_isQuantized (hsum.trans hplace),
      halfEvenTo_of_isQuantized (hamount.trans hplace)]

omit [Arithmetic] [Hashing] in
theorem isQuantized_neg {amount : Decimal} (h : IsQuantized amount quantum) :
    IsQuantized (-amount) quantum := by
  rw [← zero_sub]
  exact (IsQuantized.zero h.pos).sub h

/-! ## The balances that a fill moves -/

omit [Hashing] in
/-- A posting leaves its key on its quantum. -/
theorem postings_quantum {a b : MutableTotals} {postings : List JournalPosting}
    (h : postings.foldlM postTo a = .success b) {posting : JournalPosting}
    (hposting : posting ∈ postings) :
    ∃ y ∈ b, y.key = posting.key ∧ y.quantum = posting.quantum := by
  induction postings generalizing a with
  | nil => cases hposting
  | cons first postings ih =>
      rw [List.foldlM_cons] at h
      obtain ⟨middle, hfirst, hrest⟩ := Attempt.bind_eq_success.mp h
      rcases List.mem_cons.mp hposting with rfl | hlater
      · have hkept := postings_kept hrest
        simp only [postTo, Attempt.bind_eq_success, failUnless_eq_success,
          Attempt.pure_eq] at hfirst
        obtain ⟨_, -, _, hquantum, hmiddle⟩ := hfirst
        cases hmiddle
        obtain ⟨x, hx⟩ := setdefault_has a posting
        have hmem := Table.mem_of_get hx
        have hkey : x.key = posting.key := Table.key_of_get hx
        have hadded : x.add posting ∈ Table.update (·.key = posting.key) (·.add posting)
            (MutableTotals.setdefault a posting) :=
          Table.mem_update.mpr ⟨x, hmem, (if_pos hkey).symm⟩
        obtain ⟨y, hy, hsame, hsame'⟩ := hkept _ hadded
        obtain ⟨hkept', hkept''⟩ := x.add_key posting
        exact ⟨y, hy, hsame.trans (hkept'.trans hkey),
          hsame'.trans (hkept''.trans (hquantum x hmem hkey))⟩
      · exact ih hrest hlater

theorem replayJournal_valid (h : replayJournal opening ts = .success after) :
    after.validate = .success () ∧ ∀ b ∈ after.balances, b.validate = .success () := by
  obtain ⟨-, state, -, hprojection⟩ := replayJournal_eq_success.mp h
  obtain ⟨hbalances, hvalid, rfl⟩ := projectionOf_eq_success.mp hprojection
  exact ⟨hvalid, fun b hb => hbalances b (mem_sorted.mp hb)⟩

theorem replayJournal_head (h : replayJournal opening (ts ++ [t]) = .success after) :
    after.lastOccurredAt = t.occurredAt ∧ ¬ exactly (hasNegativeAsset after) := by
  obtain ⟨-, final, hfinal, hprojection⟩ := replayJournal_eq_success.mp h
  obtain ⟨-, -, rfl⟩ := projectionOf_eq_success.mp hprojection
  rw [replayTransactions, List.foldlM_append] at hfinal
  obtain ⟨state, -, hlast⟩ := Attempt.bind_eq_success.mp hfinal
  rw [List.foldlM_cons] at hlast
  obtain ⟨next, hnext, hsame⟩ := Attempt.bind_eq_success.mp hlast
  cases hsame
  obtain ⟨-, totals, -, rfl, -, hassets⟩ := replayTransaction_eq_success.mp hnext
  exact ⟨rfl, fun hnegative => hassets (hasNegativeAsset_exactly.mpr hnegative)⟩

theorem buildFillJournal_occurredAt (h : buildFillJournal fill before policy = .success t) :
    t.occurredAt = fill.occurredAt := by
  simp only [buildFillJournal, Attempt.bind_eq_success, integrityChecked_eq_success,
    JournalTransaction.create, modelValidate_eq_success] at h
  obtain ⟨_, -, _, -, _, -, _, -, values, -, _, -, -, rfl⟩ := h
  rfl

omit [Hashing] in
/-- A fill posts its currency on its fee quantum. -/
theorem fillValues_quantum {gross : Decimal} (h : fillValues fill gross before = .success values) :
    ∀ v ∈ values, v.commodity = .currency fill.feeCurrency → v.quantum = fill.feeQuantum := by
  have hfee : ∀ v ∈ feeValue fill,
      v.commodity = .currency fill.feeCurrency → v.quantum = fill.feeQuantum := by
    unfold feeValue
    split <;> simp
  have hnet : ∀ v ∈ netValue fill gross,
      v.commodity = .currency fill.feeCurrency → v.quantum = fill.feeQuantum := by
    simp only [netValue]
    split
    · simp
    · split <;> simp
  rcases fillValues_cases h with ⟨-, rfl⟩ | ⟨-, cost, rfl⟩
  · simp only [buyValues, List.forall_mem_append]
    refine ⟨?_, hfee⟩
    simp
  · simp only [sellValues, List.forall_mem_append]
    refine ⟨⟨?_, hnet⟩, hfee⟩
    simp

/-- A balance of the fill's currency that moves is on the fee quantum afterwards. -/
theorem JournalBuilt.moved_quantized (h : JournalBuilt fill before policy values t)
    (hkept : ReplayKept opening (ts ++ [t])) (hbefore : replayJournal opening ts = .success before)
    (hafter : replayJournal opening (ts ++ [t]) = .success after)
    (hcurrency : key.2 = .currency fill.feeCurrency)
    (hmoved : after.balanceOf key ≠ before.balanceOf key) :
    IsQuantized (after.balanceOf key) fill.feeQuantum := by
  have hposted : ∃ posting ∈ t.postings, posting.key = key := by
    by_contra hnone
    have hzero : t.moved (· = key) = 0 := by
      refine moved_eq_zero fun posting hposting => decide_eq_false fun hkey => ?_
      exact hnone ⟨posting, hposting, hkey⟩
    have hbalance := replayJournal_balance (hkept.of_prefix.replayJournal hbefore)
      (hkept.replayJournal hafter) key
    rw [hzero, add_zero] at hbalance
    exact hmoved hbalance
  obtain ⟨posting, hposting, rfl⟩ := hposted
  have hquantum : posting.quantum = fill.feeQuantum := by
    rw [h.postings, mem_sorted] at hposting
    obtain ⟨v, hv, rfl⟩ := List.mem_map.mp hposting
    exact fillValues_quantum h.values_eq v hv hcurrency
  obtain ⟨-, hbalances⟩ := replayJournal_valid hafter
  have hunique := replayJournal_keysUnique hafter
  obtain ⟨state, totals, htotals, -, rfl⟩ := replayJournal_posts hbefore hafter
  obtain ⟨y, hy, hkey, hsame⟩ := postings_quantum htotals hposting
  have hmem : y ∈ (ledgerProjection opening
      ⟨totals, t.sequence, some t.transactionHash, t.occurredAt⟩).balances := mem_sorted.mpr hy
  obtain ⟨-, -, -, ⟨hdebit, -⟩, hcredit, -⟩ :=
    LedgerAccountBalance.validate_iff.mp (hbalances y hmem)
  have hbalance := LedgerProjection.accountBalance_of_mem hunique hmem
  rw [LedgerProjection.balanceOf, exactly, ← hkey, hbalance, ← hquantum, ← hsame]
  exact hdebit.sub hcredit

end

/-! ## What a valuation reads of a posted fill -/

section

open scoped ExactArithmetic

def Fill.cashChange (fill : Fill) : Decimal :=
  if fill.side = .buy then -(fill.gross + fill.fees) else fill.gross - fill.fees

def Fill.unitsAfter (fill : Fill) (before : LedgerProjection) : Decimal :=
  before.position fill.instrumentId + if fill.side = .buy then fill.quantity else -fill.quantity

/-- The ledger before a fill and after it, as far as valuations read them. Cash and fees are read at
any place on which the fee quantum is. -/
structure Fill.PostedTo (fill : Fill) (before after : LedgerProjection) : Prop where
  valid : after.validate = .success ()
  account : after.accountId = before.accountId
  time : after.lastOccurredAt = fill.occurredAt
  assets : ∀ item ∈ after.balances, item.ledgerAccount.isAsset = true → 0 ≤ item.balance
  others : ∀ key ∉ fill.ledgerKeys, after.accountBalance key = before.accountBalance key
  units : after.position fill.instrumentId = fill.unitsAfter before
  gross : IsQuantized fill.gross fill.feeQuantum
  cashChange : IsQuantized fill.cashChange fill.feeQuantum
  cash : ∀ place, IsQuantized fill.feeQuantum place →
    halfEvenTo (after.cash fill.feeCurrency) place =
      halfEvenTo (before.cash fill.feeCurrency) place + fill.cashChange
  fees : ∀ place, IsQuantized fill.feeQuantum place →
    halfEvenTo (after.fees fill.feeCurrency) place =
      halfEvenTo (before.fees fill.feeCurrency) place + fill.fees
  realized : after.realizedPnl fill.feeCurrency = before.realizedPnl fill.feeCurrency ∨
    IsQuantized (after.realizedPnl fill.feeCurrency) fill.feeQuantum

end

section

variable [Arithmetic] [Hashing] {fill : Fill} {before after : LedgerProjection}
  {policy : LedgerPostingPolicy} {opening : AccountPortfolioSnapshot}
  {ts : List JournalTransaction} {t : JournalTransaction} {values : List PostingValue}

theorem JournalBuilt.postedTo (h : JournalBuilt fill before policy values t) (hfill : fill.Valid)
    (hamounts : fill.AmountsKept before) (hkept : ReplayKept opening (ts ++ [t]))
    (ht : buildFillJournal fill before policy = .success t)
    (hbefore : replayJournal opening ts = .success before)
    (hafter : replayJournal opening (ts ++ [t]) = .success after) :
    fill.PostedTo before after := by
  have hbooked := h.booked hfill.fees_nonneg hamounts hkept hbefore hafter
  obtain ⟨htime, hassets⟩ := replayJournal_head hafter
  have hmoves : ∀ key : LedgerKey, key.2 = .currency fill.feeCurrency →
      fill.changeAt (before.costOf fill) key ≠ 0 →
      IsQuantized (before.balanceOf key + fill.changeAt (before.costOf fill) key)
        fill.feeQuantum := by
    intro key hcurrency hchange
    rw [← hbooked key]
    refine h.moved_quantized hkept hbefore hafter hcurrency fun hsame => hchange ?_
    rw [hbooked key] at hsame
    exact left_eq_add.mp hsame.symm
  have hnotional : fill.gross = exactly fill.gross :=
    congrArg (halfEvenTo · fill.feePlace) hamounts.notional
  have hgross : IsQuantized (exactly fill.gross) fill.feeQuantum := hnotional ▸ h.gross_quantized
  have hcash : fill.changeAt (before.costOf fill) fill.cashKey = fill.cashChange := by
    rw [Fill.changeAt, if_pos rfl, hnotional]
    rfl
  have hfees : fill.changeAt (before.costOf fill) fill.feeKey = fill.fees := by
    simp [Fill.changeAt, Fill.feeKey, Fill.cashKey, Fill.unitsKey, Fill.valueKey, Fill.profitKey]
  have hunits : fill.changeAt (before.costOf fill) fill.unitsKey =
      if fill.side = .buy then fill.quantity else -fill.quantity := by
    simp [Fill.changeAt, Fill.cashKey, Fill.unitsKey]
  have hcashChange : IsQuantized fill.cashChange fill.feeQuantum := by
    unfold Fill.cashChange
    split
    · exact isQuantized_neg (hgross.add hfill.fees_quantized)
    · exact hgross.sub hfill.fees_quantized
  refine ⟨(replayJournal_valid hafter).1, ?_, ?_, ?_, ?_, ?_, hgross, hcashChange, ?_, ?_, ?_⟩
  · rw [replayJournal_accountId hafter, replayJournal_accountId hbefore]
  · rw [htime, buildFillJournal_occurredAt ht]
  · intro item hitem hasset
    by_contra hnegative
    exact hassets ⟨item, hitem, hasset, not_le.mp hnegative⟩
  · intro key hkey
    have hbalance := hbooked key
    rw [Fill.changeAt_of_not_mem hkey, add_zero] at hbalance
    exact hbalance
  · rw [Fill.unitsAfter, ← hunits]
    exact hbooked fill.unitsKey
  · intro place hplace
    have hmoved := hmoves fill.cashKey rfl
    have hbalance := hbooked fill.cashKey
    rw [hcash] at hmoved hbalance
    change halfEvenTo (after.balanceOf fill.cashKey) place = _
    rw [hbalance]
    exact halfEvenTo_add hplace hcashChange hmoved
  · intro place hplace
    have hmoved := hmoves fill.feeKey rfl
    have hbalance := hbooked fill.feeKey
    rw [hfees] at hmoved hbalance
    change halfEvenTo (after.balanceOf fill.feeKey) place = _
    rw [hbalance]
    exact halfEvenTo_add hplace hfill.fees_quantized hmoved
  · by_cases hsame : after.balanceOf fill.profitKey = before.balanceOf fill.profitKey
    · exact .inl (congrArg Neg.neg hsame)
    · exact .inr (isQuantized_neg (h.moved_quantized hkept hbefore hafter rfl hsame))

end

/-! ## The ledger and its marks after a fill -/

section

open scoped ExactArithmetic

variable {fill : Fill} {command : MarkToMarketCommand} {after : LedgerProjection}
  {mark : PointInTimeMark} {asOf : UTCDateTime} {valuationId : UUID}

namespace MarkToMarketCommand

def onOpen (command : MarkToMarketCommand) : MarkToMarketCommand :=
  { command with
    marks := command.marks.filter fun mark => command.ledger.position mark.instrumentId ≠ 0 }

def onLedger (command : MarkToMarketCommand) (ledger : LedgerProjection) (valuationId : UUID)
    (asOf : UTCDateTime) : MarkToMarketCommand :=
  { command with ledger, valuationId, asOf }

/-- The marks are a set in which the instrument of the fill is marked at the fill's price, in the
currency of the ledger and by the time of the later valuation. -/
structure Marks (command : MarkToMarketCommand) (fill : Fill) (mark : PointInTimeMark)
    (asOf : UTCDateTime) : Prop where
  unique : Table.Unique (·.instrumentId) command.marks
  feeCurrency : fill.feeCurrency = command.baseCurrency
  feeQuantum : fill.feeQuantum = command.currencyQuantum
  mem : mark ∈ command.marks
  instrument : mark.instrumentId = fill.instrumentId
  price : mark.price = fill.price
  currency : mark.currency = command.baseCurrency
  available : mark.availableAt ≤ asOf

theorem mem_onOpen : mark ∈ command.onOpen.marks ↔
    mark ∈ command.marks ∧ command.ledger.position mark.instrumentId ≠ 0 := by
  simp [onOpen]

theorem Valid.onOpen (h : command.Valid) : command.onOpen.Valid where
  account := h.account
  currency := h.currency
  ledger := h.ledger
  prices mark hmark := h.prices mark (mem_onOpen.mp hmark).1
  length := (List.length_filter_le _ _).trans h.length
  quantum_pos := h.quantum_pos

theorem Valid.onLedger (h : command.Valid) (hafter : after.validate = .success ()) :
    (command.onLedger after valuationId asOf).Valid :=
  ⟨h.account, h.currency, hafter, h.prices, h.length, h.quantum_pos⟩

end MarkToMarketCommand

theorem Fill.PostedTo.position (h : fill.PostedTo command.ledger after) {i : UUID}
    (hi : i ≠ fill.instrumentId) : after.position i = command.ledger.position i := by
  refine h.others (.inventoryUnits i, .units i) ?_
  simp [Fill.ledgerKeys, Fill.cashKey, Fill.clearingCashKey, Fill.feeKey, Fill.profitKey,
    Fill.valueKey, Fill.unitsKey, Fill.clearingUnitsKey, hi]

/-- A balance that the fill does not touch was there before. -/
theorem Fill.PostedTo.untouched (h : fill.PostedTo command.ledger after)
    {item : LedgerAccountBalance} (hitem : item ∈ after.balances) (hne : item.balance ≠ 0)
    (hkey : item.key ∉ fill.ledgerKeys) :
    ∃ item' ∈ command.ledger.balances, item'.key = item.key ∧ item'.balance = item.balance := by
  have hunique := LedgerProjection.keysUnique_of_validate h.valid
  have hbalance := LedgerProjection.accountBalance_of_mem hunique hitem
  have hsame := h.others item.key hkey
  rw [hbalance, LedgerProjection.accountBalance] at hsame
  cases hfind : command.ledger.balances.find? (·.key = item.key) with
  | none =>
      rw [hfind] at hsame
      exact absurd hsame hne
  | some item' =>
      rw [hfind] at hsame
      have hfound : item'.key = item.key := by simpa using List.find?_some hfind
      exact ⟨item', List.mem_of_find?_eq_some hfind, hfound, hsame.symm⟩

/-- What the units after the fill are worth at its price, rounded to the place of the currency, is
on the currency's quantum, if there are any. -/
def MarkToMarketCommand.StaysOnQuantum (command : MarkToMarketCommand) (fill : Fill) : Prop :=
  fill.unitsAfter command.ledger ≠ 0 →
    IsQuantized (halfEvenTo (fill.unitsAfter command.ledger * fill.price) command.currencyPlace)
      command.currencyQuantum

theorem MarkToMarketCommand.staysOnQuantum (hquantum : 0 < command.currencyQuantum)
    (hplace : command.currencyPlace = command.currencyQuantum) (fill : Fill) :
    command.StaysOnQuantum fill := by
  intro _
  rw [hplace]
  exact isQuantized_halfEvenTo hquantum

theorem Fill.ledgerKeys_monetary {key : LedgerKey} (h : key ∈ fill.ledgerKeys)
    (hmonetary : key.1.isMonetary = true) : key.2 = .currency fill.feeCurrency := by
  simp only [ledgerKeys, List.mem_cons, List.not_mem_nil, or_false] at h
  rcases h with rfl | rfl | rfl | rfl | rfl | rfl | rfl
  · rfl
  · cases hmonetary
  · rfl
  · rfl
  · cases hmonetary
  · cases hmonetary
  · cases hmonetary

theorem Fill.ledgerKeys_units {key : LedgerKey} (h : key ∈ fill.ledgerKeys) {i : UUID}
    (hunits : key.1 = .inventoryUnits i) : key.2 = .units i := by
  simp only [ledgerKeys, List.mem_cons, List.not_mem_nil, or_false] at h
  rcases h with rfl | rfl | rfl | rfl | rfl | rfl | rfl
  · cases hunits
  · cases hunits
  · cases hunits
  · cases hunits
  · cases hunits
  · cases hunits
    rfl
  · cases hunits

theorem Fill.PostedTo.cash_nonneg (h : fill.PostedTo command.ledger after) (currency : Currency) :
    0 ≤ after.cash currency := by
  unfold LedgerProjection.cash LedgerProjection.accountBalance
  cases hfind : after.balances.find? (·.key = (.assetCash currency, .currency currency)) with
  | none => exact le_rfl
  | some item =>
      have hkey : item.key = (.assetCash currency, .currency currency) := by
        simpa using List.find?_some hfind
      have haccount : item.ledgerAccount = .assetCash currency := (Prod.ext_iff.mp hkey).1
      exact h.assets item (List.mem_of_find?_eq_some hfind) (by rw [haccount]; rfl)

namespace MarkToMarketCommand

theorem Marks.eq (h : command.Marks fill mark asOf) {other : PointInTimeMark}
    (hother : other ∈ command.marks) (hsame : other.instrumentId = fill.instrumentId) :
    other = mark := h.unique.eq hother h.mem (hsame.trans h.instrument.symm)

/-- An open instrument after the fill is the fill's, or was open before it. -/
theorem Marks.open_iff (h : command.Marks fill mark asOf)
    (hposted : fill.PostedTo command.ledger after) (hvaluable : command.onOpen.Valuable)
    (i : UUID) :
    after.position i ≠ 0 ↔
      ∃ m ∈ (command.onLedger after valuationId asOf).onOpen.marks, m.instrumentId = i := by
  constructor
  · intro hopen
    by_cases hi : i = fill.instrumentId
    · subst hi
      rw [← h.instrument] at hopen
      exact ⟨mark, mem_onOpen.mpr ⟨h.mem, hopen⟩, h.instrument⟩
    · have hbefore := hopen
      rw [hposted.position hi] at hbefore
      obtain ⟨m, hm, rfl⟩ := (hvaluable.open_iff i).mp hbefore
      exact ⟨m, mem_onOpen.mpr ⟨(mem_onOpen.mp hm).1, hopen⟩, rfl⟩
  · intro hmarked
    obtain ⟨m, hm, rfl⟩ := hmarked
    exact (mem_onOpen.mp hm).2

/-- A mark of another instrument is there after the fill if it was there before, and values the same
units. -/
theorem valued_onLedger (hposted : fill.PostedTo command.ledger after) {m : PointInTimeMark}
    (hm : m.instrumentId ≠ fill.instrumentId) :
    (m ∈ (command.onLedger after valuationId asOf).onOpen.marks ↔ m ∈ command.onOpen.marks) ∧
      (command.onLedger after valuationId asOf).onOpen.valued m = command.onOpen.valued m := by
  have hposition := hposted.position hm
  constructor
  · rw [mem_onOpen, mem_onOpen]
    show m ∈ command.marks ∧ after.position m.instrumentId ≠ 0 ↔ _
    rw [hposition]
  · show PositionValuation.mk _ (after.position m.instrumentId) _
      (halfEvenTo (after.position m.instrumentId * m.price) _) _ _ = _
    rw [hposition]
    rfl

theorem Marks.place (h : command.Marks fill mark asOf) (hwritten : command.Written) :
    IsQuantized fill.feeQuantum command.currencyPlace := h.feeQuantum ▸ hwritten

theorem Marks.cashValue_onLedger (valuationId : UUID) (h : command.Marks fill mark asOf)
    (hwritten : command.Written) (hposted : fill.PostedTo command.ledger after) :
    (command.onLedger after valuationId asOf).onOpen.cashValue =
      command.onOpen.cashValue + fill.cashChange := by
  have hcash := hposted.cash _ (h.place hwritten)
  rw [h.feeCurrency] at hcash
  exact hcash

theorem Marks.feesValue_onLedger (valuationId : UUID) (h : command.Marks fill mark asOf)
    (hwritten : command.Written) (hposted : fill.PostedTo command.ledger after) :
    (command.onLedger after valuationId asOf).onOpen.feesValue =
      command.onOpen.feesValue + fill.fees := by
  have hfees := hposted.fees _ (h.place hwritten)
  rw [h.feeCurrency] at hfees
  exact hfees

/-- A ledger that could be valued before a fill can be valued after it, if the value of the units of
its instrument stays on the quantum. -/
theorem Valuable.of_fill (hwritten : command.Written) (hfill : fill.Valid)
    (hposted : fill.PostedTo command.ledger after) (hmarks : command.Marks fill mark asOf)
    (hasOf : command.asOf ≤ asOf) (htime : fill.occurredAt ≤ asOf)
    (h : command.onOpen.Valuable) (hstays : command.StaysOnQuantum fill) :
    (command.onLedger after valuationId asOf).onOpen.Valuable := by
  have hcash := hmarks.cashValue_onLedger valuationId hwritten hposted
  have hfees := hmarks.feesValue_onLedger valuationId hwritten hposted
  have hcashChange := hposted.cashChange
  have hfeeChange := hfill.fees_quantized
  rw [hmarks.feeQuantum] at hcashChange hfeeChange
  refine ⟨hposted.account.trans h.account, ?_, ?_, ?_, hmarks.unique.filter _,
    hmarks.open_iff hposted h, ?_, ⟨?_, ?_⟩, ⟨?_, ?_⟩, ?_⟩
  · exact hposted.time.le.trans htime
  · intro item hitem hmonetary hne
    by_cases hkey : item.key ∈ fill.ledgerKeys
    · exact (fill.ledgerKeys_monetary hkey hmonetary).trans (congrArg _ hmarks.feeCurrency)
    · obtain ⟨item', hitem', hsame, hbalance⟩ := hposted.untouched hitem hne hkey
      obtain ⟨haccount, hcommodity⟩ := Prod.ext_iff.mp hsame
      have hmonetary' : item'.ledgerAccount.isMonetary = true := by
        rw [show item'.ledgerAccount = _ from haccount]
        exact hmonetary
      have hbefore := h.currency item' hitem' hmonetary' (by rw [hbalance]; exact hne)
      exact hcommodity.symm.trans hbefore
  · intro item hitem i haccount hne
    have hasset : item.ledgerAccount.isAsset = true := by rw [haccount]; rfl
    refine ⟨hposted.assets item hitem hasset, ?_⟩
    by_cases hkey : item.key ∈ fill.ledgerKeys
    · exact fill.ledgerKeys_units hkey haccount
    · obtain ⟨item', hitem', hsame, hbalance⟩ := hposted.untouched hitem hne hkey
      obtain ⟨haccount', hcommodity⟩ := Prod.ext_iff.mp hsame
      have hbefore := h.positions item' hitem' i (haccount'.trans haccount)
        (by rw [hbalance]; exact hne)
      exact hcommodity.symm.trans hbefore.2
  · intro m hm
    by_cases hi : m.instrumentId = fill.instrumentId
    · obtain ⟨hmem, hopen⟩ := mem_onOpen.mp hm
      obtain rfl := hmarks.eq hmem hi
      refine ⟨⟨hmarks.currency, hmarks.available⟩, ?_⟩
      have hunits : after.position m.instrumentId = fill.unitsAfter command.ledger := by
        rw [hi]
        exact hposted.units
      change IsQuantized (halfEvenTo (after.position m.instrumentId * m.price)
        command.currencyPlace) command.currencyQuantum
      change after.position m.instrumentId ≠ 0 at hopen
      rw [hunits] at hopen ⊢
      rw [hmarks.price]
      exact hstays hopen
    · obtain ⟨hmem, hvalued⟩ := valued_onLedger hposted hi
      obtain ⟨⟨hcurrency, havailable⟩, hquantized⟩ := h.marks m (hmem.mp hm)
      rw [hvalued]
      exact ⟨⟨hcurrency, havailable.trans hasOf⟩, hquantized⟩
  · exact halfEvenTo_nonneg hwritten.pos (hposted.cash_nonneg _)
  · rw [hcash]
    exact h.cash.2.add hcashChange
  · rw [hfees]
    exact add_nonneg h.fees.1 hfill.fees_nonneg
  · rw [hfees]
    exact h.fees.2.add hfeeChange
  · change IsQuantized (halfEvenTo (after.realizedPnl command.baseCurrency) command.currencyPlace) _
    have hrealized := hposted.realized
    rw [hmarks.feeCurrency, hmarks.feeQuantum] at hrealized
    rcases hrealized with hsame | hquantized
    · rw [hsame]
      exact h.realized
    · rw [halfEvenTo_of_isQuantized (hquantized.trans hwritten)]
      exact hquantized

/-! ## The figures after a fill -/

theorem valued_closed (hwritten : command.Written)
    (hclosed : command.ledger.position mark.instrumentId = 0) :
    (command.valued mark).marketValue = 0 := by
  show halfEvenTo (command.ledger.position mark.instrumentId * mark.price) command.currencyPlace = 0
  rw [hclosed, zero_mul]
  exact halfEvenTo_of_isQuantized (.zero hwritten.pos)

/-- The marked positions are worth what all instruments of the set are, as the closed ones are worth
nothing. -/
theorem sum_valuedPositions (hwritten : command.Written) :
    (command.onOpen.valuedPositions.map (·.marketValue)).sum =
      (command.marks.map fun m => (command.valued m).marketValue).sum := by
  have hperm := (command.onOpen.valuedPositions_perm.map (·.marketValue)).sum_eq
  rw [hperm, List.map_map]
  show ((command.marks.filter fun m => command.ledger.position m.instrumentId ≠ 0).map
    fun m => (command.valued m).marketValue).sum = _
  induction command.marks with
  | nil => rfl
  | cons m marks ih =>
      by_cases hopen : command.ledger.position m.instrumentId ≠ 0
      · rw [List.filter_cons_of_pos (by simpa using hopen), List.map_cons, List.map_cons,
          List.sum_cons, List.sum_cons, ih]
      · have hzero : (command.valued m).marketValue = 0 := valued_closed hwritten (not_not.mp hopen)
        rw [List.filter_cons_of_neg (by simpa using hopen), List.map_cons, List.sum_cons, hzero,
          zero_add, ih]

theorem Valuable.value_quantized (h : command.onOpen.Valuable) (hwritten : command.Written)
    (hquantum : 0 < command.currencyQuantum) (hmark : mark ∈ command.marks) :
    IsQuantized (command.valued mark).marketValue command.currencyQuantum := by
  by_cases hopen : command.ledger.position mark.instrumentId = 0
  · rw [valued_closed hwritten hopen]
    exact .zero hquantum
  · exact (h.marks mark (mem_onOpen.mpr ⟨hmark, hopen⟩)).2

/-- A sum over unique rows, of which one contributes something else. -/
theorem sum_map_of_ne {ι κ : Type} {id : ι → κ} {rows : List ι} {x : ι} {f g : ι → Decimal}
    (hunique : Table.Unique id rows) (hx : x ∈ rows) (h : ∀ y ∈ rows, id y ≠ id x → f y = g y) :
    (rows.map f).sum = (rows.map g).sum + (f x - g x) := by
  induction rows with
  | nil => cases hx
  | cons row rows ih =>
      obtain ⟨hfresh, hrest⟩ := List.nodup_cons.mp hunique
      rw [List.map_cons, List.map_cons, List.sum_cons, List.sum_cons]
      rcases List.mem_cons.mp hx with rfl | hmem
      · have hsame : rows.map f = rows.map g := by
          refine List.map_congr_left fun y hy => h y (List.mem_cons_of_mem _ hy) fun hid => ?_
          exact hfresh (List.mem_map.mpr ⟨y, hy, hid⟩)
        rw [hsame]
        ring
      · have hne : id row ≠ id x := fun hid => hfresh (List.mem_map.mpr ⟨x, hmem, hid.symm⟩)
        rw [ih hrest hmem fun y hy => h y (List.mem_cons_of_mem _ hy), h row List.mem_cons_self hne]
        ring

end MarkToMarketCommand

/-- The second valuation is the first one after a fill at the mark. -/
structure PortfolioValuation.TradesTo (v : PortfolioValuation) (fill : Fill)
    (v' : PortfolioValuation) : Prop where
  nav : |v'.nav - (v.nav - fill.fees)| ≤ v.currencyQuantum
  fees : v'.cumulativeFees = v.cumulativeFees + fill.fees
  others : ∀ p : PositionValuation, p.instrumentId ≠ fill.instrumentId →
    (p ∈ v'.positions ↔ p ∈ v.positions)

namespace MarkToMarketCommand

section

variable [Hashing]

/-- The figures of a ledger after a fill at the mark. -/
theorem tradesTo (hwritten : command.Written) (hplace : fill.Written)
    (hquantum : 0 < command.currencyQuantum) (hposted : fill.PostedTo command.ledger after)
    (hmarks : command.Marks fill mark asOf) (h : command.onOpen.Valuable)
    (hlater : (command.onLedger after valuationId asOf).onOpen.Valuable) :
    command.onOpen.valuation.TradesTo fill
      (command.onLedger after valuationId asOf).onOpen.valuation := by
  let later := command.onLedger after valuationId asOf
  have hsum : (later.onOpen.valuedPositions.map (·.marketValue)).sum =
      (command.onOpen.valuedPositions.map (·.marketValue)).sum +
        ((later.valued mark).marketValue - (command.valued mark).marketValue) := by
    have hlaterSum : (later.onOpen.valuedPositions.map (·.marketValue)).sum =
        (command.marks.map fun m => (later.valued m).marketValue).sum :=
      sum_valuedPositions (show later.Written from hwritten)
    rw [hlaterSum, sum_valuedPositions hwritten]
    refine sum_map_of_ne hmarks.unique hmarks.mem fun m _ hm => ?_
    rw [hmarks.instrument] at hm
    show halfEvenTo (after.position m.instrumentId * m.price) _ =
      halfEvenTo (command.ledger.position m.instrumentId * m.price) _
    rw [hposted.position hm]
    rfl
  have hvalue := h.value_quantized hwritten hquantum hmarks.mem
  have hvalue' : IsQuantized (later.valued mark).marketValue command.currencyQuantum :=
    Valuable.value_quantized hlater (show later.Written from hwritten) hquantum hmarks.mem
  have hgross : IsQuantized fill.gross command.currencyQuantum := hmarks.feeQuantum ▸ hposted.gross
  have hplace' : IsQuantized command.currencyQuantum fill.feePlace := hmarks.feeQuantum ▸ hplace
  have hbefore : (command.valued mark).marketValue = halfEvenTo
      (command.ledger.position fill.instrumentId * fill.price) command.currencyPlace := by
    rw [← hmarks.instrument, ← hmarks.price]
    rfl
  have hafter : (later.valued mark).marketValue = halfEvenTo
      (fill.unitsAfter command.ledger * fill.price) command.currencyPlace := by
    rw [← hposted.units, ← hmarks.instrument, ← hmarks.price]
    rfl
  rw [hbefore] at hvalue hsum
  rw [hafter] at hvalue' hsum
  have hcash : later.onOpen.cashValue = command.onOpen.cashValue + fill.cashChange :=
    hmarks.cashValue_onLedger _ hwritten hposted
  constructor
  · show |later.onOpen.valuation.nav - (command.onOpen.valuation.nav - fill.fees)| ≤ _
    rw [valuation_nav, valuation_nav, hsum, hcash, Fill.cashChange]
    rw [Fill.unitsAfter] at hvalue' ⊢
    by_cases hside : fill.side = .buy
    · rw [if_pos hside, add_mul] at hvalue' ⊢
      rw [if_pos hside]
      have hround := abs_halfEvenTo_add_sub_le hwritten hplace' hvalue' hvalue hgross
      refine le_trans (le_of_eq (congrArg abs ?_)) hround
      show _ = _ - _ - fill.gross
      ring
    · rw [if_neg hside] at hvalue' ⊢
      rw [if_neg hside]
      have hunits : command.ledger.position fill.instrumentId * fill.price =
          (command.ledger.position fill.instrumentId + -fill.quantity) * fill.price +
            fill.quantity * fill.price := by ring
      rw [hunits] at hvalue
      have hround := abs_halfEvenTo_add_sub_le hwritten hplace' hvalue hvalue' hgross
      rw [← hunits] at hround
      rw [← abs_neg]
      refine le_trans (le_of_eq (congrArg abs ?_)) hround
      show _ = _ - _ - fill.gross
      ring
  · exact hmarks.feesValue_onLedger _ hwritten hposted
  · intro p hp
    show p ∈ later.onOpen.valuedPositions ↔ p ∈ command.onOpen.valuedPositions
    rw [mem_valuedPositions, mem_valuedPositions]
    constructor
    · intro h
      obtain ⟨m, hm, rfl⟩ := h
      obtain ⟨hmem, hvalued⟩ := valued_onLedger hposted hp
      exact ⟨m, hmem.mp hm, hvalued.symm⟩
    · intro h
      obtain ⟨m, hm, rfl⟩ := h
      obtain ⟨hmem, hvalued⟩ := valued_onLedger hposted hp
      exact ⟨m, hmem.mpr hm, hvalued⟩

end

/-- A ledger that was valued before a fill at the mark is valued after it, less the fees, exactly if
the value of the units of the fill's instrument stays on the currency quantum, when neither the
ledger nor the valuations round a figure to the digits of the context. -/
theorem markToMarket_fill_iff [Arithmetic] [Hashing] (opening : AccountPortfolioSnapshot)
    (ts : List JournalTransaction) (fill : Fill) (policy : LedgerPostingPolicy)
    (t : JournalTransaction) (after : LedgerProjection) (command : MarkToMarketCommand)
    (mark : PointInTimeMark) (valuationId : UUID) (asOf : UTCDateTime) (v : PortfolioValuation)
    (hcommand : command.validate = .success ()) (hfill : fill.Valid)
    (hwritten : command.Written ∧ fill.Written) (hamounts : fill.AmountsKept command.ledger)
    (hkept : ReplayKept opening (ts ++ [t])) (hfigures : command.onOpen.FiguresKept)
    (hfigures' : (command.onLedger after valuationId asOf).onOpen.FiguresKept)
    (hbefore : replayJournal opening ts = .success command.ledger)
    (ht : buildFillJournal fill command.ledger policy = .success t)
    (hafter : replayJournal opening (ts ++ [t]) = .success after)
    (hmarks : command.Marks fill mark asOf) (hasOf : command.asOf ≤ asOf)
    (htime : fill.occurredAt ≤ asOf) (hv : command.onOpen.markToMarket = .success v) :
    (∃ v', (command.onLedger after valuationId asOf).onOpen.markToMarket = .success v' ∧
        v.TradesTo fill v') ↔ command.StaysOnQuantum fill := by
  obtain ⟨values, hbuilt⟩ := buildFillJournal_built ht
  have hposted := hbuilt.postedTo hfill hamounts hkept ht hbefore hafter
  have hvalid := valid_of_validate hcommand
  have hlater : (command.onLedger after valuationId asOf).onOpen.Valid :=
    (hvalid.onLedger hposted.valid).onOpen
  have hplace : (command.onLedger after valuationId asOf).onOpen.Written := hwritten.1
  obtain ⟨hvaluable, rfl⟩ := (markToMarket_eq_success hvalid.onOpen hwritten.1 hfigures).mp hv
  constructor
  · intro h hopen
    obtain ⟨v', hv', -⟩ := h
    obtain ⟨hvaluable', -⟩ := (markToMarket_eq_success hlater hplace hfigures').mp hv'
    have hunits : exactly (after.position mark.instrumentId) = fill.unitsAfter command.ledger := by
      rw [hmarks.instrument]
      exact hposted.units
    have hmem : mark ∈ (command.onLedger after valuationId asOf).onOpen.marks := by
      refine mem_onOpen.mpr ⟨hmarks.mem, ?_⟩
      show exactly (after.position mark.instrumentId) ≠ 0
      rwa [hunits]
    have hquantized : IsQuantized (halfEvenTo (exactly (after.position mark.instrumentId) *
        mark.price) command.currencyPlace) command.currencyQuantum := (hvaluable'.marks mark hmem).2
    rwa [hunits, hmarks.price] at hquantized
  · intro hstays
    have hvaluable' : (command.onLedger after valuationId asOf).onOpen.Valuable :=
      hvaluable.of_fill hwritten.1 hfill hposted hmarks hasOf htime hstays
    exact ⟨_, (markToMarket_eq_success hlater hplace hfigures').mpr ⟨hvaluable', rfl⟩,
      tradesTo hwritten.1 hwritten.2 hvalid.quantum_pos hposted hmarks hvaluable hvaluable'⟩

end MarkToMarketCommand

end

namespace Scenario

open scoped PythonArithmetic CodeHashing

def twentieths : AccountPortfolioSnapshot :=
  { snapshot {} with cash := [⟨"USD", 10000, 0, 1 / 20⟩] }

/-- One unit for a little more than a twentieth, and a fee of a twentieth. -/
def smallBuy (fillId : UUID) : Fill :=
  { trade .buy 1 (27 / 500) with
    fillId
    priceQuantum := 1 / 1000
    fees := 1 / 20
    feeQuantum := 1 / 20
    feePlace := lastPlace (1 / 20) }

def smallMark : PointInTimeMark :=
  { instrumentId := 1
    currency := "USD"
    price := 27 / 500
    eventTime := 40
    availableAt := 40
    evidenceId := 0
    sourceArtifactRef := 0 }

def valuing (ledger : LedgerProjection) : MarkToMarketCommand :=
  { valuationId := 0
    accountId := "paper"
    baseCurrency := "USD"
    asOf := 60
    ledger
    marks := [smallMark]
    currencyQuantum := 1 / 20 }

theorem smallBuy_valid (fillId : UUID) : (smallBuy fillId).Valid := by
  have hvalid : (smallBuy fillId).validate = (smallBuy 0).validate := rfl
  exact Fill.validate_iff.mp (hvalid.trans (by decide +kernel))

theorem valuing_marks (ledger : LedgerProjection) (fillId : UUID) :
    (valuing ledger).Marks (smallBuy fillId) smallMark 60 :=
  ⟨List.nodup_singleton _, rfl, rfl, List.mem_singleton_self _, rfl, rfl, rfl, by decide⟩

theorem smallBuy_amountsKept (fillId : UUID) (before : LedgerProjection) :
    (smallBuy fillId).AmountsKept before := by
  have hbuy : (smallBuy fillId).side = .buy := rfl
  have hnotional : IsKept ((smallBuy 0).quantity * (smallBuy 0).price) := by decide +kernel
  have hpaid : IsKept ((smallBuy 0).gross + (smallBuy 0).fees) := by decide +kernel
  exact ⟨hnotional, fun _ => hpaid, fun h => absurd hbuy h, fun h => absurd hbuy h,
    fun h => absurd hbuy h⟩

/-- The first purchase opens the position. -/
theorem markToMarket_fill_iff_opened : ∃ before t after v,
    replayJournal twentieths [] = .success before ∧
      buildFillJournal (smallBuy 1) before ⟨"1.0.0"⟩ = .success t ∧
      replayJournal twentieths [t] = .success after ∧
      (valuing before).onOpen.markToMarket = .success v ∧
      ((∃ v', ((valuing before).onLedger after 1 60).onOpen.markToMarket = .success v' ∧
        v.TradesTo (smallBuy 1) v') ↔ (valuing before).StaysOnQuantum (smallBuy 1)) := by
  have hrun : (replayJournal twentieths []).SucceedsWith fun p₀ =>
      (valuing p₀).validate = .success () ∧ (valuing p₀).onOpen.markToMarket.Succeeds ∧
        (valuing p₀).onOpen.FiguresKept ∧
        (buildFillJournal (smallBuy 1) p₀ ⟨"1.0.0"⟩).SucceedsWith fun t₁ =>
          ReplayKept twentieths [t₁] ∧ (replayJournal twentieths [t₁]).SucceedsWith fun p₁ =>
            ((valuing p₀).onLedger p₁ 1 60).onOpen.FiguresKept := by
    decide +kernel
  obtain ⟨before, hbefore, hcommand, ⟨v, hv⟩, hfigures, t, ht, hkept, after, hafter, hfigures'⟩ :=
    hrun
  have hwritten : (valuing before).Written ∧ (smallBuy 1).Written := by
    have htwentieth := isQuantized_lastPlace (q := 1 / 20) (by norm_num)
    exact ⟨htwentieth, htwentieth⟩
  exact ⟨before, t, after, v, hbefore, ht, hafter, hv,
    MarkToMarketCommand.markToMarket_fill_iff twentieths [] _ ⟨"1.0.0"⟩ t after (valuing before)
      smallMark 1 60 v hcommand (smallBuy_valid 1) hwritten
      (smallBuy_amountsKept 1 before) hkept hfigures hfigures' hbefore ht hafter
      (valuing_marks before 1) le_rfl (by decide) hv⟩

/-- The value of one unit rounds to a twentieth, that of two units to no multiple of it. -/
theorem markToMarket_fails_after_fill : (smallBuy 2).Valid ∧ ∃ t₁ before t₂ after v,
    replayJournal twentieths [t₁] = .success before ∧ (valuing before).validate = .success () ∧
      buildFillJournal (smallBuy 2) before ⟨"1.0.0"⟩ = .success t₂ ∧
      replayJournal twentieths [t₁, t₂] = .success after ∧
      (valuing before).Marks (smallBuy 2) smallMark 60 ∧
      (valuing before).onOpen.markToMarket = .success v ∧
      ((valuing before).onLedger after 1 60).onOpen.markToMarket =
        .failure ⟨.invalidInput, "Valuation mark is invalid", []⟩ := by
  have hrun : (replayJournal twentieths []).SucceedsWith fun p₀ =>
      (buildFillJournal (smallBuy 1) p₀ ⟨"1.0.0"⟩).SucceedsWith fun t₁ =>
        (replayJournal twentieths [t₁]).SucceedsWith fun p₁ =>
          (valuing p₁).validate = .success () ∧ (valuing p₁).onOpen.markToMarket.Succeeds ∧
            (buildFillJournal (smallBuy 2) p₁ ⟨"1.0.0"⟩).SucceedsWith fun t₂ =>
              (replayJournal twentieths [t₁, t₂]).SucceedsWith fun p₂ =>
                ((valuing p₁).onLedger p₂ 1 60).onOpen.markToMarket =
                  .failure ⟨.invalidInput, "Valuation mark is invalid", []⟩ := by
    decide +kernel
  obtain ⟨_, -, t₁, -, before, hbefore, hcommand, ⟨v, hv⟩, t₂, ht, after, hafter, hfails⟩ := hrun
  exact ⟨smallBuy_valid 2, t₁, before, t₂, after, v, hbefore, hcommand, ht, hafter,
    valuing_marks before 2, hv, hfails⟩

end Scenario

end StonksPaper
