import StonksPaper.Ledger.Digits
import StonksPaper.Store.Machine

/-!
# The cost of a sale

The average cost of the units sold is rounded half-even, and a posting has a positive amount. A
sale is posted exactly when its rounded cost is positive and covered; the run results say which
holdings can be sold in every part, as long as no addition of the run is rounded.
-/

namespace StonksPaper

open Chain Quantum

section

variable [Arithmetic] [Hashing] {fill : Fill} {projection : LedgerProjection}
  {policy : LedgerPostingPolicy}

/-! ## What a sale needs -/

/-- The fields of the postings take the amounts, and no sum of some amounts of one commodity is
rounded, whatever the order of the postings. -/
structure ValuesKept (values : List PostingValue) : Prop where
  takes : ∀ v ∈ values, Takes v.amount v.quantum
  sums : ∀ commodity (part : List Decimal),
    part.Subperm ((values.filter (·.commodity = commodity)).map (·.signedAmount)) → IsKept part.sum

/-- The values can be posted as one transaction. -/
structure Postable (values : List PostingValue) : Prop where
  amounts : ∀ v ∈ values, 0 < v.amount ∧ IsQuantized v.amount v.quantum
  kept : ValuesKept values
  quantums : ∀ v ∈ values, ∀ w ∈ values, v.commodity = w.commodity → v.quantum = w.quantum
  roles : (values.map (·.role)).Nodup
  balanced : ∀ commodity, movedOfValues (·.2 = commodity) values = 0
  length : 2 ≤ values.length ∧ values.length ≤ 10000

theorem PostingValue.posting_validate {v : PostingValue}
    (h : 0 < v.amount ∧ IsQuantized v.amount v.quantum) (htakes : Takes v.amount v.quantum) :
    (v.posting fill policy).validate = .success () := by
  have hmemo : ("paper_fill:" ++ uuidText fill.fillId).length ≤ 512 := by
    rw [String.length_append, uuidText_length]
    decide
  exact JournalPosting.validate_iff.mpr
    ⟨h.1, h.2.pos, by simpa [PostingValue.posting] using hmemo, h.2, htakes⟩

theorem Postable.ids (hfree : Hashing.CollisionFree) {values : List PostingValue}
    (h : Postable values) : ((values.map (·.posting fill policy)).map (·.postingId)).Nodup := by
  have hids : (values.map (·.posting fill policy)).map (·.postingId) =
      (values.map (·.role)).map fun role => uuid5 (.record "posting"
        [dump fill.fillId, dump policy.policyHash, dump role]) := by
    rw [List.map_map, List.map_map]
    rfl
  rw [hids]
  refine h.roles.map fun role role' heq => ?_
  simpa using hfree.uuid heq

/-- The postings' sums are sums of the values. -/
theorem ValuesKept.sumsKept {values : List PostingValue} (h : ValuesKept values) :
    SumsKept (sorted (·.postingId) (values.map (·.posting fill policy))) := by
  have hperm (commodity : Commodity) :
      ((((sorted (·.postingId) (values.map (·.posting fill policy))).filter
        (·.commodity = commodity)).map fun p => exactly p.signedAmount).Perm
          ((values.filter (·.commodity = commodity)).map (·.signedAmount))) := by
    have hsorted := sorted_perm (·.postingId) (values.map (·.posting fill policy))
    refine ((hsorted.filter (·.commodity = commodity)).map _).trans ?_
    rw [List.filter_map, List.map_map]
    rfl
  constructor
  · intro p hp hside
    obtain ⟨v, hv, rfl⟩ := List.mem_map.mp (mem_sorted.mp hp)
    have hone : [v.signedAmount].Subperm
        ((values.filter (·.commodity = v.commodity)).map (·.signedAmount)) := by
      refine List.singleton_subperm_iff.mpr (List.mem_map_of_mem (List.mem_filter.mpr ⟨hv, ?_⟩))
      exact decide_eq_true rfl
    have hkept := h.sums v.commodity _ hone
    have hcredit : ¬ v.side = .debit := by
      rw [show v.side = .credit from hside]
      decide
    rw [List.sum_singleton, PostingValue.signedAmount, if_neg hcredit, IsKept, kept_neg,
      neg_inj] at hkept
    exact hkept
  · intro commodity summed hpre
    exact h.sums commodity summed (hpre.sublist.subperm.trans (hperm commodity).subperm)

/-- A fill whose values can be posted is posted. -/
theorem Postable.built (hfree : Hashing.CollisionFree) {values : List PostingValue}
    (h : Postable values) (hprojection : projection.validate = .success ())
    (haccount : fill.accountId = projection.accountId)
    (htime : projection.lastOccurredAt ≤ fill.occurredAt) (hholds : fill.GrossHolds)
    (hgross : 0 < fill.gross) (hvalues : fillValues fill fill.gross projection = .success values) :
    (buildFillJournal fill projection policy).Succeeds := by
  obtain ⟨hname, -, -, hhead, -, -⟩ := LedgerProjection.validate_iff.mp hprojection
  let postings := sorted (·.postingId) (values.map (·.posting fill policy))
  have hlength : postings.length = values.length := by
    rw [(sorted_perm _ _).length_eq, List.length_map]
  have hmem : ∀ p ∈ postings, ∃ v ∈ values, p = v.posting fill policy := by
    intro p hp
    obtain ⟨v, hv, rfl⟩ := List.mem_map.mp (mem_sorted.mp hp)
    exact ⟨v, hv, rfl⟩
  have hbalanced : Balanced postings := by
    refine h.kept.sumsKept.balanced_iff.mpr fun p hp => (Context.sum_exact _).trans ?_
    exact (moved_postings (·.2 = p.commodity)).trans (h.balanced p.commodity)
  have hquantums : ∀ p ∈ postings, ∀ q ∈ postings, p.commodity = q.commodity →
      p.quantum = q.quantum := by
    intro p hp q hq hpq
    obtain ⟨v, hv, rfl⟩ := hmem p hp
    obtain ⟨w, hw, rfl⟩ := hmem q hq
    exact h.quantums v hv w hw hpq
  have hsequence : projection.ledgerSequence + 1 = 1 ↔ projection.ledgerHash = none := by
    rw [← hhead]
    omega
  let t := journalTransaction (uuid5 (.record "journal" [dump fill.fillId, dump policy.policyHash]))
    fill.accountId (projection.ledgerSequence + 1) fill.occurredAt projection.ledgerHash
    fill.orderIntentId fill.fillId postings
  have hvalid : t.validate = .success () := by
    simp only [JournalTransaction.validate, Attempt.bind_eq_success, nonEmptyString_eq_success,
      atLeast_eq_success, maxLength_eq_success, raiseUnless_eq_success]
    have hnonempty : t.accountId ≠ "" := by
      show fill.accountId ≠ ""
      rw [haccount]
      exact hname
    refine ⟨(), hnonempty, (), Nat.le_add_left 1 _, (), ?_, (), ?_, (), hsequence, (),
      sortedUnique_map_sorted.mpr (h.ids hfree), (), hquantums, (), hbalanced, rfl⟩
    · exact hlength ▸ h.length.1
    · exact hlength ▸ h.length.2
  refine ⟨t, ?_⟩
  simp only [buildFillJournal, Attempt.bind_eq_success, failUnless_eq_success,
    integrityChecked_eq_success, JournalTransaction.create, modelValidate_eq_success,
    Attempt.forM_eq_success, quantize_eq_success]
  refine ⟨(), haccount, (), htime, fill.gross, ⟨hholds, rfl⟩, (), hgross, values, hvalues, (), ?_,
    hvalid, rfl⟩
  intro p hp
  obtain ⟨v, hv, rfl⟩ := List.mem_map.mp hp
  exact PostingValue.posting_validate (h.amounts v hv) (h.kept.takes v hv)

def Fill.quantumOf (fill : Fill) : Commodity → Decimal
  | .currency _ => fill.feeQuantum
  | .units _ => fill.quantityQuantum

def PostingValue.OnQuantum (fill : Fill) (v : PostingValue) : Prop :=
  0 < v.amount ∧ IsQuantized v.amount v.quantum ∧ v.quantum = fill.quantumOf v.commodity

omit [Arithmetic] [Hashing] in
theorem feeValue_onQuantum (hf : fill.Valid) : ∀ v ∈ feeValue fill, v.OnQuantum fill := by
  unfold feeValue
  split
  · rename_i hfee
    simpa [PostingValue.OnQuantum, Fill.quantumOf] using ⟨hfee, hf.fees_quantized⟩
  · simp

omit [Hashing] in
theorem netValue_onQuantum (hf : fill.Valid) {gross : Decimal}
    (hgross : IsQuantized gross fill.feeQuantum) (hkept : IsKept (gross - fill.fees)) :
    ∀ v ∈ netValue fill gross, v.OnQuantum fill := by
  have hnet : IsQuantized (gross - fill.fees) fill.feeQuantum := hgross.sub hf.fees_quantized
  have hloss : IsQuantized (-(gross - fill.fees)) fill.feeQuantum := by
    rw [← zero_sub]
    exact (IsQuantized.zero hf.fee_quantum_pos).sub hnet
  have hkept' : kept (-(gross - fill.fees)) = -(gross - fill.fees) := by
    rw [kept_neg, show kept (gross - fill.fees) = gross - fill.fees from hkept]
  simp only [netValue]
  rw [show kept (gross - fill.fees) = gross - fill.fees from hkept, hkept']
  by_cases hpos : 0 < gross - fill.fees
  · rw [if_pos hpos]
    simpa [PostingValue.OnQuantum, Fill.quantumOf] using ⟨by linarith, hnet⟩
  · rw [if_neg hpos]
    by_cases hneg : gross - fill.fees < 0
    · rw [if_pos hneg]
      simpa [PostingValue.OnQuantum, Fill.quantumOf] using ⟨by linarith, by simpa using hloss⟩
    · rw [if_neg hneg]
      simp

omit [Hashing] in
theorem sellValues_onQuantum (hf : fill.Valid) {gross cost : Decimal}
    (hgross : 0 < gross ∧ IsQuantized gross fill.feeQuantum)
    (hcost : 0 < cost ∧ IsQuantized cost fill.feeQuantum) (hnet : IsKept (gross - fill.fees)) :
    ∀ v ∈ sellValues fill gross cost, v.OnQuantum fill := by
  simp only [sellValues, List.forall_mem_append]
  refine ⟨⟨?_, netValue_onQuantum hf hgross.2 hnet⟩, feeValue_onQuantum hf⟩
  simp [PostingValue.OnQuantum, Fill.quantumOf, hgross, hcost, hf.quantity_pos,
    hf.quantity_quantized]

omit [Hashing] in
theorem sellValues_roles {gross cost : Decimal} :
    ((sellValues fill gross cost).map (·.role)).Nodup := by
  simp only [sellValues, netValue, feeValue]
  split
  · split <;> simp
  · split
    · split <;> simp
    · split <;> simp

omit [Hashing] in
theorem sellValues_balanced (hfees : 0 ≤ fill.fees) {gross cost : Decimal}
    (hnet : IsKept (gross - fill.fees)) (commodity : Commodity) :
    movedOfValues (·.2 = commodity) (sellValues fill gross cost) = 0 := by
  have hfee : (if 0 < fill.fees then fill.fees else 0) = fill.fees := by
    split
    · rfl
    · linarith
  have hnet' : kept (gross - fill.fees) = gross - fill.fees := hnet
  simp only [sellValues, movedOfValues_append, movedOfValues_feeValue, movedOfValues_netValue, hfee,
    hnet',
    movedOfValues_cons, movedOfValues_nil, PostingValue.key, PostingValue.signedAmount]
  cases commodity with
  | currency code =>
      by_cases hcode : fill.feeCurrency = code
      · simp [hcode]
        ring
      · simp [hcode]
  | units instrument =>
      by_cases hinstrument : fill.instrumentId = instrument
      · simp [hinstrument]
      · simp [hinstrument]

omit [Hashing] in
theorem sellValues_postable (hf : fill.Valid) {gross cost : Decimal}
    (hgross : 0 < gross ∧ IsQuantized gross fill.feeQuantum)
    (hcost : 0 < cost ∧ IsQuantized cost fill.feeQuantum) (hnet : IsKept (gross - fill.fees))
    (hkept : ValuesKept (sellValues fill gross cost)) : Postable (sellValues fill gross cost) := by
  have hquantum := sellValues_onQuantum hf hgross hcost hnet
  refine ⟨fun v hv => ⟨(hquantum v hv).1, (hquantum v hv).2.1⟩, hkept, ?_, sellValues_roles,
    sellValues_balanced hf.fees_nonneg hnet, ?_⟩
  · intro v hv w hw heq
    rw [(hquantum v hv).2.2, (hquantum w hw).2.2, heq]
  · simp only [sellValues, netValue, feeValue]
    split
    · split <;> simp
    · split
      · split <;> simp
      · split <;> simp

/-! ## One holding -/

omit [Arithmetic] [Hashing] in
/-- The instrument, currency and quantums that the fills of one holding share, and the last place
with which the quantum of the currency is written. -/
structure Holding where
  instrumentId : UUID
  currency : Currency
  feeQuantum : Decimal
  feePlace : Decimal
  quantityQuantum : Decimal
  is_currency : isCurrency currency = true
  fee_quantum_pos : 0 < feeQuantum
  fee_place_pos : 0 < feePlace
  quantity_quantum_pos : 0 < quantityQuantum

structure Fill.Of (fill : Fill) (holding : Holding) : Prop where
  valid : fill.Valid
  instrument : fill.instrumentId = holding.instrumentId
  currency : fill.feeCurrency = holding.currency
  fee_quantum : fill.feeQuantum = holding.feeQuantum
  fee_place : fill.feePlace = holding.feePlace
  quantity_quantum : fill.quantityQuantum = holding.quantityQuantum

namespace Holding

variable (holding : Holding)

def unitsKey : LedgerKey := (.inventoryUnits holding.instrumentId, .units holding.instrumentId)

def valueKey : LedgerKey :=
  (.inventoryValue holding.instrumentId holding.currency, .currency holding.currency)

def units (p : LedgerProjection) : Decimal := exactly (p.accountBalance holding.unitsKey)

def value (p : LedgerProjection) : Decimal := exactly (p.accountBalance holding.valueKey)

/-- No addition of the run is rounded, nor what any part of it leaves of the holding. -/
structure RunKept (opening : AccountPortfolioSnapshot) (ts : List JournalTransaction) : Prop where
  replay : ReplayKept opening ts
  units : ∀ before, before <+: ts → IsKept (balanceAfter opening before holding.unitsKey)
  value : ∀ before, before <+: ts → IsKept (balanceAfter opening before holding.valueKey)

instance (opening : AccountPortfolioSnapshot) (ts : List JournalTransaction) :
    Decidable (holding.RunKept opening ts) :=
  decidable_of_iff (ReplayKept opening ts ∧ ∀ before ∈ ts.inits,
    IsKept (balanceAfter opening before holding.unitsKey) ∧
      IsKept (balanceAfter opening before holding.valueKey)) <| by
    simp only [List.mem_inits, forall_and]
    exact ⟨fun h => ⟨h.1, h.2.1, h.2.2⟩, fun h => ⟨h.replay, h.units, h.value⟩⟩

/-- What every posting keeps: amounts on their quantums, and no value without units. -/
structure Carried (p : LedgerProjection) : Prop where
  unvalued : holding.instrumentId ∉ p.unvaluedInstrumentIds
  units_nonneg : 0 ≤ holding.units p
  value_nonneg : 0 ≤ holding.value p
  empty : holding.units p = 0 → holding.value p = 0
  units_quantized : IsQuantized (holding.units p) holding.quantityQuantum
  value_quantized : IsQuantized (holding.value p) holding.feeQuantum

end Holding

/-- Fills posted one after the other, each on the replay of those before it. -/
inductive PostedFills (opening : AccountPortfolioSnapshot) :
    List Fill → List JournalTransaction → Prop
  | nil : PostedFills opening [] []
  | post {fills : List Fill} {ts : List JournalTransaction} {fill : Fill}
      {projection : LedgerProjection} {policy : LedgerPostingPolicy} {t : JournalTransaction}
      (posted : PostedFills opening fills ts)
      (replayed : replayJournal opening ts = .success projection)
      (built : buildFillJournal fill projection policy = .success t) :
      PostedFills opening (fills ++ [fill]) (ts ++ [t])

variable {holding : Holding} {opening : AccountPortfolioSnapshot} {fills : List Fill}
  {ts : List JournalTransaction} {t : JournalTransaction} {p p' : LedgerProjection}

theorem replayJournal_unvalued (hopening : ∀ b ∈ opening.positions, b.instrumentId ≠ i)
    (h : replayJournal opening ts = .success p) : i ∉ p.unvaluedInstrumentIds := by
  obtain ⟨-, state, -, h⟩ := replayJournal_eq_success.mp h
  rw [(projectionOf_eq_success.mp h).2.2]
  intro hi
  obtain ⟨b, hb, rfl⟩ := List.mem_map.mp (mem_sorted.mp hi)
  exact hopening b (List.mem_filter.mp hb).1 rfl

/-- An opening without the instrument holds nothing of it. -/
theorem carried_opening
    (hopening : ∀ b ∈ opening.positions, b.instrumentId ≠ holding.instrumentId)
    (h : replayJournal opening [] = .success p) : holding.Carried p := by
  have hunvalued := replayJournal_unvalued hopening h
  have hunique := replayJournal_keysUnique h
  obtain ⟨-, state, hstate, h⟩ := replayJournal_eq_success.mp h
  obtain ⟨-, -, rfl⟩ := projectionOf_eq_success.mp h
  cases hstate
  have hunits : holding.units (ledgerProjection opening (.opening opening)) = 0 := by
    refine (ledgerProjection_balance hunique).trans ?_
    unfold MutableTotals.balance
    rw [Table.get_eq_none.mpr]
    · rfl
    · simp only [ReplayState.opening, openingTotals, Table.Fresh, List.mem_append, List.mem_map]
      rintro b (⟨cash, -, rfl⟩ | ⟨position, hposition, rfl⟩)
      · simp [openingCash, LedgerAccountBalance.key, Holding.unitsKey]
      · simpa [openingPosition, LedgerAccountBalance.key, Holding.unitsKey] using
          hopening position hposition
  have hvalue : holding.value (ledgerProjection opening (.opening opening)) = 0 := by
    refine (ledgerProjection_balance hunique).trans ?_
    unfold MutableTotals.balance
    rw [Table.get_eq_none.mpr]
    · rfl
    · simp only [ReplayState.opening, openingTotals, Table.Fresh, List.mem_append, List.mem_map]
      rintro b (⟨cash, -, rfl⟩ | ⟨position, hposition, rfl⟩)
      · simp [openingCash, LedgerAccountBalance.key, Holding.valueKey]
      · simp [openingPosition, LedgerAccountBalance.key, Holding.valueKey]
  exact ⟨hunvalued, hunits.ge, hvalue.ge, fun _ => hvalue,
    hunits ▸ .zero holding.quantity_quantum_pos, hvalue ▸ .zero holding.fee_quantum_pos⟩

theorem JournalBuilt.gross_quantized {values : List PostingValue}
    (h : JournalBuilt fill projection policy values t) : IsQuantized fill.gross
    fill.feeQuantum := by
  rcases fillValues_cases h.values_eq with ⟨-, rfl⟩ | ⟨-, cost, rfl⟩
  · exact (h.amounts ⟨"inventory_value", .inventoryValue fill.instrumentId fill.feeCurrency,
      .currency fill.feeCurrency, .debit, fill.gross, fill.feeQuantum⟩ (by simp [buyValues])).2
  · exact (h.amounts ⟨"sale_pnl", .pnlRealized fill.feeCurrency, .currency fill.feeCurrency,
      .credit, fill.gross, fill.feeQuantum⟩ (by simp [sellValues])).2

theorem JournalBuilt.cost_quantized {gross cost : Decimal}
    (h : JournalBuilt fill projection policy (sellValues fill gross cost) t) :
    IsQuantized cost fill.feeQuantum :=
  (h.amounts ⟨"cost_pnl", .pnlRealized fill.feeCurrency, .currency fill.feeCurrency, .debit, cost,
    fill.feeQuantum⟩ (by simp [sellValues])).2

omit [Hashing] in
theorem saleCost_quantized {value units : Decimal} (hplace : fill.feePlace = fill.feeQuantum)
    (hvalue : IsQuantized value fill.feeQuantum) :
    IsQuantized (saleCost fill value units) fill.feeQuantum := by
  unfold saleCost
  split
  · exact hvalue
  · rw [hplace]
    exact isQuantized_halfEvenTo hvalue.pos

theorem Holding.RunKept.position (hkept : holding.RunKept opening ts)
    (hp : replayJournal opening ts = .success p) :
    p.accountBalance holding.unitsKey = holding.units p ∧
      p.accountBalance holding.valueKey = holding.value p := by
  have hunits := hkept.units ts (List.prefix_refl ts)
  have hvalue := hkept.value ts (List.prefix_refl ts)
  rw [← hkept.replay.balance hp] at hunits hvalue
  exact ⟨(p.accountBalance_eq_kept _).trans hunits, (p.accountBalance_eq_kept _).trans hvalue⟩

omit [Hashing] in
theorem Holding.RunKept.of_prefix {rest : List JournalTransaction}
    (h : holding.RunKept opening (ts ++ rest)) : holding.RunKept opening ts where
  replay := h.replay.of_prefix
  units before hpre := h.units before (hpre.trans (List.prefix_append _ _))
  value before hpre := h.value before (hpre.trans (List.prefix_append _ _))

theorem Holding.RunKept.moved (hkept : holding.RunKept opening (ts ++ [t]))
    (hbefore : replayJournal opening ts = .success projection)
    (hafter : replayJournal opening (ts ++ [t]) = .success p') :
    holding.units p' = holding.units projection + t.moved (· = holding.unitsKey) ∧
      holding.value p' = holding.value projection + t.moved (· = holding.valueKey) := by
  have hbefore' := hkept.of_prefix.replay.replayJournal hbefore
  have hafter' := hkept.replay.replayJournal hafter
  exact ⟨replayJournal_balance hbefore' hafter' _, replayJournal_balance hbefore' hafter' _⟩

/-- Posting one fill of the holding. -/
theorem carried_post (hcarried : holding.Carried projection) (hfill : fill.Of holding)
    (hkept : holding.RunKept opening (ts ++ [t]))
    (hbefore : replayJournal opening ts = .success projection)
    (hbuilt : buildFillJournal fill projection policy = .success t)
    (hopening : ∀ b ∈ opening.positions, b.instrumentId ≠ holding.instrumentId)
    (hafter : replayJournal opening (ts ++ [t]) = .success p') : holding.Carried p' := by
  obtain ⟨values, hjournal⟩ := buildFillJournal_built hbuilt
  obtain ⟨hunits, hvalue⟩ := hkept.moved hbefore hafter
  obtain ⟨hposition, hinventory⟩ := hkept.of_prefix.position hbefore
  have hunitsKey : holding.unitsKey =
      (.inventoryUnits fill.instrumentId, .units fill.instrumentId) := by
    rw [Holding.unitsKey, hfill.instrument]
  have hvalueKey : holding.valueKey =
      (.inventoryValue fill.instrumentId fill.feeCurrency, .currency fill.feeCurrency) := by
    rw [Holding.valueKey, hfill.instrument, hfill.currency]
  have hquantity : IsQuantized fill.quantity holding.quantityQuantum :=
    hfill.quantity_quantum ▸ hfill.valid.quantity_quantized
  have hgross : IsQuantized fill.gross holding.feeQuantum :=
    hfill.fee_quantum ▸ hjournal.gross_quantized
  have hpos := hfill.valid.quantity_pos
  have hgrosspos := hjournal.gross_pos
  cases hside : fill.side with
  | buy =>
      obtain ⟨hmovedUnits, hmovedValue⟩ := hjournal.moved_buy hside
      rw [hunitsKey, hmovedUnits] at hunits
      rw [hvalueKey, hmovedValue] at hvalue
      have hu := hcarried.units_nonneg
      have hv := hcarried.value_nonneg
      refine ⟨replayJournal_unvalued hopening hafter, ?_, ?_, ?_, ?_, ?_⟩
      · linarith
      · linarith
      · intro hzero
        linarith
      · rw [hunits]
        exact hcarried.units_quantized.add hquantity
      · rw [hvalue]
        exact hcarried.value_quantized.add hgross
  | sell =>
      obtain ⟨hmovedUnits, hmovedValue⟩ := hjournal.moved_sell hside
      have hvalues := hjournal.values_eq
      rw [fillValues, if_neg (by rw [hside]; decide)] at hvalues
      obtain ⟨⟨-, hheld, -⟩, -, hcost, rfl⟩ := sellPostings_eq_success.mp hvalues
      have hquantized := hjournal.cost_quantized
      have hposition' : projection.position fill.instrumentId = holding.units projection :=
        (congrArg projection.accountBalance hunitsKey.symm).trans hposition
      have hinventory' : projection.inventoryValue fill.instrumentId fill.feeCurrency =
          holding.value projection :=
        (congrArg projection.accountBalance hvalueKey.symm).trans hinventory
      rw [hposition'] at hheld
      rw [hunitsKey, hmovedUnits] at hunits
      rw [hvalueKey, hmovedValue] at hvalue
      rw [hposition', hinventory'] at hvalue hcost hquantized
      rw [hfill.fee_quantum] at hquantized
      set cost := saleCost fill (holding.value projection) (holding.units projection) with hdef
      have hunits' : holding.units p' = holding.units projection - fill.quantity :=
        hunits.trans (sub_eq_add_neg _ _).symm
      have hvalue' : holding.value p' = holding.value projection - cost :=
        hvalue.trans (sub_eq_add_neg _ _).symm
      refine ⟨replayJournal_unvalued hopening hafter, ?_, ?_, ?_, ?_, ?_⟩
      · linarith
      · linarith [hcost.2]
      · intro hzero
        have hall : holding.units projection = fill.quantity := by linarith
        rw [hvalue', hdef, saleCost, if_pos hall, sub_self]
      · rw [hunits']
        exact hcarried.units_quantized.sub hquantity
      · rw [hvalue']
        exact hcarried.value_quantized.sub hquantized

theorem PostedFills.carried
    (hopening : ∀ b ∈ opening.positions, b.instrumentId ≠ holding.instrumentId)
    (h : PostedFills opening fills ts) (hfills : ∀ f ∈ fills, f.Of holding)
    (hkept : holding.RunKept opening ts) (hp : replayJournal opening ts = .success p) :
    holding.Carried p := by
  induction h generalizing p with
  | nil => exact carried_opening hopening hp
  | post posted replayed built ih =>
      have hbefore := ih (fun f hf => hfills f (List.mem_append_left _ hf)) hkept.of_prefix replayed
      have hlast := hfills _ (List.mem_append_right _ (List.mem_singleton_self _))
      exact carried_post hbefore hlast hkept replayed built hopening hp

/-! ## Which holdings can be sold -/

/-- Of the arithmetic of a sale only the average cost is rounded, and no result has more digits than
its field takes. -/
structure Fill.SaleKept (sale : Fill) (p : LedgerProjection) : Prop where
  gross_holds : sale.GrossHolds
  net : IsKept (sale.gross - sale.fees)
  basis : IsKept (p.inventoryValue sale.instrumentId sale.feeCurrency * sale.quantity)
  cost_holds : sale.CostHolds (p.inventoryValue sale.instrumentId sale.feeCurrency)
    (p.position sale.instrumentId)
  values : ValuesKept (sellValues sale sale.gross (p.costOf sale))

/-- Units and value end together, and any part of the units can be sold. -/
def Holding.Sellable (holding : Holding) (p : LedgerProjection) : Prop :=
  (holding.units p = 0 ↔ holding.value p = 0) ∧
    ∀ sale : Fill, sale.Of holding → sale.side = .sell → sale.accountId = p.accountId →
      p.lastOccurredAt ≤ sale.occurredAt → sale.quantity ≤ holding.units p → 0 < sale.gross →
        sale.SaleKept p → ∀ policy, (buildFillJournal sale p policy).Succeeds

/-- There are no units, or the quantum of the currency is its last place, there is value left, and
more than half a quantum of it for one quantum of the units, as the average cost is computed; the
last quantum of the units takes whatever is left. -/
def Holding.CostCovers (holding : Holding) (p : LedgerProjection) : Prop :=
  holding.units p = 0 ∨ holding.feePlace = holding.feeQuantum ∧ 0 < holding.value p ∧
    (holding.units p = holding.quantityQuantum ∨ holding.feeQuantum <
      2 * kept (kept (holding.value p * holding.quantityQuantum) / holding.units p))

instance (holding : Holding) (p : LedgerProjection) : Decidable (holding.CostCovers p) :=
  inferInstanceAs (Decidable (_ ∨ _))

omit [Hashing] in
theorem saleCost_pos {value units : Decimal} (hplace : fill.feePlace = fill.feeQuantum)
    (hquantum : 0 < fill.feeQuantum) (hquantity : 0 < fill.quantity) (hvalue : 0 < value)
    (hunits : 0 < units) (hpart : units ≠ fill.quantity) :
    0 < saleCost fill value units ↔
      fill.feeQuantum < 2 * kept (kept (value * fill.quantity) / units) := by
  have hcost : 0 ≤ kept (kept (value * fill.quantity) / units) :=
    kept_nonneg_iff.mpr (div_nonneg (kept_nonneg_iff.mpr (mul_nonneg hvalue.le hquantity.le))
      hunits.le)
  rw [saleCost, if_neg hpart, hplace, halfEvenTo_pos hquantum hcost]

omit [Hashing] in
theorem saleCost_le {value units : Decimal} (hplace : fill.feePlace = fill.feeQuantum)
    (hvalue : IsQuantized value fill.feeQuantum) (hkept : IsKept value)
    (hbasis : IsKept (value * fill.quantity)) (hpos : 0 ≤ value) (hunits : 0 < units)
    (hle : fill.quantity ≤ units) : saleCost fill value units ≤ value := by
  unfold saleCost
  split
  · exact le_rfl
  · refine halfEvenTo_le (hplace ▸ hvalue) ?_
    have hshare : value * fill.quantity / units ≤ value := by
      rw [div_le_iff₀ hunits]
      exact mul_le_mul_of_nonneg_left hle hpos
    rw [show kept (value * fill.quantity) = value * fill.quantity from hbasis]
    exact (kept_mono hshare).trans (le_of_eq hkept)

omit [Hashing] in
/-- A part of a covered holding has a positive cost. -/
theorem Holding.CostCovers.cost_pos {sale : Fill} (hcovers : holding.CostCovers p)
    (hsale : sale.Of holding) (hheld : sale.quantity ≤ holding.units p) :
    sale.feePlace = sale.feeQuantum ∧ 0 < holding.value p ∧
      0 < saleCost sale (holding.value p) (holding.units p) := by
  have hquantity := hsale.valid.quantity_pos
  have hunits : 0 < holding.units p := hquantity.trans_le hheld
  have hstep : holding.quantityQuantum ≤ sale.quantity := by
    have hquantized := hsale.valid.quantity_quantized
    rw [hsale.quantity_quantum] at hquantized
    exact hquantized.le_of_pos hquantity
  rcases hcovers with hzero | ⟨hplace, hvalue, hcovers⟩
  · exact absurd hzero hunits.ne'
  have hplace' : sale.feePlace = sale.feeQuantum := by
    rw [hsale.fee_place, hsale.fee_quantum, hplace]
  refine ⟨hplace', hvalue, ?_⟩
  by_cases hall : holding.units p = sale.quantity
  · rw [saleCost, if_pos hall]
    exact hvalue
  · rw [saleCost_pos hplace' hsale.valid.fee_quantum_pos hquantity hvalue hunits hall,
      hsale.fee_quantum]
    rcases hcovers with hlast | hhalf
    · exact absurd (le_antisymm (hlast ▸ hstep) hheld) hall
    · have hmore : kept (holding.value p * holding.quantityQuantum) ≤
          kept (holding.value p * sale.quantity) :=
        kept_mono (mul_le_mul_of_nonneg_left hstep hvalue.le)
      have hshare := kept_mono (div_le_div_of_nonneg_right hmore hunits.le)
      linarith

theorem Holding.Carried.sale_built {sale : Fill} (hfree : Hashing.CollisionFree)
    (hcarried : holding.Carried p) (hp : p.validate = .success ())
    (hunitsKept : p.accountBalance holding.unitsKey = holding.units p)
    (hvalueKept : p.accountBalance holding.valueKey = holding.value p)
    (hcovers : holding.CostCovers p) (hsale : sale.Of holding) (hside : sale.side = .sell)
    (haccount : sale.accountId = p.accountId) (htime : p.lastOccurredAt ≤ sale.occurredAt)
    (hheld : sale.quantity ≤ holding.units p) (hgross : 0 < sale.gross)
    (hkept : sale.SaleKept p) : (buildFillJournal sale p policy).Succeeds := by
  obtain ⟨hplace, hvalue, hcost⟩ := hcovers.cost_pos hsale hheld
  have hunits : 0 < holding.units p := hsale.valid.quantity_pos.trans_le hheld
  have hquantized : IsQuantized (holding.value p) sale.feeQuantum :=
    hsale.fee_quantum ▸ hcarried.value_quantized
  have hposition : p.position sale.instrumentId = holding.units p := by
    rw [hsale.instrument]
    exact hunitsKept
  have hinventory : p.inventoryValue sale.instrumentId sale.feeCurrency = holding.value p := by
    rw [hsale.instrument, hsale.currency]
    exact hvalueKept
  have hcostOf : p.costOf sale = saleCost sale (holding.value p) (holding.units p) := by
    rw [LedgerProjection.costOf, hposition, hinventory]
  have hbasis := hkept.basis
  have hholds := hkept.cost_holds
  have hvalues := hkept.values
  rw [hinventory] at hbasis hholds
  rw [hposition] at hholds
  rw [hcostOf] at hvalues
  have hwhole : IsKept (holding.value p) := by
    have hread := p.accountBalance_eq_kept holding.valueKey
    rw [hvalueKept] at hread
    exact hread.symm
  have hle := saleCost_le hplace hquantized hwhole hbasis hvalue.le hunits hheld
  have hbuilt : fillValues sale sale.gross p = .success (sellValues sale sale.gross
      (saleCost sale (holding.value p) (holding.units p))) := by
    rw [fillValues, if_neg (by rw [hside]; decide), sellPostings_eq_success, hposition, hinventory]
    exact ⟨⟨hsale.instrument ▸ hcarried.unvalued, hheld, hvalue⟩, hholds, ⟨hcost, hle⟩, rfl⟩
  have hgross' : IsQuantized sale.gross sale.feeQuantum := by
    rw [Fill.gross, hplace]
    exact isQuantized_halfEvenTo hsale.valid.fee_quantum_pos
  exact (sellValues_postable hsale.valid ⟨hgross, hgross'⟩
    ⟨hcost, saleCost_quantized hplace hquantized⟩ hkept.net hvalues).built hfree hp haccount htime
      hkept.gross_holds hgross hbuilt

theorem PostedFills.sellable (hfree : Hashing.CollisionFree)
    (hopening : ∀ b ∈ opening.positions, b.instrumentId ≠ holding.instrumentId)
    (hposted : PostedFills opening fills ts) (hfills : ∀ f ∈ fills, f.Of holding)
    (hkept : holding.RunKept opening ts) (hp : replayJournal opening ts = .success p)
    (hcovers : holding.CostCovers p) : holding.Sellable p := by
  have hcarried := hposted.carried hopening hfills hkept hp
  have hvalid : p.validate = .success () := by
    obtain ⟨-, state, -, hprojection⟩ := replayJournal_eq_success.mp hp
    obtain ⟨-, hvalid, rfl⟩ := projectionOf_eq_success.mp hprojection
    exact hvalid
  obtain ⟨hunits, hvalue⟩ := hkept.position hp
  refine ⟨⟨hcarried.empty, fun hzero => ?_⟩, ?_⟩
  · rcases hcovers with hnone | ⟨-, hpositive, -⟩
    · exact hnone
    · exact absurd hzero hpositive.ne'
  · intro sale hsale hside haccount htime hheld hgross hsaleKept policy
    exact hcarried.sale_built hfree hvalid hunits hvalue hcovers hsale hside haccount htime hheld
      hgross hsaleKept

/-- A holding bought and sold in posted fills, of which no addition is rounded, can be sold, to the
last unit and in any part, when its currency's quantum is its last place and its value still covers
half a quantum of cost for every quantum of its units. -/
theorem holding_sellable (hfree : Hashing.CollisionFree) (holding : Holding)
    (opening : AccountPortfolioSnapshot) (fills : List Fill) (ts : List JournalTransaction)
    (p : LedgerProjection)
    (hopening : ∀ b ∈ opening.positions, b.instrumentId ≠ holding.instrumentId)
    (hposted : PostedFills opening fills ts) (hfills : ∀ f ∈ fills, f.Of holding)
    (hkept : holding.RunKept opening ts) (hp : replayJournal opening ts = .success p)
    (hcovers : holding.CostCovers p) : holding.Sellable p :=
  hposted.sellable hfree hopening hfills hkept hp hcovers

end

/-! ## The condition is necessary where nothing is rounded -/

section exact

open scoped ExactArithmetic

variable [Hashing] {holding : Holding} {p : LedgerProjection}

/-- A sale of one quantum of the units for one last place of the currency's quantum. -/
def Holding.oneQuantum (holding : Holding) (p : LedgerProjection) : Fill :=
  { fillId := 0
    commandId := 0
    orderIntentId := 0
    accountId := p.accountId
    instrumentId := holding.instrumentId
    side := .sell
    quantity := holding.quantityQuantum
    quantityQuantum := holding.quantityQuantum
    price := holding.feePlace / holding.quantityQuantum
    priceQuantum := holding.feePlace / holding.quantityQuantum
    feeCurrency := holding.currency
    fees := 0
    feeQuantum := holding.feeQuantum
    slippage := 0
    occurredAt := p.lastOccurredAt
    simulatorRef := none
    externalRef := none
    feePlace := holding.feePlace }

omit [Hashing] in
theorem Holding.oneQuantum_of (hp : p.validate = .success ()) :
    (holding.oneQuantum p).Of holding := by
  have hprice : 0 < holding.feePlace / holding.quantityQuantum :=
    div_pos holding.fee_place_pos holding.quantity_quantum_pos
  refine ⟨⟨(LedgerProjection.validate_iff.mp hp).1, holding.quantity_quantum_pos,
    holding.quantity_quantum_pos, hprice, hprice, holding.is_currency, le_rfl,
    holding.fee_quantum_pos, by simp [oneQuantum], by simp [oneQuantum],
    .self holding.quantity_quantum_pos, .self hprice, .zero holding.fee_quantum_pos,
    .zero hprice⟩, rfl, rfl, rfl, rfl, rfl⟩

omit [Hashing] in
theorem Holding.oneQuantum_gross : (holding.oneQuantum p).gross = holding.feePlace := by
  have hnotional : (holding.oneQuantum p).quantity * (holding.oneQuantum p).price =
      holding.feePlace := mul_div_cancel₀ _ holding.quantity_quantum_pos.ne'
  unfold Fill.gross
  rw [hnotional]
  exact halfEvenTo_of_isQuantized (.self holding.fee_place_pos)

omit [Hashing] in
theorem Fill.saleKept_exact (sale : Fill) (p : LedgerProjection) : sale.SaleKept p :=
  ⟨trivial, isKept_exact _, isKept_exact _, .inr trivial,
    ⟨fun _ _ => takes_exact _ _, fun _ _ _ => isKept_exact _⟩⟩

/-- A holding that can be sold by the quantum covers the cost. -/
theorem Holding.Sellable.covers (hcarried : holding.Carried p) (hp : p.validate = .success ())
    (hwritten : IsQuantized holding.feeQuantum holding.feePlace)
    (hsellable : holding.Sellable p) : holding.CostCovers p := by
  by_cases hzero : holding.units p = 0
  · exact .inl hzero
  have hunits : 0 < holding.units p := lt_of_le_of_ne hcarried.units_nonneg (Ne.symm hzero)
  have hvalue : 0 < holding.value p :=
    lt_of_le_of_ne hcarried.value_nonneg fun h => hzero (hsellable.1.mpr h.symm)
  have hstep : holding.quantityQuantum ≤ holding.units p :=
    hcarried.units_quantized.le_of_pos hunits
  have hgross : 0 < (holding.oneQuantum p).gross := by
    rw [oneQuantum_gross]
    exact holding.fee_place_pos
  obtain ⟨t, ht⟩ := hsellable.2 (holding.oneQuantum p) (oneQuantum_of hp) rfl rfl le_rfl hstep
    hgross (Fill.saleKept_exact _ _) ⟨""⟩
  obtain ⟨values, hjournal⟩ := buildFillJournal_built ht
  -- The notional of this sale is one last place, so a posted one puts it on the quantum.
  have hplace : holding.feePlace = holding.feeQuantum := by
    have hquantized := hjournal.gross_quantized
    rw [oneQuantum_gross] at hquantized
    exact le_antisymm (hwritten.le_of_pos holding.fee_quantum_pos)
      (hquantized.le_of_pos holding.fee_place_pos)
  refine .inr ⟨hplace, hvalue, ?_⟩
  by_cases hlast : holding.units p = holding.quantityQuantum
  · exact .inl hlast
  refine .inr ?_
  obtain ⟨-, -, hcost, -⟩ := sellPostings_eq_success.mp hjournal.values_eq
  have hiff : 0 < saleCost (holding.oneQuantum p) (holding.value p) (holding.units p) ↔ _ :=
    saleCost_pos hplace holding.fee_quantum_pos holding.quantity_quantum_pos hvalue hunits hlast
  exact hiff.mp hcost.1

omit [Hashing] in
theorem Holding.runKept_exact {opening : AccountPortfolioSnapshot} {ts : List JournalTransaction} :
    holding.RunKept opening ts where
  replay :=
    { totals := fun _ _ _ => isKept_exact _
      sums := fun _ _ => ⟨fun _ _ _ => isKept_exact _, fun _ _ _ => isKept_exact _⟩ }
  units _ _ := isKept_exact _
  value _ _ := isKept_exact _

theorem sellable_iff_costCovers (hfree : Hashing.CollisionFree)
    {opening : AccountPortfolioSnapshot} {fills : List Fill} {ts : List JournalTransaction}
    (hwritten : IsQuantized holding.feeQuantum holding.feePlace)
    (hopening : ∀ b ∈ opening.positions, b.instrumentId ≠ holding.instrumentId)
    (hposted : PostedFills opening fills ts) (hfills : ∀ f ∈ fills, f.Of holding)
    (hp : replayJournal opening ts = .success p) : holding.Sellable p ↔ holding.CostCovers p := by
  have hcarried := hposted.carried hopening hfills holding.runKept_exact hp
  have hvalid : p.validate = .success () := by
    obtain ⟨-, state, -, hprojection⟩ := replayJournal_eq_success.mp hp
    obtain ⟨-, hvalid, rfl⟩ := projectionOf_eq_success.mp hprojection
    exact hvalid
  exact ⟨fun hsellable => hsellable.covers hcarried hvalid hwritten, fun hcovers =>
    hposted.sellable hfree hopening hfills holding.runKept_exact hp hcovers⟩

end exact

/-! ## A concrete holding -/

namespace Scenario

def lot : Holding :=
  { instrumentId := 1
    currency := "USD"
    feeQuantum := 1
    feePlace := 1
    quantityQuantum := 1
    is_currency := by decide
    fee_quantum_pos := by decide
    fee_place_pos := by decide
    quantity_quantum_pos := by decide }

def trade (side : OrderSide) (quantity price : Decimal) : Fill :=
  { fillId := side.ctorIdx
    commandId := 0
    orderIntentId := 0
    accountId := "paper"
    instrumentId := 1
    side, quantity, price
    quantityQuantum := 1
    priceQuantum := 1 / 10
    feeCurrency := "USD"
    fees := 0
    feeQuantum := 1
    slippage := 0
    occurredAt := 50
    simulatorRef := none
    externalRef := none }

def dwindled : List Fill := [trade .buy 3 (2 / 5), trade .sell 2 1]

def covered : List Fill := [trade .buy 4 1, trade .sell 1 1]

theorem trades_of {fills : List Fill} (hvalid : ∀ f ∈ fills, f.validate = .success ())
    (hshared : ∀ f ∈ fills, f.instrumentId = lot.instrumentId ∧ f.feeCurrency = lot.currency ∧
      f.feeQuantum = lot.feeQuantum ∧ f.feePlace = lot.feePlace ∧
      f.quantityQuantum = lot.quantityQuantum) : ∀ f ∈ fills, f.Of lot := by
  intro f hf
  obtain ⟨hinstrument, hcurrency, hfee, hplace, hquantity⟩ := hshared f hf
  exact ⟨Fill.validate_iff.mp (hvalid f hf), hinstrument, hcurrency, hfee, hplace, hquantity⟩

open scoped PythonArithmetic CodeHashing

/-- Two thirds of a dollar round to the whole of it, so the last unit is left without value. -/
theorem dwindled_posted : ∃ ts p, PostedFills (snapshot {}) dwindled ts ∧
    replayJournal (snapshot {}) ts = .success p ∧ lot.units p = 1 ∧ lot.value p = 0 ∧
      buildFillJournal (trade .sell 1 1) p ⟨"1.0.0"⟩ =
        .failure ⟨.conflict, "Sell cost basis is unavailable", []⟩ := by
  have hrun : (replayJournal (snapshot {}) []).SucceedsWith fun p₀ =>
      (buildFillJournal (trade .buy 3 (2 / 5)) p₀ ⟨"1.0.0"⟩).SucceedsWith fun t₁ =>
        (replayJournal (snapshot {}) [t₁]).SucceedsWith fun p₁ =>
          (buildFillJournal (trade .sell 2 1) p₁ ⟨"1.0.0"⟩).SucceedsWith fun t₂ =>
            (replayJournal (snapshot {}) [t₁, t₂]).SucceedsWith fun p₂ =>
              lot.units p₂ = 1 ∧ lot.value p₂ = 0 ∧
                buildFillJournal (trade .sell 1 1) p₂ ⟨"1.0.0"⟩ =
                  .failure ⟨.conflict, "Sell cost basis is unavailable", []⟩ := by
    decide +kernel
  obtain ⟨p₀, hp₀, t₁, ht₁, p₁, hp₁, t₂, ht₂, p₂, hp₂, hunits, hvalue, hrefused⟩ := hrun
  have hposted : PostedFills (snapshot {}) dwindled [t₁, t₂] :=
    .post (.post .nil hp₀ ht₁) hp₁ ht₂
  exact ⟨[t₁, t₂], p₂, hposted, hp₂, hunits, hvalue, hrefused⟩

theorem holding_sellable_covered : ∃ ts p, PostedFills (snapshot {}) covered ts ∧
    replayJournal (snapshot {}) ts = .success p ∧ lot.units p = 3 ∧ lot.Sellable p := by
  have hrun : (replayJournal (snapshot {}) []).SucceedsWith fun p₀ =>
      (buildFillJournal (trade .buy 4 1) p₀ ⟨"1.0.0"⟩).SucceedsWith fun t₁ =>
        (replayJournal (snapshot {}) [t₁]).SucceedsWith fun p₁ =>
          (buildFillJournal (trade .sell 1 1) p₁ ⟨"1.0.0"⟩).SucceedsWith fun t₂ =>
            (replayJournal (snapshot {}) [t₁, t₂]).SucceedsWith fun p₂ =>
              lot.RunKept (snapshot {}) [t₁, t₂] ∧ lot.units p₂ = 3 ∧ lot.CostCovers p₂ := by
    decide +kernel
  obtain ⟨p₀, hp₀, t₁, ht₁, p₁, hp₁, t₂, ht₂, p₂, hp₂, hkept, hunits, hcovers⟩ := hrun
  have hposted : PostedFills (snapshot {}) covered [t₁, t₂] :=
    .post (.post .nil hp₀ ht₁) hp₁ ht₂
  have hfills : ∀ f ∈ covered, f.Of lot := trades_of (by decide +kernel) (by decide +kernel)
  exact ⟨[t₁, t₂], p₂, hposted, hp₂, hunits, holding_sellable CodeHashing.collisionFree lot
    (snapshot {}) covered [t₁, t₂] p₂ (by decide) hposted hfills hkept hp₂ hcovers⟩

/-- The last unit of the dwindled holding has no value, and its sale is refused. -/
theorem dwindled_not_sellable : (∀ b ∈ (snapshot {}).positions, b.instrumentId ≠ lot.instrumentId) ∧
    (∀ f ∈ dwindled, f.Of lot) ∧ ∃ ts p, PostedFills (snapshot {}) dwindled ts ∧
      replayJournal (snapshot {}) ts = .success p ∧ ¬ lot.Sellable p ∧
        buildFillJournal (trade .sell 1 1) p ⟨"1.0.0"⟩ =
          .failure ⟨.conflict, "Sell cost basis is unavailable", []⟩ := by
  obtain ⟨ts, p, hposted, hp, hunits, hvalue, hrefused⟩ := dwindled_posted
  have hfills : ∀ f ∈ dwindled, f.Of lot := trades_of (by decide +kernel) (by decide +kernel)
  refine ⟨by decide, hfills, ts, p, hposted, hp, fun hsellable => ?_, hrefused⟩
  have hzero := hsellable.1.mpr hvalue
  rw [hunits] at hzero
  exact absurd hzero one_ne_zero

end Scenario

end StonksPaper
