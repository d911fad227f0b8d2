import StonksPaper.Backtest.Engines
import StonksPaper.Backtest.Results

/-!
# A job has one economic result

The checks of a result fix each fill by its order, its bar and its quantity, and the schedule fixes
these. The order in which fills are projected is free where they open together, but in exact
arithmetic the projection only sums them.
-/

namespace StonksPaper

open Chain

namespace Backtest

/-! ## What the checks say -/

section

variable [DecimalContext] [Hashing] {job : BacktestJob} {result : BacktestResult}

/-- The checks of the validators of a result. -/
structure Consistent (result : BacktestResult) : Prop where
  outcomes : ∀ outcome ∈ result.orderOutcomes, outcome.validate = .success ()
  outcomes_pos : 1 ≤ result.orderOutcomes.length
  outcomes_le : result.orderOutcomes.length ≤ 1000000
  fills_le : result.fills.length ≤ 1000000
  cash_pos : 1 ≤ result.finalCash.length
  cash_le : result.finalCash.length ≤ 64
  positions_pos : 1 ≤ result.finalPositions.length
  positions_le : result.finalPositions.length ≤ 10000
  totalFees_nonneg : 0 ≤ result.totalFees.value
  warnings_le : result.warnings.length ≤ 128
  stable : result.Stable
  fees : sumFees result.fills = result.totalFees

omit [Hashing] in
theorem validate_iff : result.validate = .success () ↔ Consistent result := by
  simp only [BacktestResult.validate, Attempt.bind_eq_success, raiseUnless_eq_success,
    Attempt.forM_eq_success, atLeast_eq_success, maxLength_eq_success,
      nonNegativeDecimal_eq_success,
    exists_const]
  constructor
  · intro h
    obtain ⟨h1, h2, h3, h4, h5, h6, h7, h8, h9, h10, h11, h12⟩ := h
    exact ⟨h1, h2, h3, h4, h5, h6, h7, h8, h9, h10, h11, h12⟩
  · intro h
    exact ⟨h.outcomes, h.outcomes_pos, h.outcomes_le, h.fills_le, h.cash_pos, h.cash_le,
      h.positions_pos, h.positions_le, h.totalFees_nonneg, h.warnings_le, h.stable, h.fees⟩

/-- The checks of `_validate_projection`, for the projection that it computes. -/
structure Projected (result : BacktestResult) (job : BacktestJob) (final : Projection) : Prop where
  replay : ((sorted (projectionKey job) result.fills).map (·.economics)).foldlM Projection.apply
    (opening job) = .success final
  balances : ProjectionMatches result job final
  covered : ∀ instrument ∈ job.dataset.instruments,
    ∃ item ∈ result.finalPositions, item.instrumentId = instrument.instrumentId
  cashQuanta : ∀ item ∈ result.finalCash, ∀ balance ∈ job.initialCash,
    balance.currency = item.currency → item.quantum.value = balance.quantum
  positionQuanta : ∀ item ∈ result.finalPositions, ∀ instrument ∈ job.dataset.instruments,
    instrument.instrumentId = item.instrumentId →
      item.quantityQuantum.value = instrument.quantityQuantum

omit [Hashing] in
theorem validateProjection_iff : validateProjection result job = .success () ↔
    ∃ final, Projected result job final := by
  simp only [validateProjection, Attempt.bind_eq_success, raiseUnless_eq_success, exists_const]
  constructor
  · intro h
    obtain ⟨final, hreplay, hbalances, hcovered, hcash, hpositions⟩ := h
    exact ⟨final, hreplay, hbalances, hcovered, hcash, hpositions⟩
  · intro h
    obtain ⟨final, h⟩ := h
    exact ⟨final, h.replay, h.balances, h.covered, h.cashQuanta, h.positionQuanta⟩

/-- The checks of `validate_backtest_result`. -/
structure Checked (result : BacktestResult) (job : BacktestJob) : Prop where
  binding : ResultBindingMatches result job
  known : ∀ outcome ∈ result.orderOutcomes, outcome.orderId ∈ job.orders.map (·.orderId)
  covered : ∀ order ∈ job.orders, order.orderId ∈ result.orderOutcomes.map (·.orderId)
  outcomes : ∀ order ∈ job.orders, ∀ outcome ∈ result.orderOutcomes,
    outcome.orderId = order.orderId → OutcomeMatchesOrder outcome order job.dataset.asOf
  fills : ∀ fill ∈ result.fills, validateFill job fill = .success ()
  quantities : ∀ outcome ∈ result.orderOutcomes,
    totals (·.orderId) result.fills outcome.orderId = outcome.filledQuantity
  schedule : expectedFillSchedules job = .success (job.orders.map fun order => (order.orderId,
    (result.fillsOf order.orderId).map fun fill => (fill.sourceBarId, fill.quantity.value)))
  caps : validateVolumeCaps result job = .success ()
  projection : ∃ final, Projected result job final

theorem validateAgainst_iff : result.validateAgainst job = .success () ↔ Checked result job := by
  simp only [BacktestResult.validateAgainst, validateBacktestResult, validateFills,
    validateNextBarSequence, Attempt.bind_eq_success, raiseUnless_eq_success,
    Attempt.forM_eq_success, validateProjection_iff, exists_const]
  constructor
  · intro h
    obtain ⟨hbinding, hcover, houtcomes, _, ⟨hfills, hquantities,
      ⟨expected, hexpected, hschedule⟩, hcaps⟩, hprojection⟩ := h
    rw [← hschedule] at hexpected
    exact ⟨hbinding, hcover.1, hcover.2, houtcomes, hfills, hquantities, hexpected, hcaps,
      hprojection⟩
  · intro h
    exact ⟨h.binding, ⟨h.known, h.covered⟩, h.outcomes, ⟨⟩, ⟨h.fills, h.quantities,
      ⟨_, h.schedule, rfl⟩, h.caps⟩, h.projection⟩

/-! ## Fills -/

/-- The fill that the checks allow for an order, a bar and a quantity. -/
def canonicalFill? (job : BacktestJob) (orderId barId : UUID) (quantity : Decimal) :
    Option FillEconomics := do
  let order ← job.order? orderId
  let bar ← job.bar? barId
  let instrument ← job.instrument? order.instrumentId
  let price ← price? order bar instrument job.costModel
  return {
    orderId := orderId
    orderHash := order.orderHash
    instrumentId := order.instrumentId
    side := order.side
    feeCurrency := instrument.currency
    quantity := quantity
    quantityQuantum := instrument.quantityQuantum
    price := price
    priceQuantum := instrument.priceQuantum
    fees := canonicalFillFee quantity price job.costModel
    feeQuantum := job.costModel.feeQuantum
    slippage := round (price - bar.open_)
    occurredAt := bar.opensAt
    sourceBarId := barId }

/-- A fill that passes its checks is that of its order, its bar and its quantity. -/
theorem canonicalFill?_of_validateFill {fill : BacktestFill}
    (h : validateFill job fill = .success ()) :
    canonicalFill? job fill.orderId fill.sourceBarId fill.quantity = some fill.economics := by
  unfold validateFill at h
  split at h
  · rename_i order bar instrument horder hbar hinstrument
    simp only [Attempt.bind_eq_success, fillMatchesInput, Attempt.pure_eq, Attempt.success.injEq,
      raiseUnless_eq_success] at h
    obtain ⟨matched, ⟨price, hprice, hmatched⟩, htrue⟩ := h
    rw [htrue, decide_eq_true_eq] at hmatched
    obtain ⟨-, hhash, ⟨hid, -⟩, hside, hquantityQuantum, hpriceQuantum, hcurrency,
      hfeeQuantum, -, -,
      hat, -, hexpected, hslippage, hfees⟩ := hmatched
    have hprice? : price? order bar instrument job.costModel = some fill.price.value := by
      rw [price?_of_success hprice, hexpected]
    rw [hid] at hinstrument
    simp only [canonicalFill?, horder, hbar, hinstrument, hprice?, Option.bind_eq_bind,
      Option.bind_some, Option.pure_def, BacktestFill.economics, hhash, hid, hside,
      hquantityQuantum, hpriceQuantum, hcurrency, hfeeQuantum, hat, hslippage, hfees]
  · cases h

theorem some_economics_fillsOf (h : Checked result job) (id : UUID) :
    (result.fillsOf id).map (fun fill => some fill.economics) =
      ((result.fillsOf id).map fun fill => (fill.sourceBarId, fill.quantity.value)).map
        fun entry => canonicalFill? job id entry.1 entry.2 := by
  rw [List.map_map]
  refine List.map_congr_left fun fill hfill => ?_
  obtain ⟨hmem, hid⟩ := List.mem_filter.mp hfill
  obtain rfl := of_decide_eq_true hid
  exact (canonicalFill?_of_validateFill (h.fills fill hmem)).symm

theorem Checked.order_mem (h : Checked result job) {fill : BacktestFill}
    (hfill : fill ∈ result.fills) : fill.orderId ∈ job.orders.map (·.orderId) := by
  have hvalid := h.fills fill hfill
  unfold validateFill at hvalid
  split at hvalid
  · rename_i order bar instrument horder hbar hinstrument
    have hid : order.orderId = fill.orderId := by simpa using List.find?_some horder
    rw [← hid]
    exact List.mem_map_of_mem (List.mem_of_find?_eq_some horder)
  · cases hvalid

/-- The fills of an order are the same in every result. -/
theorem economics_fillsOf_eq {first second : BacktestResult} (hfirst : Checked first job)
    (hsecond : Checked second job) (id : UUID) :
    (first.fillsOf id).map (·.economics) = (second.fillsOf id).map (·.economics) := by
  by_cases hid : id ∈ job.orders.map (·.orderId)
  · obtain ⟨order, horder, rfl⟩ := List.mem_map.mp hid
    have hschedule := Attempt.success.inj (hfirst.schedule.symm.trans hsecond.schedule)
    have hentry := (Prod.mk.inj (List.map_inj_left.mp hschedule order horder)).2
    have hsome := some_economics_fillsOf hfirst order.orderId
    rw [hentry, ← some_economics_fillsOf hsecond] at hsome
    refine List.map_injective_iff.mpr (Option.some_injective _) ?_
    rw [List.map_map, List.map_map]
    exact hsome
  · have hnone : ∀ {result : BacktestResult}, Checked result job → result.fillsOf id = [] := by
      intro result h
      refine List.filter_eq_nil_iff.mpr fun fill hfill heq => hid ?_
      rw [← of_decide_eq_true heq]
      exact h.order_mem hfill
    rw [hnone hfirst, hnone hsecond]

/-- The fills of two results are the same up to their order. -/
theorem economics_perm {first second : BacktestResult} (hfirst : Checked first job)
    (hsecond : Checked second job) :
    (first.fills.map (·.economics)).Perm (second.fills.map (·.economics)) := by
  have hgroups : ∀ {result : BacktestResult}, Checked result job →
      (result.fills.map (·.economics)).Perm ((job.orders.map (·.orderId)).flatMap fun id =>
        (result.fillsOf id).map (·.economics)) := by
    intro result h
    have hperm := (perm_flatMap_filter (fun fill : BacktestFill => fill.orderId)
      job.ordersUnique fun fill hfill => h.order_mem hfill).map (·.economics)
    rwa [List.map_flatMap] at hperm
  have hsame := List.flatMap_congr (l := job.orders.map (·.orderId)) fun id _ =>
    economics_fillsOf_eq hfirst hsecond id
  have hperm := hgroups hfirst
  rw [hsame] at hperm
  exact hperm.trans (hgroups hsecond).symm

end

/-! ## Exact sums -/

section

open scoped ExactArithmetic

@[simp] theorem round_exact (x : Decimal) : round x = x := rfl

theorem sumFees_eq (fills : List BacktestFill) :
    sumFees fills = ((fills.map (·.economics)).map (·.fees)).sum := by
  have hfrom : ∀ start : Decimal, fills.foldl (fun total item => round (total + item.fees)) start =
      start + (fills.map fun item => item.fees.value).sum := by
    induction fills with
    | nil => simp
    | cons fill fills ih =>
        intro start
        rw [List.foldl_cons, ih, List.map_cons, List.sum_cons, round_exact, add_assoc]
  rw [sumFees, hfrom, zero_add, List.map_map]
  rfl

theorem totals_eq (key : BacktestFill → UUID) (fills : List BacktestFill) (id : UUID) :
    totals key fills id = ((fills.filter (key · = id)).map fun fill =>
      fill.quantity.value).sum := by
  have hfrom : ∀ start : UUID → Decimal, fills.foldl (fun total fill =>
      Function.update total (key fill) (round (total (key fill) + fill.quantity))) start id =
        start id + ((fills.filter (key · = id)).map fun fill => fill.quantity.value).sum := by
    induction fills with
    | nil => simp
    | cons fill fills ih =>
        intro start
        rw [List.foldl_cons, ih, round_exact]
        by_cases hkey : key fill = id
        · subst hkey
          simp [add_assoc]
        · simp [Function.update_of_ne (Ne.symm hkey), hkey]
  rw [totals, hfrom, zero_add]

/-- What a fill changes in the cash of a currency. -/
def FillEconomics.cashChange (self : FillEconomics) (currency : Currency) : Decimal :=
  if self.feeCurrency = currency then
    match self.side with
    | .buy => -(self.quantity * self.price + self.fees)
    | .sell => self.quantity * self.price - self.fees
  else 0

/-- What a fill changes in the position in an instrument. -/
def FillEconomics.positionChange (self : FillEconomics) (id : UUID) : Decimal :=
  if self.instrumentId = id then
    match self.side with
    | .buy => self.quantity
    | .sell => -self.quantity
  else 0

def Projection.moved (self : Projection) (fills : List FillEconomics) : Projection where
  cash := fun currency => self.cash currency + (fills.map (·.cashChange currency)).sum
  positions := fun id => self.positions id + (fills.map (·.positionChange id)).sum

theorem Projection.moved_cons (self : Projection) (fill : FillEconomics)
    (fills : List FillEconomics) :
    self.moved (fill :: fills) = (self.moved [fill]).moved fills := by
  simp only [Projection.moved, List.map_cons, List.map_nil, List.sum_cons, List.sum_nil, add_zero,
    add_assoc]

theorem Projection.moved_perm (self : Projection) {xs ys : List FillEconomics} (h : xs.Perm ys) :
    self.moved xs = self.moved ys := by
  unfold Projection.moved
  congr 1 <;> funext key
  · rw [(h.map _).sum_eq]
  · rw [(h.map _).sum_eq]

theorem update_cash {self : Projection} {fill : FillEconomics} {cash : Decimal}
    (h : cash = self.cash fill.feeCurrency + fill.cashChange fill.feeCurrency) :
    Function.update self.cash fill.feeCurrency cash = (self.moved [fill]).cash := by
  funext currency
  by_cases hsame : fill.feeCurrency = currency
  · subst hsame
    simp [Projection.moved, h]
  · rw [Function.update_of_ne (Ne.symm hsame)]
    simp [Projection.moved, FillEconomics.cashChange, hsame]

theorem update_positions {self : Projection} {fill : FillEconomics} {position : Decimal}
    (h : position = self.positions fill.instrumentId + fill.positionChange fill.instrumentId) :
    Function.update self.positions fill.instrumentId position = (self.moved [fill]).positions := by
  funext id
  by_cases hsame : fill.instrumentId = id
  · subst hsame
    simp [Projection.moved, h]
  · rw [Function.update_of_ne (Ne.symm hsame)]
    simp [Projection.moved, FillEconomics.positionChange, hsame]

/-- A round of the projection moves it, and checks what it has moved. -/
theorem Projection.apply_eq_success {self next : Projection} {fill : FillEconomics} :
    self.apply fill = .success next ↔ next = self.moved [fill] ∧
      0 ≤ next.cash fill.feeCurrency ∧ 0 ≤ next.positions fill.instrumentId := by
  have hmoved : ∀ cash position : Decimal,
      cash = self.cash fill.feeCurrency + fill.cashChange fill.feeCurrency →
      position = self.positions fill.instrumentId + fill.positionChange fill.instrumentId →
      ((do raiseUnless (0 ≤ cash ∧ 0 ≤ position) "backtest fill creates negative cash or position"
           return {
            cash := Function.update self.cash fill.feeCurrency cash
            positions := Function.update self.positions fill.instrumentId position }) =
          (.success next : Call Projection) ↔ next = self.moved [fill] ∧
        0 ≤ next.cash fill.feeCurrency ∧ 0 ≤ next.positions fill.instrumentId) := by
    intro cash position hcash hposition
    have hcashAt : (self.moved [fill]).cash fill.feeCurrency = cash := by
      rw [← update_cash hcash, Function.update_self]
    have hpositionAt : (self.moved [fill]).positions fill.instrumentId = position := by
      rw [← update_positions hposition, Function.update_self]
    simp only [Attempt.bind_eq_success, raiseUnless_eq_success, exists_const, Attempt.pure_eq,
      Attempt.success.injEq, update_cash hcash, update_positions hposition]
    constructor
    · intro h
      obtain ⟨hnonneg, rfl⟩ := h
      exact ⟨rfl, hcashAt.symm ▸ hnonneg.1, hpositionAt.symm ▸ hnonneg.2⟩
    · intro h
      obtain ⟨rfl, hnonneg⟩ := h
      rw [hcashAt, hpositionAt] at hnonneg
      exact ⟨hnonneg, rfl⟩
  cases hside : fill.side with
  | buy =>
      have h := hmoved (self.cash fill.feeCurrency - (fill.quantity * fill.price + fill.fees))
        (self.positions fill.instrumentId + fill.quantity)
        (by simp [FillEconomics.cashChange, hside, sub_eq_add_neg])
        (by simp [FillEconomics.positionChange, hside])
      simpa only [Projection.apply, hside, round_exact] using h
  | sell =>
      have h := hmoved (self.cash fill.feeCurrency + (fill.quantity * fill.price - fill.fees))
        (self.positions fill.instrumentId - fill.quantity)
        (by simp [FillEconomics.cashChange, hside])
        (by simp [FillEconomics.positionChange, hside, sub_eq_add_neg])
      simpa only [Projection.apply, hside, round_exact] using h

theorem moved_of_foldlM {start final : Projection} {fills : List FillEconomics}
    (h : fills.foldlM Projection.apply start = .success final) : final = start.moved fills := by
  refine Attempt.foldlM_induct (P := fun fills start final => final = start.moved fills) ?_ ?_ h
  · intro start
    simp [Projection.moved]
  · intro fill fills start next final hnext hfinal
    rw [hfinal, Projection.moved_cons, (Projection.apply_eq_success.mp hnext).1]

/-! ## Agreement -/

variable {job : BacktestJob} {result first second : BacktestResult}

theorem Projected.final_eq {final : Projection} (h : Projected result job final) :
    final = (opening job).moved (result.fills.map (·.economics)) := by
  rw [moved_of_foldlM h.replay]
  exact Projection.moved_perm _ ((sorted_perm _ _).map _)

theorem totals_orderId_eq (id : UUID) : totals (·.orderId) result.fills id =
    (((result.fillsOf id).map (·.economics)).map (·.quantity)).sum := by
  rw [totals_eq, List.map_map]
  rfl

theorem finalCash_eq {final : Projection} (hfirst : Consistent first) (hsecond : Consistent second)
    (hfirstJob : Projected first job final) (hsecondJob : Projected second job final) :
    first.finalCash.map (fun item => (item.currency, item.amount.value, item.quantum.value)) =
      second.finalCash.map fun item => (item.currency, item.amount.value, item.quantum.value) := by
  have hunique := hfirst.stable.2.2.2.1
  have hunique' := hsecond.stable.2.2.2.1
  have hkeys := hunique.eq_of_mem_iff hunique' fun currency =>
    (hfirstJob.balances.1.mem_iff currency).trans (hsecondJob.balances.1.mem_iff currency).symm
  refine map_eq_of_keys hkeys fun a ha b hb hsame => ?_
  obtain ⟨balance, hbalance, hbalanceSame⟩ := hfirstJob.balances.1.1 a ha
  rw [hfirstJob.balances.1.value_eq hunique.2 ha, hsecondJob.balances.1.value_eq hunique'.2 hb,
    hfirstJob.cashQuanta a ha balance hbalance hbalanceSame,
    hsecondJob.cashQuanta b hb balance hbalance (hbalanceSame.trans hsame), hsame]

/-- The positions of two results are the same. -/
theorem finalPositions_eq {final : Projection} (hfirst : Consistent first)
    (hsecond : Consistent second) (hfirstJob : Projected first job final)
    (hsecondJob : Projected second job final) :
    first.finalPositions.map (fun item => (item.instrumentId, item.quantity.value,
      item.quantityQuantum.value)) = second.finalPositions.map fun item => (item.instrumentId,
        item.quantity.value, item.quantityQuantum.value) := by
  have hunique := hfirst.stable.2.2.2.2
  have hunique' := hsecond.stable.2.2.2.2
  have hkeys := hunique.eq_of_mem_iff hunique' fun id =>
    (hfirstJob.balances.2.mem_iff id).trans (hsecondJob.balances.2.mem_iff id).symm
  refine map_eq_of_keys hkeys fun a ha b hb hsame => ?_
  have hid := (hfirstJob.balances.2.mem_iff a.instrumentId).mp (List.mem_map_of_mem ha)
  rw [job.positions] at hid
  obtain ⟨instrument, hinstrument, hinstrumentId⟩ := List.mem_map.mp hid
  rw [hfirstJob.balances.2.value_eq hunique.2 ha, hsecondJob.balances.2.value_eq hunique'.2 hb,
    hfirstJob.positionQuanta a ha instrument hinstrument hinstrumentId,
    hsecondJob.positionQuanta b hb instrument hinstrument (hinstrumentId.trans hsame), hsame]

variable [Hashing]

/-- The outcomes of two results are the same. -/
theorem economics_outcomes_eq (hfirst : Consistent first) (hsecond : Consistent second)
    (hfirstJob : Checked first job) (hsecondJob : Checked second job) :
    first.orderOutcomes.map (·.economics) = second.orderOutcomes.map (·.economics) := by
  have hids : ∀ {result : BacktestResult}, Checked result job → ∀ id,
      id ∈ result.orderOutcomes.map (·.orderId) ↔ id ∈ job.orders.map (·.orderId) := by
    intro result h id
    constructor
    · intro hid
      obtain ⟨outcome, houtcome, rfl⟩ := List.mem_map.mp hid
      exact h.known outcome houtcome
    · intro hid
      obtain ⟨order, horder, rfl⟩ := List.mem_map.mp hid
      exact h.covered order horder
  have hkeys := hfirst.stable.1.eq_of_mem_iff hsecond.stable.1 fun id =>
    (hids hfirstJob id).trans (hids hsecondJob id).symm
  refine map_eq_of_keys hkeys fun a ha b hb hid => ?_
  obtain ⟨order, horder, horderId⟩ := List.mem_map.mp (hfirstJob.known a ha)
  obtain ⟨hhash, hcommand, hstatus⟩ := hfirstJob.outcomes order horder a ha horderId.symm
  obtain ⟨hhash', hcommand', hstatus'⟩ :=
    hsecondJob.outcomes order horder b hb (horderId.trans hid).symm
  have hfilled : a.filledQuantity.value = b.filledQuantity := by
    have htotal := hfirstJob.quantities a ha
    have htotal' := hsecondJob.quantities b hb
    rw [totals_orderId_eq, economics_fillsOf_eq hfirstJob hsecondJob] at htotal
    rw [totals_orderId_eq, ← hid] at htotal'
    exact htotal.symm.trans htotal'
  have hsum : ∀ {result : BacktestResult}, Consistent result → ∀ outcome ∈ result.orderOutcomes,
      outcome.filledQuantity.value + outcome.remainingQuantity = outcome.commandQuantity := by
    intro result h outcome houtcome
    have hvalid := h.outcomes outcome houtcome
    simp only [BacktestOrderOutcome.validate, Attempt.bind_eq_success, raiseUnless_eq_success,
      positiveDecimal_eq_success, nonNegativeDecimal_eq_success, exists_const,
        round_exact] at hvalid
    exact hvalid.2.2.2.1
  have hremaining : a.remainingQuantity.value = b.remainingQuantity := by
    have ha' := hsum hfirst a ha
    have hb' := hsum hsecond b hb
    rw [hcommand, hfilled] at ha'
    rw [hcommand'] at hb'
    linarith
  rw [hfilled] at hstatus
  obtain ⟨hstatusEq, hreason⟩ := Prod.mk.inj (hstatus.trans hstatus'.symm)
  simp only [BacktestOrderOutcome.economics, hid, hhash, hhash', hcommand, hcommand', hfilled,
    hremaining, hstatusEq, hreason]

theorem sameBinding (hfirst : Checked first job) (hsecond : Checked second job) :
    SameBinding first second := by
  obtain ⟨⟨h1, h2, h3, h4, h5, h6⟩, ⟨h7, h8, h9, h10, h11⟩, -⟩ := hfirst.binding
  obtain ⟨⟨k1, k2, k3, k4, k5, k6⟩, ⟨k7, k8, k9, k10, k11⟩, -⟩ := hsecond.binding
  exact ⟨⟨h1.trans k1.symm, h2.trans k2.symm, h3.trans k3.symm, h4.trans k4.symm, h5.trans k5.symm,
    h6.trans k6.symm⟩, h7.trans k7.symm, h8.trans k8.symm, h9.trans k9.symm, h10.trans k10.symm,
    h11.trans k11.symm⟩

/-- Two results that a job accepts agree in their economics. -/
theorem sameEconomics_of_validateAgainst (hfirst : first.validate = .success ())
    (hfirstJob : first.validateAgainst job = .success ()) (hsecond : second.validate = .success ())
    (hsecondJob : second.validateAgainst job = .success ()) :
    SameEconomics first second ∧ SameBinding first second := by
  have hfirst := validate_iff.mp hfirst
  have hsecond := validate_iff.mp hsecond
  have hfirstJob := validateAgainst_iff.mp hfirstJob
  have hsecondJob := validateAgainst_iff.mp hsecondJob
  have hperm := economics_perm hfirstJob hsecondJob
  obtain ⟨final, hfinal⟩ := hfirstJob.projection
  obtain ⟨final', hfinal'⟩ := hsecondJob.projection
  obtain rfl : final = final' := by
    rw [hfinal.final_eq, hfinal'.final_eq]
    exact Projection.moved_perm _ hperm
  have hfees : first.totalFees.value = second.totalFees.value := by
    rw [← hfirst.fees, ← hsecond.fees, sumFees_eq, sumFees_eq]
    exact (hperm.map _).sum_eq
  exact ⟨⟨economics_fillsOf_eq hfirstJob hsecondJob,
    economics_outcomes_eq hfirst hsecond hfirstJob hsecondJob, hfees,
    finalCash_eq hfirst hsecond hfinal hfinal', finalPositions_eq hfirst hsecond hfinal hfinal'⟩,
    sameBinding hfirstJob hsecondJob⟩

end

end Backtest

namespace BacktestScenario

open Backtest
open scoped ExactArithmetic CodeHashing

def order : BacktestOrder := { lateOrder with
  issuedAt := 50
  validity := by decide }

def job : BacktestJob := { lateJob with
  orders := [order]
  counted := by decide
  timeline := by decide
  ordersOrdered := by decide
  sequences := by decide
  ordersUnique := by decide
  ordersMatch := by decide +kernel }

def fill (fillId : UUID) : BacktestFill where
  fillId := fillId
  orderId := 1
  orderHash := order.orderHash
  instrumentId := 1
  side := .buy
  quantity := order.quantity
  quantityQuantum := instrument.quantityQuantum
  price := bar.open_
  priceQuantum := instrument.priceQuantum
  feeCurrency := "USD"
  fees := costModel.minimumFee
  feeQuantum := costModel.feeQuantum
  slippage := costModel.minimumFee
  occurredAt := 100
  sourceBarId := 1
  externalRef := none
  positive := by decide +kernel
  fees_nonneg := costModel.minimumFee_nonneg
  quantized := by decide +kernel

def result (fillId : UUID) (warnings : List String) : BacktestResult where
  resultId := fillId
  requestId := 1
  runId := 1
  jobId := 1
  attemptGeneration := 1
  attemptNonce := "nonce"
  runtime := job.runtime
  jobHash := job.jobHash
  inputHash := job.inputHash
  datasetHash := job.dataset.payloadHash
  calendarHash := job.dataset.calendar.calendarHash
  costModelHash := job.costModel.costModelHash
  orderOutcomes := [⟨1, order.orderHash, .filled, order.quantity, order.quantity,
    costModel.minimumFee, none⟩]
  fills := [fill fillId]
  finalCash := [⟨"USD", decimal 90000 (-2), costModel.feeQuantum, by decide +kernel,
    by decide +kernel⟩]
  finalPositions := [⟨1, order.quantity, instrument.quantityQuantum, order.quantity_pos.le,
    by decide +kernel⟩]
  totalFees := costModel.minimumFee
  generatedAt := 5500
  warnings := warnings

theorem sameEconomics_of_results :
    SameEconomics (result 1 []) (result 2 ["slow"]) ∧
    SameBinding (result 1 []) (result 2 ["slow"]) :=
  sameEconomics_of_validateAgainst (show (result 1 []).validate = .success () by decide +kernel)
    (show (result 1 []).validateAgainst job = .success () by decide +kernel)
    (show (result 2 ["slow"]).validate = .success () by decide +kernel)
    (show (result 2 ["slow"]).validateAgainst job = .success () by decide +kernel)

end BacktestScenario

end StonksPaper
