import StonksPaper.Backtest.Contracts

/-!
# The economics of a fill

`backtest_math.py`. Its check of the bounds passes for every parsed decimal, so it stands here only
where a product is checked. A job whose validators have run prices every bar.
-/

namespace StonksPaper

def BacktestOrderSide.direction : BacktestOrderSide → Decimal
  | .buy => 1
  | .sell => -1

namespace Backtest

section

variable [DecimalContext]

/-! ## Rounding -/

/-- `floor_quantum`, after its check. -/
def floorQuantum (value quantum : Decimal) : Decimal := wide (⌊wide (value / quantum)⌋ * quantum)

/-- `ceil_quantum`, after its check. -/
def ceilQuantum (value quantum : Decimal) : Decimal := wide (⌈wide (value / quantum)⌉ * quantum)

def adverseQuantize (value quantum : Decimal) : BacktestOrderSide → Decimal
  | .buy => ceilQuantum value quantum
  | .sell => floorQuantum value quantum

/-- The adjusted exponent of a product in the default context; that of zero is the one of its
notation. -/
def productAdjusted (x y : DecimalString) : ℤ :=
  if x.value * y.value = 0 then x.number.exponent + y.number.exponent
  else Significant.exponent (round (x.value * y.value))

/-- `floor_quantum(bar.volume * cost.max_volume_participation, instrument.quantity_quantum)`. -/
def barCapacity (bar : BacktestBar) (instrument : BacktestInstrument) (cost : BacktestCostModel) :
    Call Decimal := do
  raiseUnless (|productAdjusted bar.volume cost.maxVolumeParticipation| ≤ 64)
    "canonical backtest decimal exceeds supported bounds"
  return floorQuantum (round (bar.volume.value * cost.maxVolumeParticipation))
    instrument.quantityQuantum

/-! ## Price, fee and outcome -/

def participation (order : BacktestOrder) (bar : BacktestBar) (cost : BacktestCostModel) :
    Decimal :=
  min cost.maxVolumeParticipation.value
    (if bar.volume.value = 0 then 0 else wide (order.quantity.value / bar.volume))

def adverseBps (order : BacktestOrder) (bar : BacktestBar) (cost : BacktestCostModel) : Decimal :=
  let impact := wide (wide (cost.marketImpactBpsAtMaxParticipation * participation order bar cost) /
    cost.maxVolumeParticipation)
  wide (wide (cost.halfSpreadBps.value + cost.baseSlippageBps) + impact)

/-- `adjusted` of `canonical_fill_price`. -/
def adjustedPrice (order : BacktestOrder) (bar : BacktestBar) (instrument : BacktestInstrument)
    (cost : BacktestCostModel) : Decimal :=
  let factor := wide (1 + wide (wide (order.side.direction * adverseBps order bar cost) / 10000))
  adverseQuantize (wide (bar.open_ * factor)) instrument.priceQuantum order.side

def canonicalFillPrice (order : BacktestOrder) (bar : BacktestBar)
    (instrument : BacktestInstrument) (cost : BacktestCostModel) : Call (Option Decimal) := do
  let adjusted := adjustedPrice order bar instrument cost
  raiseUnless (0 < adjusted) "canonical fill must have a positive price"
  match order.orderType, order.limitPrice with
  | .market, _ => return some adjusted
  | .limit, none => return none
  | .limit, some limit =>
      match order.side with
      | .buy => return if bar.open_.value ≤ limit then some (min adjusted limit) else none
      | .sell => return if limit.value ≤ bar.open_ then some (max adjusted limit) else none

/-- `canonical_fill_fee`, for numbers within the bounds. -/
def canonicalFillFee (quantity price : Decimal) (cost : BacktestCostModel) : Decimal :=
  let raw := wide (wide (wide (quantity * price) * wide (cost.feeBps / 10000)) +
    wide (quantity * cost.perUnitFee))
  ceilQuantum (max raw cost.minimumFee) cost.feeQuantum

omit [DecimalContext] in
def canonicalOutcomeStatus (order : BacktestOrder) (filled : Decimal) (asOf : UTCDateTime) :
    BacktestOrderStatus × Option String :=
  if filled = order.quantity then (.filled, none)
  else if 0 < filled then (.partiallyFilled, some "canonical_partial_fill")
  else
    match order.timeInForce with
    | .ioc => (.cancelled, some "canonical_ioc_unfilled")
    | .day => (.cancelled, some "canonical_day_unfilled")
    | .gtc =>
        if order.validUntil ≤ asOf then (.expired, some "canonical_validity_expired")
        else (.accepted, some "canonical_pending")

end

/-! ## What the contexts keep -/

/-- What the argument on prices needs of the context of 128 digits. -/
structure Lawful [DecimalContext] : Prop where
  mono : Monotone wide
  neg : ∀ x, wide (-x) = -wide x
  again : ∀ x, wide (wide x) = wide x
  short : ∀ x, Significant.HasDigits 128 x → wide x = x

open scoped PythonArithmetic in
theorem lawful_python : Lawful :=
  ⟨Significant.round_mono (by norm_num), Significant.round_neg_eq,
    Significant.round_round (by norm_num), fun _ h => Significant.round_of_hasDigits h⟩

open scoped ExactArithmetic in
theorem lawful_exact : Lawful := ⟨monotone_id, fun _ => rfl, fun _ => rfl, fun _ _ => rfl⟩

theorem hasDigits_value (d : DecimalString) : Significant.HasDigits 64 d.value := by
  have hcount := (Numeral.length_digitsOf_le (n := d.number.coefficient) (by norm_num)).mp
    d.bounded.1
  have hlt : ((d.number.coefficient : ℕ) : ℤ) < 10 ^ 64 := by exact_mod_cast hcount
  unfold DecimalString.value Numeral.value
  split
  · refine ⟨-d.number.coefficient, d.number.exponent, ?_, by push_cast; ring⟩
    rwa [abs_neg, Nat.abs_cast]
  · refine ⟨d.number.coefficient, d.number.exponent, ?_, by push_cast; ring⟩
    rwa [Nat.abs_cast]

namespace Lawful

variable [DecimalContext]

theorem one (h : Lawful) : wide 1 = 1 :=
  h.short 1 (Significant.hasDigits_one (by norm_num))

theorem zero (h : Lawful) : wide 0 = 0 := by
  have hneg := h.neg 0
  rw [neg_zero] at hneg
  linarith

theorem value (h : Lawful) (d : DecimalString) : wide d.value = d.value :=
  h.short _ ((hasDigits_value d).mono (by norm_num))

theorem mul (h : Lawful) (d e : DecimalString) : wide (d.value * e.value) = d.value * e.value :=
  h.short _ ((hasDigits_value d).mul (hasDigits_value e))

theorem nonneg (h : Lawful) {x : Decimal} (hx : 0 ≤ x) : 0 ≤ wide x := by
  have hmono := h.mono hx
  rwa [h.zero] at hmono

theorem le_floorQuantum (h : Lawful) {x : Decimal} {q : DecimalString} (hq : 0 < q.value)
    (hx : q.value ≤ x) : q.value ≤ floorQuantum x q := by
  have hratio : (1 : Decimal) ≤ wide (x / q.value) := by
    have hmono := h.mono ((one_le_div hq).mpr hx)
    rwa [h.one] at hmono
  have hfloor : (1 : ℤ) ≤ ⌊wide (x / q.value)⌋ := Int.le_floor.mpr (by exact_mod_cast hratio)
  have hcast : (1 : Decimal) ≤ ⌊wide (x / q.value)⌋ := by exact_mod_cast hfloor
  have hmono := h.mono (le_mul_of_one_le_left hq.le hcast)
  rwa [h.value] at hmono

theorem le_ceilQuantum (h : Lawful) {x : Decimal} {q : DecimalString} (hq : 0 < q.value)
    (hx : q.value ≤ x) : q.value ≤ ceilQuantum x q := by
  have hfloor := h.le_floorQuantum hq hx
  have hcast : (⌊wide (x / q.value)⌋ : Decimal) ≤ ⌈wide (x / q.value)⌉ := by
    exact_mod_cast Int.floor_le_ceil _
  exact hfloor.trans (h.mono (mul_le_mul_of_nonneg_right hcast hq.le))

end Lawful

/-! ## Prices are positive -/

section

variable [DecimalContext] {order : BacktestOrder} {bar : BacktestBar}
  {instrument : BacktestInstrument} {cost : BacktestCostModel}

theorem participation_le : participation order bar cost ≤ cost.maxVolumeParticipation :=
  min_le_left _ _

theorem participation_nonneg (h : Lawful) : 0 ≤ participation order bar cost := by
  refine le_min cost.participation.1.le ?_
  split
  · exact le_rfl
  · exact h.nonneg (div_nonneg order.quantity_pos.le bar.volume_nonneg)

theorem adverseBps_nonneg (h : Lawful) : 0 ≤ adverseBps order bar cost := by
  have hhalf := (cost.bps cost.halfSpreadBps (by simp)).1
  have hslip := (cost.bps cost.baseSlippageBps (by simp)).1
  have himpact := (cost.bps cost.marketImpactBpsAtMaxParticipation (by simp)).1
  have hscaled := h.nonneg (mul_nonneg himpact (participation_nonneg h : 0 ≤
      participation order bar cost))
  exact h.nonneg (add_nonneg (h.nonneg (add_nonneg hhalf hslip))
    (h.nonneg (div_nonneg hscaled cost.participation.1.le)))

theorem adverseBps_le (h : Lawful) : adverseBps order bar cost ≤ cost.adverseBps := by
  have himpact := (cost.bps cost.marketImpactBpsAtMaxParticipation (by simp)).1
  have hscaled := h.mono (mul_le_mul_of_nonneg_left
    (participation_le : participation order bar cost ≤ _) himpact)
  rw [h.mul] at hscaled
  have hdiv := h.mono ((div_le_iff₀ cost.participation.1).mpr hscaled)
  rw [h.value] at hdiv
  exact h.mono (add_le_add_right hdiv _)

/-- The price of a purchase is at least the opening price, and that is at least one quantum. -/
theorem quantum_le_adjustedPrice_of_buy (h : Lawful) (hside : order.side = .buy)
    (hopen : IsQuantized bar.open_.value instrument.priceQuantum) :
    instrument.priceQuantum.value ≤ adjustedPrice order bar instrument cost := by
  have hadverse : 0 ≤ wide (wide (1 * adverseBps order bar cost) / 10000) :=
    h.nonneg (div_nonneg (h.nonneg (by rw [one_mul]; exact adverseBps_nonneg h)) (by norm_num))
  have hfactor : 1 ≤ wide (1 + wide (wide (1 * adverseBps order bar cost) / 10000)) := by
    have hmono := h.mono (le_add_of_nonneg_right hadverse : (1 : Decimal) ≤ _)
    rwa [h.one] at hmono
  have hprice := h.mono (le_mul_of_one_le_right bar.prices_pos.1.le hfactor)
  rw [h.value] at hprice
  have hquantum := (hopen.le_of_pos bar.prices_pos.1).trans hprice
  unfold adjustedPrice
  rw [hside]
  exact h.le_ceilQuantum instrument.quanta_pos.1 hquantum

/-- The bound that is checked for sales covers the price of each. -/
theorem quantum_le_adjustedPrice_of_sell (h : Lawful) (hside : order.side = .sell)
    (hbound : instrument.priceQuantum.value ≤
      wide (bar.open_ * wide (wide (0 + 1) - wide (cost.adverseBps / 10000)))) :
    instrument.priceQuantum.value ≤ adjustedPrice order bar instrument cost := by
  have hagain : wide cost.adverseBps = cost.adverseBps := h.again _
  have hdirection : -cost.adverseBps ≤ wide (-1 * adverseBps order bar cost) := by
    have hmono := h.mono (neg_le_neg (adverseBps_le h : adverseBps order bar cost ≤ _))
    rwa [h.neg, hagain, ← neg_one_mul (adverseBps order bar cost)] at hmono
  have hscaled : -wide (cost.adverseBps / 10000) ≤
      wide (wide (-1 * adverseBps order bar cost) / 10000) := by
    have hmono := h.mono (div_le_div_of_nonneg_right hdirection (by norm_num : (0 : ℚ) ≤ 10000))
    rwa [neg_div, h.neg] at hmono
  have hfactor : wide (wide (0 + 1) - wide (cost.adverseBps / 10000)) ≤
      wide (1 + wide (wide (-1 * adverseBps order bar cost) / 10000)) := by
    rw [zero_add, h.one]
    exact h.mono (by linarith)
  have hprice := hbound.trans (h.mono (mul_le_mul_of_nonneg_left hfactor bar.prices_pos.1.le))
  unfold adjustedPrice
  rw [hside]
  exact h.le_floorQuantum instrument.quanta_pos.1 hprice

theorem canonicalFillPrice_of_pos (h : 0 < adjustedPrice order bar instrument cost) :
    ∃ price, canonicalFillPrice order bar instrument cost = .success price := by
  simp only [canonicalFillPrice]
  rw [raiseUnless_of h, Attempt.success_bind]
  split
  · exact ⟨_, rfl⟩
  · exact ⟨_, rfl⟩
  · split <;> exact ⟨_, rfl⟩

/-- Every order of a valid job has a price on every bar of its instrument. -/
theorem canonicalFillPrice_of_valid {job : BacktestJob} (h : Lawful) (hjob : job.Valid)
    (horder : order ∈ job.orders) (hbar : bar ∈ job.dataset.bars)
    (hinstrument : instrument ∈ job.dataset.instruments)
    (hid : instrument.instrumentId = bar.instrumentId)
    (hsame : order.instrumentId = bar.instrumentId) :
    ∃ price, canonicalFillPrice order bar instrument job.costModel = .success price := by
  have hquantum : instrument.priceQuantum.value ≤
      adjustedPrice order bar instrument job.costModel := by
    cases hside : order.side with
    | buy =>
        obtain ⟨other, hother, hotherId, -, hprices, -⟩ := job.dataset.barsValid bar hbar
        have hnodup := job.dataset.instrumentsOrdered.2
        obtain rfl : other = instrument :=
          List.inj_on_of_nodup_map hnodup hother hinstrument (hotherId.trans hid.symm)
        exact quantum_le_adjustedPrice_of_buy h hside (hprices bar.open_ (by simp))
    | sell =>
        exact quantum_le_adjustedPrice_of_sell h hside
          (hjob.sellBounds bar hbar instrument hinstrument hid ⟨order, horder, hside, hsame⟩)
  exact canonicalFillPrice_of_pos (instrument.quanta_pos.1.trans_le hquantum)

end

end Backtest

end StonksPaper
