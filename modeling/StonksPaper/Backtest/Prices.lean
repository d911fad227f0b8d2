import StonksPaper.Backtest.Engines

/-!
# The price of a fill in exact arithmetic

It is adverse by less than one quantum more than the basis points say, keeps to the limit, and does
not improve with the quantity.
-/

namespace StonksPaper

open Quantum

namespace Backtest

open scoped ExactArithmetic

/-- A limit that the opening price reaches. -/
def LimitCrossed (order : BacktestOrder) (bar : BacktestBar) : Prop :=
  ∀ limit ∈ order.limitPrice,
    match order.side with
    | .buy => bar.open_.value ≤ limit
    | .sell => limit.value ≤ bar.open_

/-- What a price on the wrong side of the opening price is to one of the two sides. -/
structure Adverse (order : BacktestOrder) (bar : BacktestBar) (instrument : BacktestInstrument)
    (cost : BacktestCostModel) (price : Decimal) : Prop where
  positive : 0 < price
  quantized : IsQuantized price instrument.priceQuantum
  buy : order.side = .buy → (∀ limit ∈ order.limitPrice, price ≤ limit) ∧
    (order.orderType = .market → bar.open_ ≤ price) ∧
    price < bar.open_ * (1 + adverseBps order bar cost / 10000) + instrument.priceQuantum
  sell : order.side = .sell → (∀ limit ∈ order.limitPrice, limit ≤ price) ∧
    (order.orderType = .market → price ≤ bar.open_) ∧
    bar.open_ * (1 - adverseBps order bar cost / 10000) - instrument.priceQuantum < price

/-- The same order, for no less. -/
structure Larger (order larger : BacktestOrder) : Prop where
  side : larger.side = order.side
  orderType : larger.orderType = order.orderType
  limitPrice : larger.limitPrice = order.limitPrice
  quantity : order.quantity.value ≤ larger.quantity

/-- A price that is no better for the side than another. -/
def NoBetter (side : BacktestOrderSide) (other price : Decimal) : Prop :=
  match side with
  | .buy => other ≤ price
  | .sell => price ≤ other

/-- The canonical price of an order on a bar is defined, adverse and within the limit. -/
structure PricedAdversely (order : BacktestOrder) (bar : BacktestBar)
    (instrument : BacktestInstrument) (cost : BacktestCostModel) : Prop where
  returns : ∃ price, canonicalFillPrice order bar instrument cost = .success price
  adverse : ∀ price, canonicalFillPrice order bar instrument cost = .success (some price) →
    Adverse order bar instrument cost price
  none_iff : canonicalFillPrice order bar instrument cost = .success none ↔
    ¬ LimitCrossed order bar
  larger : ∀ larger, Larger order larger →
    ∀ price, canonicalFillPrice order bar instrument cost = .success (some price) →
      ∃ worse, canonicalFillPrice larger bar instrument cost = .success (some worse) ∧
        NoBetter order.side price worse

section

variable {order larger : BacktestOrder} {bar : BacktestBar} {instrument : BacktestInstrument}
  {cost : BacktestCostModel}

/-! ## The adjusted price -/

theorem adverseBps_exact_nonneg : 0 ≤ adverseBps order bar cost := adverseBps_nonneg lawful_exact

theorem adverseBps_mono (h : order.quantity.value ≤ larger.quantity) :
    adverseBps order bar cost ≤ adverseBps larger bar cost := by
  have himpact := (cost.bps cost.marketImpactBpsAtMaxParticipation (by simp)).1
  have hparticipation : participation order bar cost ≤ participation larger bar cost := by
    refine min_le_min_left _ ?_
    split
    · exact le_rfl
    · exact div_le_div_of_nonneg_right h bar.volume_nonneg
  have hscaled := mul_le_mul_of_nonneg_left hparticipation himpact
  exact add_le_add_right (div_le_div_of_nonneg_right hscaled cost.participation.1.le) _

theorem adjustedPrice_buy (hside : order.side = .buy) :
    adjustedPrice order bar instrument cost =
      ceilTo (bar.open_ * (1 + adverseBps order bar cost / 10000))
      instrument.priceQuantum.value := by
  unfold adjustedPrice
  rw [hside]
  show ceilTo (bar.open_ * (1 + 1 * adverseBps order bar cost / 10000)) _ = _
  rw [one_mul]

theorem adjustedPrice_sell (hside : order.side = .sell) :
    adjustedPrice order bar instrument cost =
      floorTo (bar.open_ * (1 - adverseBps order bar cost / 10000))
        instrument.priceQuantum.value := by
  unfold adjustedPrice
  rw [hside]
  show floorTo (bar.open_ * (1 + -1 * adverseBps order bar cost / 10000)) _ = _
  rw [neg_one_mul, neg_div, ← sub_eq_add_neg]

theorem adjustedPrice_quantized :
    IsQuantized (adjustedPrice order bar instrument cost) instrument.priceQuantum := by
  have hquantum := instrument.quanta_pos.1
  cases hside : order.side with
  | buy =>
      rw [adjustedPrice_buy hside]
      exact isQuantized_ceilTo hquantum
  | sell =>
      rw [adjustedPrice_sell hside]
      exact isQuantized_floorTo hquantum

theorem open_le_adjustedPrice (hside : order.side = .buy) :
    bar.open_ ≤ adjustedPrice order bar instrument cost := by
  have hadverse : 0 ≤ adverseBps order bar cost / 10000 :=
    div_nonneg adverseBps_exact_nonneg (by norm_num)
  rw [adjustedPrice_buy hside]
  calc bar.open_.value ≤ bar.open_ * (1 + adverseBps order bar cost / 10000) :=
        le_mul_of_one_le_right bar.prices_pos.1.le (by linarith)
    _ ≤ _ := le_ceilTo instrument.quanta_pos.1

theorem adjustedPrice_le_open (hside : order.side = .sell) :
    adjustedPrice order bar instrument cost ≤ bar.open_ := by
  have hadverse : 0 ≤ adverseBps order bar cost / 10000 :=
    div_nonneg adverseBps_exact_nonneg (by norm_num)
  rw [adjustedPrice_sell hside]
  calc floorTo _ _ ≤ bar.open_ * (1 - adverseBps order bar cost / 10000) :=
        floorTo_le instrument.quanta_pos.1
    _ ≤ bar.open_.value := mul_le_of_le_one_right bar.prices_pos.1.le (by linarith)

/-- A larger order moves the price further. -/
theorem adjustedPrice_noBetter (h : Larger order larger) :
    NoBetter order.side (adjustedPrice order bar instrument cost)
      (adjustedPrice larger bar instrument cost) := by
  have hquantum := instrument.quanta_pos.1
  have hopen := bar.prices_pos.1.le
  have hadverse : adverseBps order bar cost / 10000 ≤ adverseBps larger bar cost / 10000 :=
    div_le_div_of_nonneg_right (adverseBps_mono h.quantity) (by norm_num)
  cases hside : order.side with
  | buy =>
      show adjustedPrice order bar instrument cost ≤ adjustedPrice larger bar instrument cost
      rw [adjustedPrice_buy hside, adjustedPrice_buy (h.side.trans hside)]
      have hmoved := mul_le_mul_of_nonneg_left (by linarith :
        1 + adverseBps order bar cost / 10000 ≤ 1 + adverseBps larger bar cost / 10000) hopen
      exact ceilTo_le (isQuantized_ceilTo hquantum) (hmoved.trans (le_ceilTo hquantum))
  | sell =>
      show adjustedPrice larger bar instrument cost ≤ adjustedPrice order bar instrument cost
      rw [adjustedPrice_sell hside, adjustedPrice_sell (h.side.trans hside)]
      have hmoved := mul_le_mul_of_nonneg_left (by linarith :
        1 - adverseBps larger bar cost / 10000 ≤ 1 - adverseBps order bar cost / 10000) hopen
      exact le_floorTo (isQuantized_floorTo hquantum) ((floorTo_le hquantum).trans hmoved)

/-! ## The limit -/

/-- The price within the limit. -/
def limitedPrice (order : BacktestOrder) (adjusted : Decimal) : Decimal :=
  match order.limitPrice with
  | none => adjusted
  | some limit =>
      match order.side with
      | .buy => min adjusted limit
      | .sell => max adjusted limit

theorem canonicalFillPrice_eq (h : 0 < adjustedPrice order bar instrument cost) :
    (LimitCrossed order bar → canonicalFillPrice order bar instrument cost =
      .success (some (limitedPrice order (adjustedPrice order bar instrument cost)))) ∧
    (¬ LimitCrossed order bar → canonicalFillPrice order bar instrument cost = .success none) := by
  simp only [canonicalFillPrice, raiseUnless_of h, Attempt.success_bind, LimitCrossed, limitedPrice]
  cases hlimit : order.limitPrice with
  | none =>
      have htype : order.orderType = .market := by
        cases htype : order.orderType with
        | market => rfl
        | limit => exact absurd hlimit (order.limited.mp htype)
      simp [htype]
  | some limit =>
      have htype : order.orderType = .limit := order.limited.mpr (by simp [hlimit])
      cases hside : order.side with
      | buy => simp [htype]
      | sell => simp [htype]

theorem limitedPrice_adverse (horder : OrderMatchesInstrument order instrument)
    (h : 0 < adjustedPrice order bar instrument cost) : Adverse order bar instrument cost
      (limitedPrice order (adjustedPrice order bar instrument cost)) := by
  have hquantum := instrument.quanta_pos.1
  have hadjusted : IsQuantized (adjustedPrice order bar instrument cost) _ :=
    adjustedPrice_quantized
  cases hlimit : order.limitPrice with
  | none =>
      have hprice : limitedPrice order (adjustedPrice order bar instrument cost) =
          adjustedPrice order bar instrument cost := by
        simp only [limitedPrice, hlimit]
      rw [hprice]
      refine ⟨h, hadjusted, fun hside =>
        ⟨by simp [hlimit], fun _ => open_le_adjustedPrice hside, ?_⟩,
        fun hside => ⟨by simp [hlimit], fun _ => adjustedPrice_le_open hside, ?_⟩⟩
      · rw [adjustedPrice_buy hside]
        exact ceilTo_lt_add hquantum
      · rw [adjustedPrice_sell hside]
        exact sub_lt_floorTo hquantum
  | some limit =>
      have hpositive := order.limitPrice_pos limit hlimit
      have hlimitQuantum := horder.2 limit hlimit
      have hnotMarket : order.orderType ≠ .market := by
        intro hmarket
        have htype := order.limited.mpr (by simp [hlimit])
        rw [hmarket] at htype
        cases htype
      cases hside : order.side with
      | buy =>
          have hprice : limitedPrice order (adjustedPrice order bar instrument cost) =
              min (adjustedPrice order bar instrument cost) limit := by
            simp only [limitedPrice, hlimit, hside]
          rw [hprice]
          refine ⟨lt_min h hpositive, hadjusted.min hlimitQuantum, fun _ => ⟨?_, ?_, ?_⟩, ?_⟩
          · intro other hother
            obtain rfl := Option.some.inj (hlimit.symm.trans hother)
            exact min_le_right _ _
          · exact fun hmarket => absurd hmarket hnotMarket
          · refine (min_le_left _ _).trans_lt ?_
            rw [adjustedPrice_buy hside]
            exact ceilTo_lt_add hquantum
          · exact fun hother => by rw [hside] at hother; cases hother
      | sell =>
          have hprice : limitedPrice order (adjustedPrice order bar instrument cost) =
              max (adjustedPrice order bar instrument cost) limit := by
            simp only [limitedPrice, hlimit, hside]
          rw [hprice]
          refine ⟨lt_max_of_lt_left h, hadjusted.max hlimitQuantum, ?_, fun _ => ⟨?_, ?_, ?_⟩⟩
          · exact fun hother => by rw [hside] at hother; cases hother
          · intro other hother
            obtain rfl := Option.some.inj (hlimit.symm.trans hother)
            exact le_max_right _ _
          · exact fun hmarket => absurd hmarket hnotMarket
          · refine lt_of_lt_of_le ?_ (le_max_left _ _)
            rw [adjustedPrice_sell hside]
            exact sub_lt_floorTo hquantum

theorem limitedPrice_noBetter (h : Larger order larger) {adjusted worse : Decimal}
    (hworse : NoBetter order.side adjusted worse) :
    NoBetter order.side (limitedPrice order adjusted) (limitedPrice larger worse) := by
  unfold limitedPrice
  rw [h.limitPrice, h.side]
  cases order.limitPrice with
  | none => exact hworse
  | some limit =>
      cases hside : order.side with
      | buy =>
          rw [hside] at hworse
          exact min_le_min_right _ hworse
      | sell =>
          rw [hside] at hworse
          exact max_le_max_right _ hworse

end

/-! ## Every order of a job -/

theorem adjustedPrice_pos {job : BacktestJob} (hjob : job.Valid) {order larger : BacktestOrder}
    {bar : BacktestBar} {instrument : BacktestInstrument} (horder : order ∈ job.orders)
    (hbar : bar ∈ job.dataset.bars) (hinstrument : instrument ∈ job.dataset.instruments)
    (hid : instrument.instrumentId = bar.instrumentId)
    (hsame : order.instrumentId = bar.instrumentId) (hside : larger.side = order.side) :
    0 < adjustedPrice larger bar instrument job.costModel := by
  cases hbuy : order.side with
  | buy => exact bar.prices_pos.1.trans_le (open_le_adjustedPrice (hside.trans hbuy))
  | sell =>
      have hbound := hjob.sellBounds bar hbar instrument hinstrument hid
          ⟨order, horder, hbuy, hsame⟩
      exact instrument.quanta_pos.1.trans_le
        (quantum_le_adjustedPrice_of_sell lawful_exact (hside.trans hbuy) hbound)

/-- The canonical price of every order of a valid job on every bar of its instrument. -/
theorem canonicalFillPrice_adverse {job : BacktestJob} (hjob : job.Valid) {order : BacktestOrder}
    {bar : BacktestBar} {instrument : BacktestInstrument} (horder : order ∈ job.orders)
    (hbar : bar ∈ job.dataset.bars) (hinstrument : instrument ∈ job.dataset.instruments)
    (hid : instrument.instrumentId = bar.instrumentId)
    (hsame : order.instrumentId = bar.instrumentId) :
    PricedAdversely order bar instrument job.costModel := by
  have hpositive := adjustedPrice_pos hjob horder hbar hinstrument hid hsame (rfl : order.side = _)
  obtain ⟨hcrossed, hnone⟩ := canonicalFillPrice_eq hpositive
  have hsome {price : Decimal}
      (h : canonicalFillPrice order bar instrument job.costModel = .success (some price)) :
      LimitCrossed order bar ∧
        limitedPrice order (adjustedPrice order bar instrument job.costModel) = price := by
    by_cases hlimit : LimitCrossed order bar
    · rw [hcrossed hlimit] at h
      exact ⟨hlimit, Option.some.inj (Attempt.success.inj h)⟩
    · rw [hnone hlimit] at h
      cases Attempt.success.inj h
  refine ⟨canonicalFillPrice_of_pos hpositive, fun price hprice => ?_, ⟨fun h hlimit => ?_, hnone⟩,
    fun larger hlarger price hprice => ?_⟩
  · obtain ⟨other, hother, hotherId, hmatch⟩ := job.ordersMatch order horder
    obtain rfl : other = instrument := List.inj_on_of_nodup_map job.dataset.instrumentsOrdered.2
      hother hinstrument (hotherId.trans (hsame.trans hid.symm))
    obtain ⟨-, rfl⟩ := hsome hprice
    exact limitedPrice_adverse hmatch hpositive
  · rw [hcrossed hlimit] at h
    cases Attempt.success.inj h
  · obtain ⟨hlimit, rfl⟩ := hsome hprice
    have hworse := adjustedPrice_pos hjob horder hbar hinstrument hid hsame hlarger.side
    have hlargerCrossed : LimitCrossed larger bar := by
      unfold LimitCrossed
      rw [hlarger.limitPrice, hlarger.side]
      exact hlimit
    exact ⟨_, (canonicalFillPrice_eq hworse).1 hlargerCrossed,
      limitedPrice_noBetter hlarger (adjustedPrice_noBetter hlarger)⟩

end Backtest

namespace BacktestScenario

open Backtest
open scoped ExactArithmetic

/-- A limit order to sell a fifth of the bar. -/
def limitOrder : BacktestOrder where
  orderId := 1
  sequence := 1
  instrumentId := 1
  side := .sell
  orderType := .limit
  quantity := decimal 20 0
  limitPrice := some (decimal 950 (-2))
  timeInForce := .day
  issuedAt := 50
  validUntil := 900
  strategyEventRef := "signal"
  quantity_pos := by decide +kernel
  limitPrice_pos := by decide +kernel
  validity := by decide
  limited := by decide

/-- The order against costs of every kind. -/
def limitJob : BacktestJob :=
  { lateJob with
    costModel := { costModel with
      maxVolumeParticipation := decimal 5 (-1)
      halfSpreadBps := decimal 5 0
      baseSlippageBps := decimal 5 0
      marketImpactBpsAtMaxParticipation := decimal 50 0
      participation := by decide +kernel
      bps := by decide +kernel }
    orders := [limitOrder]
    ordersOrdered := by decide
    sequences := by decide
    ordersUnique := by decide
    ordersMatch := by decide +kernel }

theorem canonicalFillPrice_adverse_limit :
    PricedAdversely limitOrder bar instrument limitJob.costModel := by
  have hjob : limitJob.Valid := ⟨by decide +kernel, by decide +kernel⟩
  exact canonicalFillPrice_adverse hjob (by decide +kernel) (by decide +kernel)
    (by decide +kernel) rfl rfl

end BacktestScenario

end StonksPaper
