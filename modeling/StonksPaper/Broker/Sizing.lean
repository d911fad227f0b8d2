import StonksPaper.Broker.Reference

/-!
# Prices, fees and quantities of a fill

What the sizing of a fill guarantees: the price is positive when buying, the fee is not negative,
and a cash order of few enough digits never costs more than is held.
-/

namespace StonksPaper

open Quantum

section

variable [Arithmetic] {policy : PaperExecutionPolicy} {intent : OrderIntent} {bar : ExecutionBar}
  {request : PaperExecutionRequest} {price quantity quantum available : Decimal}

/-- The order's quantity and the reservation's amount, written to the last place of their quanta,
have no more digits than the context keeps. -/
structure PaperExecutionRequest.Fits (request : PaperExecutionRequest) : Prop where
  quantity : Arithmetic.context.Fits request.command.intent.quantityQuantum
    request.command.intent.quantity
  amount : Arithmetic.context.Fits request.reservation.quantum request.reservation.amount

/-! ## Fee -/

theorem fee_nonneg (hp : policy.Valid) : 0 ≤ fee quantity price policy :=
  Context.ceilTo_nonneg hp.fee_quantum_pos (hp.minimum_nonneg.trans (le_max_right _ _))

/-! ## Price -/

/-- The two ways in which an order gets a price. -/
theorem fillPrice_cases (h : fillPrice request bar policy = some price) :
    price = adjustedPrice request.command.intent bar policy ∨
      ∃ limit ∈ request.command.intent.limitPrice, IsQuantized limit bar.priceQuantum ∧
        limitFillPrice bar (adjustedPrice request.command.intent bar policy) limit
          request.command.intent.side = some price := by
  simp only [fillPrice] at h
  split at h
  · exact .inl (Option.some.inj h).symm
  · rename_i limit _ hlimit
    split at h
    · rename_i hquantized
      exact .inr ⟨limit, hlimit, hquantized, h⟩
    · cases h
  · cases h

/-- Spread, slippage and impact together are not negative. -/
theorem adverse_nonneg (hp : policy.Valid) (hbar : bar.Valid) (hi : 0 < intent.quantity) :
    0 ≤ kept (kept (policy.halfSpreadBps + policy.baseSlippageBps) +
      kept (kept (policy.marketImpactBpsAtMaxParticipation * min policy.maxVolumeParticipation
        (if bar.volume ≠ 0 then kept (intent.quantity / bar.volume) else 0)) /
        policy.maxVolumeParticipation)) := by
  have hvolume : 0 ≤ if bar.volume ≠ 0 then kept (intent.quantity / bar.volume) else 0 := by
    split
    · exact kept_nonneg_iff.mpr (div_nonneg hi.le hbar.volume_nonneg)
    · exact le_rfl
  have hparticipation := le_min hp.participation_pos.le hvolume
  have himpact := mul_nonneg hp.impact_nonneg hparticipation
  have hspread := add_nonneg hp.half_spread_nonneg hp.base_slippage_nonneg
  exact kept_nonneg_iff.mpr <| add_nonneg (kept_nonneg_iff.mpr hspread) <|
    kept_nonneg_iff.mpr <| div_nonneg (kept_nonneg_iff.mpr himpact) hp.participation_pos.le

theorem adjustedPrice_pos (hp : policy.Valid) (hbar : bar.Valid) (hi : 0 < intent.quantity)
    (hside : intent.side = .buy) : 0 < adjustedPrice intent bar policy := by
  have hadverse := adverse_nonneg hp hbar hi
  have hrate := div_nonneg (kept_nonneg_iff.mpr hadverse) (by norm_num [bps] : (0 : Decimal) ≤ bps)
  simp only [adjustedPrice, hside, OrderSide.direction, adverseQuantize, one_mul]
  refine Context.ceilTo_pos hbar.price_quantum_pos (kept_pos_iff.mpr (mul_pos hbar.open_pos ?_))
  exact kept_pos_iff.mpr (add_pos_of_pos_of_nonneg one_pos (kept_nonneg_iff.mpr hrate))

theorem fillPrice_pos_of_buy (hp : policy.Valid) (hbar : bar.Valid)
    (hi : 0 < request.command.intent.quantity)
    (hlimit : ∀ limit ∈ request.command.intent.limitPrice, 0 < limit)
    (hside : request.command.intent.side = .buy)
    (h : fillPrice request bar policy = some price) : 0 < price := by
  have hadjusted := adjustedPrice_pos hp hbar hi hside
  rcases fillPrice_cases h with rfl | ⟨limit, hmem, -, hprice⟩
  · exact hadjusted
  · rw [hside] at hprice
    simp only [limitFillPrice] at hprice
    split at hprice
    · cases hprice; exact lt_min hadjusted (hlimit limit hmem)
    · split at hprice <;> cases hprice
      exact hlimit price hmem

/-! ## Quantity -/

theorem approximateUnit_pos (hprice : 0 < price) (hp : policy.Valid) :
    0 < approximateUnit price policy := by
  have hrate := div_nonneg hp.fee_bps_nonneg (by norm_num [bps] : (0 : Decimal) ≤ bps)
  have hfactor : 0 < 1 + kept (policy.feeBps / bps) :=
    add_pos_of_pos_of_nonneg one_pos (kept_nonneg_iff.mpr hrate)
  have hunit := kept_pos_iff.mpr (mul_pos hprice (kept_pos_iff.mpr hfactor))
  exact kept_pos_iff.mpr (add_pos_of_pos_of_nonneg hunit hp.per_unit_nonneg)

theorem affordableQuantity_returns (hprice : 0 < price) (hp : policy.Valid) :
    (affordableQuantity quantity price quantum available policy).Returns := by
  have hunit : approximateUnit price policy ≠ 0 := (approximateUnit_pos hprice hp).ne'
  simp [affordableQuantity, Attempt.require_of hunit]

/-- Lowering a candidate that fits, the loop stops at an affordable candidate, or at none. -/
theorem lowerCandidate_stops {fuel : ℕ} {candidate bound : Decimal} (hq : 0 < quantum)
    (hfits : Arithmetic.context.Fits quantum bound) (hle : candidate ≤ bound)
    (hfuel : candidate ≤ fuel * (quantum / 2)) :
    ¬ (0 < lowerCandidate price quantum available policy fuel candidate ∧
      available < cashConsumption (lowerCandidate price quantum available policy fuel candidate)
        price policy) := by
  induction fuel generalizing candidate with
  | zero =>
      rintro ⟨hpos, -⟩
      have hzero : candidate ≤ 0 := by simpa using hfuel
      exact absurd hpos (not_lt.mpr hzero)
  | succ fuel ih =>
      unfold lowerCandidate
      split
      · rename_i hloop
        have hstep : kept (candidate - quantum) ≤ max 0 (candidate - quantum / 2) :=
          hfits.round_sub_le hq hle
        refine ih (hstep.trans ?_) (hstep.trans ?_)
        · exact max_le (hloop.1.le.trans hle) (by linarith)
        · push_cast at hfuel
          exact max_le (by positivity) (by linarith)
      · assumption

omit [Arithmetic] in
theorem candidate_le_steps (hq : 0 < quantum) (candidate : Decimal) :
    candidate ≤ candidateSteps candidate quantum * (quantum / 2) := by
  have hceil : candidate / quantum ≤ (⌈candidate / quantum⌉.toNat : Decimal) :=
    (Int.le_ceil _).trans (by exact_mod_cast Int.self_le_toNat _)
  rw [candidateSteps]
  push_cast
  calc candidate = candidate / quantum * quantum := (div_mul_cancel₀ _ hq.ne').symm
    _ ≤ ⌈candidate / quantum⌉.toNat * quantum := mul_le_mul_of_nonneg_right hceil hq.le
    _ = 2 * ⌈candidate / quantum⌉.toNat * (quantum / 2) := by ring

theorem affordableQuantity_spec {q : Decimal} (hq : 0 < quantum)
    (hfits : Arithmetic.context.Fits quantum quantity)
    (h : affordableQuantity quantity price quantum available policy = .success q) (hpos : 0 < q) :
    cashConsumption q price policy ≤ available := by
  obtain ⟨_, -, h⟩ := Attempt.bind_eq_success.mp h
  cases h
  have hcandidate := (lt_max_iff.mp hpos).resolve_left (lt_irrefl 0)
  rw [max_eq_right hcandidate.le]
  by_contra hcost
  exact lowerCandidate_stops hq hfits (min_le_left _ _) (candidate_le_steps hq _)
    ⟨hcandidate, not_le.mp hcost⟩

/-- Lowering a candidate never raises it. -/
theorem lowerCandidate_le {fuel : ℕ} {candidate bound : Decimal} (hq : 0 < quantum)
    (hfits : Arithmetic.context.Fits quantum bound) (hle : candidate ≤ bound) :
    lowerCandidate price quantum available policy fuel candidate ≤ max 0 candidate := by
  induction fuel generalizing candidate with
  | zero => exact le_max_right _ _
  | succ fuel ih =>
      unfold lowerCandidate
      split
      · rename_i hloop
        have hstep : kept (candidate - quantum) ≤ max 0 (candidate - quantum / 2) :=
          hfits.round_sub_le hq hle
        have hmax : max 0 (candidate - quantum / 2) ≤ max 0 candidate :=
          max_le_max_left 0 (by linarith)
        have hwithin : kept (candidate - quantum) ≤ bound :=
          (hstep.trans hmax).trans (max_le (hloop.1.le.trans hle) hle)
        exact (ih hwithin).trans (max_le (le_max_left _ _) (hstep.trans hmax))
      · exact le_max_right _ _

end

section

variable {policy : PaperExecutionPolicy} {bar : ExecutionBar} {request : PaperExecutionRequest}
  {price : Decimal}

/-! ## Next bar -/

def lastTime (request : PaperExecutionRequest) : UTCDateTime :=
  request.priorEvents.getLast?.elim request.command.issuedAt (·.occurredAt)

theorem nextBar_spec (h : nextBar request = some bar) :
    bar ∈ request.bars ∧ lastTime request < bar.opensAt ∧
      bar.opensAt < request.command.intent.validUntil := by
  have hmem := List.mem_of_find?_eq_some h
  have hsome := List.find?_some h
  simp only [decide_eq_true_eq] at hsome
  exact ⟨hmem, hsome.2⟩

theorem nextPrice_eq_some [Arithmetic] (h : nextPrice request policy = some (bar, price)) :
    nextBar request = some bar ∧ fillPrice request bar policy = some price := by
  simp only [nextPrice, Option.bind_eq_bind, Option.bind_eq_some_iff] at h
  obtain ⟨bar', hbar, price', hprice, h⟩ := h
  cases h
  exact ⟨hbar, hprice⟩

end

end StonksPaper
