import StonksPaper.Broker.Live

/-!
# The affordable quantity

`_affordable_quantity` starts from an estimate and lowers it until the cash suffices. For a quantity
that fits the loop always ends, and it never oversells the cash. It only goes down, though, and the
estimate sets the minimum fee aside and divides by a unit price that holds the other fees as well,
whereas an order pays the larger of the two: an order that the cash just covers is cut.
-/

namespace StonksPaper

open Quantum

section

variable [Arithmetic] {policy : PaperExecutionPolicy}
  {price quantity quantum available candidate result bound : Decimal}

/-- The candidate with which the loop of `_affordable_quantity` starts. -/
def firstCandidate (quantity price quantum available : Decimal) (policy : PaperExecutionPolicy) :
    Decimal :=
  min quantity (affordableEstimate price quantum available policy)

/-! ## The loop -/

/-- The `while` loop ends on a candidate; it has no bound on its rounds. -/
inductive Lowers (price quantum available : Decimal) (policy : PaperExecutionPolicy) :
    Decimal → Decimal → Prop
  | done {candidate : Decimal}
      (h : ¬ (0 < candidate ∧ available < cashConsumption candidate price policy)) :
      Lowers price quantum available policy candidate candidate
  | round {candidate result : Decimal}
      (h : 0 < candidate ∧ available < cashConsumption candidate price policy)
      (rest : Lowers price quantum available policy (kept (candidate - quantum)) result) :
      Lowers price quantum available policy candidate result

theorem Lowers.unique {other : Decimal} (h : Lowers price quantum available policy candidate result)
    (hother : Lowers price quantum available policy candidate other) : result = other := by
  induction h with
  | done hstop =>
      cases hother with
      | done _ => rfl
      | round hgo _ => exact absurd hgo hstop
  | round hgo _ ih =>
      cases hother with
      | done hstop => exact absurd hgo hstop
      | round _ hrest => exact ih hrest

theorem Lowers.affordable (h : Lowers price quantum available policy candidate result)
    (hpos : 0 < result) : cashConsumption result price policy ≤ available := by
  induction h with
  | done hstop =>
      by_contra hcost
      exact hstop ⟨hpos, not_le.mp hcost⟩
  | round _ _ ih => exact ih hpos

theorem kept_round (hfits : Arithmetic.context.Fits quantum bound)
    (hcandidate : IsQuantized candidate quantum) (hpos : 0 < candidate) (hle : candidate ≤ bound) :
    kept (candidate - quantum) = candidate - quantum := by
  have hone := hcandidate.le_of_pos hpos
  refine hfits.round_eq (hcandidate.sub (.self hcandidate.pos)) ?_
  rw [abs_of_nonneg (sub_nonneg.mpr hone)]
  linarith [hcandidate.pos]

theorem Lowers.bounded (hfits : Arithmetic.context.Fits quantum bound)
    (h : Lowers price quantum available policy candidate result)
    (hcandidate : IsQuantized candidate quantum) (hle : candidate ≤ bound) :
    result ≤ candidate ∧ IsQuantized result quantum := by
  induction h with
  | done _ => exact ⟨le_rfl, hcandidate⟩
  | @round candidate result hgo _ ih =>
      have hq := hcandidate.pos
      rw [kept_round hfits hcandidate hgo.1 hle] at ih
      obtain ⟨hdown, hquantized⟩ := ih (hcandidate.sub (.self hq)) (by linarith)
      exact ⟨by linarith, hquantized⟩

/-- Enough rounds carry the loop to its end. -/
theorem lowers_lowerCandidate (hfits : Arithmetic.context.Fits quantum bound) {fuel : ℕ}
    (hcandidate : IsQuantized candidate quantum) (hle : candidate ≤ bound)
    (hfuel : candidate ≤ fuel * (quantum / 2)) :
    Lowers price quantum available policy candidate
      (lowerCandidate price quantum available policy fuel candidate) := by
  induction fuel generalizing candidate with
  | zero =>
      have hzero : candidate ≤ 0 := by simpa using hfuel
      exact .done fun hgo => absurd hgo.1 (not_lt.mpr hzero)
  | succ fuel ih =>
      unfold lowerCandidate
      split
      · rename_i hgo
        have hq := hcandidate.pos
        have hround : kept (candidate - quantum) = candidate - quantum :=
          kept_round hfits hcandidate hgo.1 hle
        refine .round hgo ?_
        rw [hround]
        refine ih (hcandidate.sub (.self hq)) (by linarith) ?_
        push_cast at hfuel
        linarith
      · rename_i hstop
        exact .done hstop

theorem exists_lowers (hfits : Arithmetic.context.Fits quantum bound)
    (hcandidate : IsQuantized candidate quantum) (hle : candidate ≤ bound) :
    Lowers price quantum available policy candidate (lowerCandidate price quantum available policy
      (candidateSteps candidate quantum) candidate) :=
  lowers_lowerCandidate hfits hcandidate hle (candidate_le_steps hcandidate.pos candidate)

/-! ## The estimate -/

theorem affordableEstimate_nonneg (hunit : 0 < approximateUnit price policy) (hq : 0 < quantum) :
    0 ≤ affordableEstimate price quantum available policy := by
  have hquotient : 0 ≤ kept (kept (max 0 (kept (available - policy.minimumFee)) /
      approximateUnit price policy) / quantum) :=
    kept_nonneg_iff.mpr
      (div_nonneg (kept_nonneg_iff.mpr (div_nonneg (le_max_left _ _) hunit.le)) hq.le)
  exact kept_nonneg_iff.mpr (mul_nonneg (by exact_mod_cast Int.floor_nonneg.mpr hquotient) hq.le)

theorem firstCandidate_quantized (hfits : Arithmetic.context.Fits quantum quantity)
    (hunit : 0 < approximateUnit price policy) (hquantity : IsQuantized quantity quantum) :
    IsQuantized (firstCandidate quantity price quantum available policy) quantum := by
  unfold firstCandidate
  by_cases hle : quantity ≤ affordableEstimate price quantum available policy
  · rwa [min_eq_left hle]
  · rw [min_eq_right (not_le.mp hle).le]
    exact hfits.isQuantized_floorTo hquantity.pos
      (kept_nonneg_iff.mpr (div_nonneg (le_max_left _ _) hunit.le)) (not_le.mp hle).le

/-- Where the cash covers the whole quantity, what it holds besides the minimum fee makes the
quantity at the price with its fees, as far as 28 digits tell. -/
def LeavesBothFees (quantity price quantum available : Decimal) (policy : PaperExecutionPolicy) :
    Prop :=
  cashConsumption quantity price policy ≤ available →
    quantity / quantum ≤ kept (kept (max 0 (kept (available - policy.minimumFee)) /
      approximateUnit price policy) / quantum)

theorem firstCandidate_eq_iff (hfits : Arithmetic.context.Fits quantum quantity)
    (hquantity : IsQuantized quantity quantum) (hnonneg : 0 ≤ quantity) :
    firstCandidate quantity price quantum available policy = quantity ↔
      quantity / quantum ≤ kept (kept (max 0 (kept (available - policy.minimumFee)) /
        approximateUnit price policy) / quantum) := by
  rw [firstCandidate, min_eq_left_iff]
  exact hfits.le_floorTo_iff hquantity hnonneg

theorem affordableQuantity_eq (hunit : 0 < approximateUnit price policy)
    (hfits : Arithmetic.context.Fits quantum quantity) (hquantity : IsQuantized quantity quantum)
    (h : Lowers price quantum available policy
      (firstCandidate quantity price quantum available policy) result) :
    affordableQuantity quantity price quantum available policy = .success (max 0 result) := by
  have hresult := h.unique
    (exists_lowers hfits (firstCandidate_quantized hfits hunit hquantity) (min_le_left _ _))
  rw [hresult]
  simp only [affordableQuantity, Attempt.require_of hunit.ne', Attempt.success_bind]
  rfl

/-! ## Safety and starvation -/

/-- The loop ends, and the quantity is safe: on its quantum, no more than was asked for, paid by the
cash. An order that the cash covers as a whole is not cut. -/
structure AffordsSafely (quantity price quantum available : Decimal)
    (policy : PaperExecutionPolicy) (affordable : Decimal) : Prop where
  ends : ∃ result, Lowers price quantum available policy
    (firstCandidate quantity price quantum available policy) result ∧ affordable = max 0 result
  quantized : IsQuantized affordable quantum
  nonneg : 0 ≤ affordable
  asked : affordable ≤ quantity
  paid : 0 < affordable → cashConsumption affordable price policy ≤ available
  whole : cashConsumption quantity price policy ≤ available → affordable = quantity

/-- An affordable quantity that the loop keeps leaves room for both fees. -/
theorem leavesBothFees_of_whole {affordable : Decimal}
    (hunit : 0 < approximateUnit price policy)
    (hfits : Arithmetic.context.Fits quantum quantity) (hquantity : IsQuantized quantity quantum)
    (h : AffordsSafely quantity price quantum available policy affordable) :
    LeavesBothFees quantity price quantum available policy := by
  intro hcost
  obtain ⟨result, hloop, hmax⟩ := h.ends
  have hwhole := h.whole hcost
  have hnonneg : 0 ≤ quantity := hwhole ▸ h.nonneg
  rw [← firstCandidate_eq_iff hfits hquantity hnonneg]
  rcases hnonneg.eq_or_lt with hzero | hpos
  · rw [firstCandidate, ← hzero]
    exact min_eq_left (affordableEstimate_nonneg hunit hquantity.pos)
  · have hresult : result = quantity := by
      rw [hwhole] at hmax
      have hresultPos := (lt_max_iff.mp (hmax ▸ hpos)).resolve_left (lt_irrefl 0)
      rw [hmax, max_eq_right hresultPos.le]
    have hlow := (hloop.bounded hfits (firstCandidate_quantized hfits hunit hquantity)
      (min_le_left _ _)).1
    exact le_antisymm (min_le_left _ _) (hresult ▸ hlow)

theorem lowers_whole (hfits : Arithmetic.context.Fits quantum quantity)
    (hquantity : IsQuantized quantity quantum) (hnonneg : 0 ≤ quantity)
    (hroom : LeavesBothFees quantity price quantum available policy)
    (hcost : cashConsumption quantity price policy ≤ available)
    (h : Lowers price quantum available policy
      (firstCandidate quantity price quantum available policy) result) :
    max 0 result = quantity := by
  rw [(firstCandidate_eq_iff hfits hquantity hnonneg).mpr (hroom hcost)] at h
  have hstop : Lowers price quantum available policy quantity quantity :=
    .done fun hgo => absurd hgo.2 (not_lt.mpr hcost)
  rw [h.unique hstop, max_eq_right hnonneg]

/-- The affordable quantity of an order that fits is always safe. It is the whole of an affordable
order exactly when the cash leaves room for the proportional fees and the minimum fee together. -/
theorem affordableQuantity_safe_iff (policy : PaperExecutionPolicy)
    (quantity price quantum available : Decimal) (hp : policy.Valid) (hprice : 0 < price)
    (hquantum : 0 < quantum) (hquantity : IsQuantized quantity quantum)
    (hfits : Arithmetic.context.Fits quantum quantity) :
    (∃ affordable, affordableQuantity quantity price quantum available policy =
    .success affordable ∧
      AffordsSafely quantity price quantum available policy affordable) ↔
    0 ≤ quantity ∧ LeavesBothFees quantity price quantum available policy := by
  have hunit : 0 < approximateUnit price policy := approximateUnit_pos hprice hp
  constructor
  · intro h
    obtain ⟨affordable, -, hsafe⟩ := h
    exact ⟨hsafe.nonneg.trans hsafe.asked, leavesBothFees_of_whole hunit hfits hquantity hsafe⟩
  · intro h
    have hfirst : IsQuantized (firstCandidate quantity price quantum available policy) quantum :=
      firstCandidate_quantized hfits hunit hquantity
    have hloop : Lowers price quantum available policy
        (firstCandidate quantity price quantum available policy)
        (lowerCandidate price quantum available policy
          (candidateSteps (firstCandidate quantity price quantum available policy) quantum)
          (firstCandidate quantity price quantum available policy)) :=
      exists_lowers hfits hfirst (min_le_left _ _)
    obtain ⟨hlow, hquantized⟩ := hloop.bounded hfits hfirst (min_le_left _ _)
    refine ⟨_, affordableQuantity_eq hunit hfits hquantity hloop, ⟨_, hloop, rfl⟩, ?_, ?_, ?_, ?_,
      ?_⟩
    · exact (IsQuantized.zero hquantum).max hquantized
    · exact le_max_left _ _
    · exact max_le h.1 (hlow.trans (min_le_left _ _))
    · intro hpos
      have hresult := (lt_max_iff.mp hpos).resolve_left (lt_irrefl 0)
      rw [max_eq_right hresult.le]
      exact hloop.affordable hresult
    · intro hcost
      exact lowers_whole hfits hquantity h.1 h.2 hcost hloop

end

namespace Scenario

open scoped PythonArithmetic

/-- Under a fee of one percent and a minimum fee of five, a hundred units at one cost 105. -/
theorem affordableQuantity_safe_iff_hundred :
    (∃ affordable, affordableQuantity 100 1 1 106 feePolicy = .success affordable ∧
      AffordsSafely 100 1 1 106 feePolicy affordable) ↔
    0 ≤ (100 : Decimal) ∧ LeavesBothFees 100 1 1 106 feePolicy :=
  affordableQuantity_safe_iff feePolicy 100 1 1 106 (by decide +kernel) (by decide) (by decide)
    (by decide +kernel) ⟨0, by decide +kernel, by decide +kernel⟩

def freePolicy : PaperExecutionPolicy := { policy with minimumFee := 0 }

theorem not_lowers_wide {candidate result : Decimal} (hwide : candidate = 10 ^ 29) :
    ¬ Lowers 1 1 (10 ^ 29 - 1) freePolicy candidate result := by
  intro h
  have hgo : 0 < (10 ^ 29 : Decimal) ∧
      (10 ^ 29 - 1 : Decimal) < cashConsumption (10 ^ 29) 1 freePolicy := by decide +kernel
  have hback : kept ((10 : Decimal) ^ 29 - 1) = 10 ^ 29 := by decide +kernel
  induction h with
  | done hstop => exact hstop (hwide ▸ hgo)
  | round _ _ ih => exact ih (by rw [hwide, hback])

/-- With 105 in cash the hundred units are affordable, and the order is cut; and the loop for 29
nines at the price of one, with as much in cash, never ends. -/
theorem affordableQuantity_cuts :
    (feePolicy.Valid ∧ IsQuantized (100 : Decimal) 1 ∧ cashConsumption 100 1 feePolicy ≤ 105 ∧
      ¬ ∃ affordable, affordableQuantity 100 1 1 105 feePolicy = .success affordable ∧
        AffordsSafely 100 1 1 105 feePolicy affordable) ∧
    freePolicy.Valid ∧ IsQuantized (10 ^ 29 - 1 : Decimal) 1 ∧
      ¬ ∃ result, Lowers 1 1 (10 ^ 29 - 1) freePolicy
        (firstCandidate (10 ^ 29 - 1) 1 1 (10 ^ 29 - 1) freePolicy) result := by
  have hcost : cashConsumption 100 1 feePolicy ≤ 105 := by decide +kernel
  have hcut : affordableQuantity 100 1 1 105 feePolicy = .success 99 := by decide +kernel
  refine ⟨⟨by decide +kernel, by decide +kernel, hcost, ?_⟩, by decide +kernel,
    by decide +kernel, ?_⟩
  · rintro ⟨affordable, hreturned, hsafe⟩
    rw [hcut, Attempt.success.injEq] at hreturned
    have hwhole := hsafe.whole hcost
    rw [← hreturned] at hwhole
    norm_num at hwhole
  · have hfirst : firstCandidate (10 ^ 29 - 1) 1 1 (10 ^ 29 - 1) freePolicy = 10 ^ 29 - 1 := by
      decide +kernel
    have hgo : 0 < (10 ^ 29 - 1 : Decimal) ∧
        (10 ^ 29 - 1 : Decimal) < cashConsumption (10 ^ 29 - 1) 1 freePolicy := by decide +kernel
    have hnext : kept ((10 ^ 29 - 1 : Decimal) - 1) = 10 ^ 29 := by decide +kernel
    rw [hfirst]
    rintro ⟨result, hloop⟩
    cases hloop with
    | done hstop => exact hstop hgo
    | round _ hrest => exact not_lowers_wide hnext hrest

end Scenario

end StonksPaper
